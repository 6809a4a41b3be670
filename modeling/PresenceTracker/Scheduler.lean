import PresenceTracker.Failure
import PresenceTracker.Time

/-!
# Recurring jobs

A job is registered with the interval at which it recurs, which has to be positive. The jobs
are started together, once; jobs can be registered at any time.
-/

namespace PresenceTracker

/-- A job that recurs. -/
structure RecurringJob where
  /-- The name. -/
  name : String
  /-- The time from one pass to the next. -/
  interval : Duration
  deriving DecidableEq, Repr

/-- The recurring jobs, in the order of their registration. -/
structure Scheduler where
  /-- The jobs. -/
  jobs : List RecurringJob := []
  /-- Whether they have been started. -/
  isStarted : Bool := false
  deriving DecidableEq, Repr

namespace Scheduler

/-- Refuses an interval of no length. -/
def noInterval (name : String) : Failure :=
  .plain .configuration ("Interval for " ++ name ++ " must be positive")

/-- Registers a job. -/
def register (scheduler : Scheduler) (job : RecurringJob) : Except Failure Scheduler :=
  if job.interval = 0 then .error (noInterval job.name)
  else .ok { scheduler with jobs := scheduler.jobs ++ [job] }

/-- Refuses a second start. -/
def startedBefore : Failure := .plain .internal "Failed to start scheduler: StartScheduler"

/-- Starts the jobs. -/
def start (scheduler : Scheduler) : Except Failure Scheduler :=
  if scheduler.isStarted then .error startedBefore else .ok { scheduler with isStarted := true }

/-- Shuts the jobs down, started or not. This does not take a start back. -/
def shutdown (scheduler : Scheduler) : Except Failure Scheduler := .ok scheduler

end Scheduler

end PresenceTracker
