import Mathlib.Data.Fintype.Card
import Mathlib.Logic.Function.Basic
import PresenceTracker.Engine.Slots

/-!
# The slots of the users at work

A node maps each user it keeps track of to a slot with a lock, and its tasks take turns at
the slots: a task takes a share of the user's slot, waits for the lock, works, and drops its
guard, which forgets the slot if nobody else shares it. A sweep forgets the slots that
nobody shares, and a removal the slot of the user removed. Steps of different tasks may come
in any order.
-/

namespace PresenceTracker

/-- Where a task of a node stands with the slots of users. -/
inductive Stage where
  /-- The task has a share of no slot. -/
  | idle
  /-- The task has a share of the user's slot and waits for its lock. -/
  | awaiting (user : String) (slot : Nat)
  /-- The task holds the lock and is at work on the user. -/
  | working (user : String) (slot : Nat)
  /-- The task has removed the user and forgotten the slot, whose lock it still holds. -/
  | leaving (user : String) (slot : Nat)
  deriving DecidableEq, Repr

namespace Stage

/-- The slot that a task has a share of. -/
def slot? : Stage → Option Nat
  | idle => none
  | awaiting _ slot | working _ slot | leaving _ slot => some slot

/-- The slot whose lock a task holds. -/
def lock? : Stage → Option Nat
  | idle | awaiting _ _ => none
  | working _ slot | leaving _ slot => some slot

/-- The task waits at a slot for its turn on a user, or has it. -/
def Claims (stage : Stage) (user : String) (slot : Nat) : Prop :=
  stage = awaiting user slot ∨ stage = working user slot

theorem Claims.slot? {stage : Stage} {user : String} {slot : Nat} (h : stage.Claims user slot) :
    stage.slot? = some slot := by
  rcases h with rfl | rfl <;> rfl

end Stage

/-- The slots of a node, and where its tasks stand with them. A slot goes by a number. -/
structure SlotMap (ι : Type) where
  /-- The slot of each user that the node keeps track of. -/
  mapped : Table Nat := ∅
  /-- The number of slots made so far, which is what the next one goes by. -/
  made : Nat := 0
  /-- When the user of a slot was last written, as the slot has it. -/
  written : Nat → Option Moment := fun _ => none
  /-- Where each task stands. -/
  stage : ι → Stage := fun _ => .idle

/-- A step of a task, or of the node itself. -/
inductive SlotStep (ι : Type) where
  /-- The task takes a share of the user's slot, which is made if there is none. -/
  | enter (task : ι) (user : String)
  /-- The task gets the lock. -/
  | acquire (task : ι)
  /-- The task is dropped while it waits. -/
  | giveUp (task : ι)
  /-- The task notes that it has written the user. -/
  | note (task : ι) (moment : Moment)
  /-- The task has removed the user and forgets the slot. -/
  | forget (task : ι)
  /-- The task drops its guard. -/
  | drop (task : ι) (now interval : Moment)
  /-- The node forgets slots after a sweep. -/
  | prune (now interval : Moment)

/-- Whether a user is removed. -/
def SlotStep.removes {ι : Type} : SlotStep ι → Bool
  | forget _ => true
  | _ => false

namespace SlotMap

section Owners

variable {ι : Type} [Fintype ι] {map : SlotMap ι} {task other : ι} {slot : Nat}

/-- How many share a slot that the map holds: the map itself, and tasks. -/
def owners (map : SlotMap ι) (slot : Nat) : Nat :=
  1 + (Finset.univ.filter fun task => (map.stage task).slot? = some slot).card

/-- Whether a guard that is dropped forgets its user: the slot that the map now has for the
user is shared by one task, and the window of the guard's own slot is closed. -/
def dropForgets (map : SlotMap ι) (user : String) (own : Nat) (now interval : Moment) : Bool :=
  map.mapped[user]?.any fun slot =>
    map.owners slot == 2 && !coalesces (map.written own) now interval

/-- Whether a slot is kept after a sweep: somebody shares it, or its window is open. -/
def survives (map : SlotMap ι) (now interval : Moment) (slot : Nat) : Bool :=
  1 < map.owners slot || coalesces (map.written slot) now interval

/-- Whether a step can be taken. A lock is got only while nobody holds it. -/
def allows (map : SlotMap ι) : SlotStep ι → Bool
  | .enter task _ => map.stage task = .idle
  | .acquire task =>
    match map.stage task with
    | .awaiting _ slot => ∀ other, (map.stage other).lock? ≠ some slot
    | _ => false
  | .giveUp task =>
    match map.stage task with
    | .awaiting _ _ => true
    | _ => false
  | .note task _ | .forget task =>
    match map.stage task with
    | .working _ _ => true
    | _ => false
  | .drop task _ _ => (map.stage task).lock?.isSome
  | .prune _ _ => true

/-- A slot with two owners is shared by one task. -/
theorem eq_of_owners_eq_two (howners : map.owners slot = 2)
    (htask : (map.stage task).slot? = some slot) (hother : (map.stage other).slot? = some slot) :
    other = task := by
  have hcard : (Finset.univ.filter fun task => (map.stage task).slot? = some slot).card = 1 := by
    rw [owners] at howners
    omega
  obtain ⟨sole, hsole⟩ := Finset.card_eq_one.mp hcard
  have hin : ∀ one, (map.stage one).slot? = some slot → one = sole := by
    intro one hone
    rw [← Finset.mem_singleton, ← hsole]
    exact Finset.mem_filter.mpr ⟨Finset.mem_univ _, hone⟩
  rw [hin other hother, hin task htask]

/-- A slot that one task shares and no other has two owners. -/
theorem owners_eq_two (htask : (map.stage task).slot? = some slot)
    (hothers : ∀ other, other ≠ task → (map.stage other).slot? ≠ some slot) :
    map.owners slot = 2 := by
  have hsole : (Finset.univ.filter fun task => (map.stage task).slot? = some slot) = {task} := by
    ext one
    simp only [Finset.mem_filter, Finset.mem_univ, true_and, Finset.mem_singleton]
    exact ⟨fun hone => not_not.mp fun hne => hothers one hne hone, fun hone => hone ▸ htask⟩
  rw [owners, hsole, Finset.card_singleton]

/-- A slot that a task shares has more owners than the map. -/
theorem one_lt_owners (htask : (map.stage task).slot? = some slot) : 1 < map.owners slot := by
  have hcard : 0 < (Finset.univ.filter fun task => (map.stage task).slot? = some slot).card :=
    Finset.card_pos.mpr ⟨task, Finset.mem_filter.mpr ⟨Finset.mem_univ _, htask⟩⟩
  rw [owners]
  omega

/-- A slot that nobody shares is the map's. -/
theorem owners_eq_one (hothers : ∀ task, (map.stage task).slot? ≠ some slot) :
    map.owners slot = 1 := by
  rw [owners, Finset.filter_false_of_mem fun task _ => hothers task, Finset.card_empty]

/-- A lock that can be got is awaited, and nobody holds it. -/
theorem acquire_allowed (hallows : map.allows (.acquire task)) :
    ∃ user slot, map.stage task = .awaiting user slot ∧
      ∀ other, (map.stage other).lock? ≠ some slot := by
  simp only [allows] at hallows
  split at hallows
  · next user slot hstage => exact ⟨user, slot, hstage, of_decide_eq_true hallows⟩
  · cases hallows

/-- Who can forget a slot is at work. -/
theorem forget_allowed (hallows : map.allows (.forget task)) :
    ∃ user slot, map.stage task = .working user slot := by
  simp only [allows] at hallows
  split at hallows
  · next user slot hstage => exact ⟨user, slot, hstage⟩
  · cases hallows

end Owners

section Moves

variable {ι : Type} [DecidableEq ι] {map : SlotMap ι} {task other : ι}

/-- The map after a task has come to stand somewhere else. -/
def move (map : SlotMap ι) (task : ι) (stage : Stage) : SlotMap ι :=
  { map with stage := Function.update map.stage task stage }

/-- A task takes a share of the user's slot; a new one was never written. -/
def enter (map : SlotMap ι) (task : ι) (user : String) : SlotMap ι :=
  match map.mapped[user]? with
  | some slot => map.move task (.awaiting user slot)
  | none =>
    { mapped := map.mapped.insert user map.made
      made := map.made + 1
      written := Function.update map.written map.made none
      stage := Function.update map.stage task (.awaiting user map.made) }

theorem stage_move (stage : Stage) :
    (map.move task stage).stage other = if other = task then stage else map.stage other :=
  Function.update_apply ..

end Moves

section Steps

variable {ι : Type} [Fintype ι] [DecidableEq ι]

/-- The map after a guard has been dropped. -/
def dropGuard (map : SlotMap ι) (task : ι) (user : String) (own : Nat) (now interval : Moment) :
    SlotMap ι :=
  { map with
    mapped := if map.dropForgets user own now interval then map.mapped.erase user else map.mapped
    stage := Function.update map.stage task .idle }

/-- The map after a step. -/
def step (map : SlotMap ι) : SlotStep ι → SlotMap ι
  | .enter task user => map.enter task user
  | .acquire task =>
    match map.stage task with
    | .awaiting user slot => map.move task (.working user slot)
    | _ => map
  | .giveUp task => map.move task .idle
  | .note task moment =>
    match map.stage task with
    | .working _ slot => { map with written := Function.update map.written slot (some moment) }
    | _ => map
  | .forget task =>
    match map.stage task with
    | .working user slot =>
      { map with
        mapped := map.mapped.erase user
        stage := Function.update map.stage task (.leaving user slot) }
    | _ => map
  | .drop task now interval =>
    match map.stage task with
    | .working user own | .leaving user own => map.dropGuard task user own now interval
    | _ => map
  | .prune now interval =>
    { map with mapped := map.mapped.filter fun _ slot => map.survives now interval slot }

/-- The maps that are reached by steps that a discipline allows. -/
inductive Reaches (discipline : SlotMap ι → SlotStep ι → Bool) (start : SlotMap ι) :
    SlotMap ι → Prop where
  /-- No step was taken. -/
  | start : Reaches discipline start start
  /-- A step was taken from a map that was reached. -/
  | step {map : SlotMap ι} (step : SlotStep ι) (h : Reaches discipline start map)
      (hallows : discipline map step) : Reaches discipline start (map.step step)

/-- Whether steps taken one after the other obey a discipline. -/
def obeys (discipline : SlotMap ι → SlotStep ι → Bool) : SlotMap ι → List (SlotStep ι) → Bool
  | _, [] => true
  | map, step :: rest => discipline map step && obeys discipline (map.step step) rest

/-- Steps that obey a discipline lead to a map that it reaches. -/
theorem Reaches.foldl {discipline : SlotMap ι → SlotStep ι → Bool} {start map : SlotMap ι}
    (h : Reaches discipline start map) {steps : List (SlotStep ι)}
    (hobeys : obeys discipline map steps) :
    Reaches discipline start (steps.foldl SlotMap.step map) := by
  induction steps generalizing map with
  | nil => exact h
  | cons step rest ih =>
    rw [obeys, Bool.and_eq_true] at hobeys
    exact ih (.step step h hobeys.1) hobeys.2

end Steps

end SlotMap

end PresenceTracker
