/-!
# Failures

A failure is what an operation reports in place of a result: a kind that callers
branch on, a text, and possibly the lower-level cause it was built around. Only
the texts of two kinds are meant for end users; all others collapse to one fixed
sentence, so that no text of a backend reaches a client.
-/

namespace PresenceTracker

/-- What went wrong, as far as callers tell failures apart. -/
inductive FailureKind where
  /-- The requested record does not exist. -/
  | notFound
  /-- An argument or a record breaks a rule. -/
  | validation
  /-- A name is already taken. -/
  | conflict
  /-- The program itself failed. -/
  | internal
  /-- The durable store failed. -/
  | database
  /-- A cache backend failed. -/
  | cache
  /-- The messaging between nodes failed. -/
  | cluster
  /-- A text or a byte string could not be read. -/
  | serialization
  /-- The settings are unusable. -/
  | configuration
  /-- A deadline passed. -/
  | timeout
  /-- A service cannot be reached at present. -/
  | unavailable
  deriving DecidableEq, Repr

namespace FailureKind

/-- Every kind, in declaration order. -/
def all : List FailureKind :=
  [notFound, validation, conflict, internal, database, cache, cluster, serialization,
    configuration, timeout, unavailable]

/-- The name written in front of a failure's text. -/
def label : FailureKind → String
  | notFound => "NOT_FOUND"
  | validation => "VALIDATION"
  | conflict => "CONFLICT"
  | internal => "INTERNAL"
  | database => "DATABASE"
  | cache => "CACHE"
  | cluster => "CLUSTER"
  | serialization => "SERIALIZATION"
  | configuration => "CONFIGURATION"
  | timeout => "TIMEOUT"
  | unavailable => "SERVICE_UNAVAILABLE"

/-- The name of the kind in JSON text. -/
def wireName : FailureKind → String
  | notFound => "NotFound"
  | validation => "Validation"
  | conflict => "Conflict"
  | internal => "Internal"
  | database => "Database"
  | cache => "Cache"
  | cluster => "Cluster"
  | serialization => "Serialization"
  | configuration => "Configuration"
  | timeout => "Timeout"
  | unavailable => "ServiceUnavailable"

/-- The kind with a given label. -/
def ofLabel? (text : String) : Option FailureKind :=
  all.find? fun kind => kind.label == text

/-- A kind is read back from its label. -/
theorem ofLabel?_label (kind : FailureKind) : ofLabel? kind.label = some kind := by
  cases kind <;> rfl

/-- Whether texts of this kind are written for end users. -/
def isForUsers : FailureKind → Bool
  | validation | notFound => true
  | _ => false

end FailureKind

/-- The lower-level error that a failure was built around. -/
inductive Failure.Cause where
  /-- Settings outside their ranges; the names of the offending fields. -/
  | ranges (fields : List String)
  /-- An error of something the program uses. -/
  | foreign
  deriving DecidableEq, Repr

/-- What an operation reports in place of a result. -/
structure Failure where
  /-- What callers branch on. -/
  kind : FailureKind
  /-- The text. -/
  message : String
  /-- The error it was built around, if any. -/
  cause : Option Failure.Cause := none
  deriving DecidableEq, Repr

namespace Failure

/-- What end users read in place of a text that is not meant for them. -/
def updateFailedText : String := "Couldn't update status, please try again"

/-- The text with its kind in front. -/
def display (failure : Failure) : String := failure.kind.label ++ ": " ++ failure.message

/-- The text an end user may read. -/
def userMessage (failure : Failure) : String :=
  if failure.kind.isForUsers then failure.message else updateFailedText

/-- Whether the failure only says that there is no such record. -/
def isNotFound (failure : Failure) : Bool := failure.kind = .notFound

/-- A copy of a failure; the cause stays behind. -/
def copied (failure : Failure) : Failure := { failure with cause := none }

/-- A failure without a cause. -/
def plain (kind : FailureKind) (message : String) : Failure := ⟨kind, message, none⟩

/-- A failure built around an error of something the program uses. -/
def around (kind : FailureKind) (message : String) : Failure := ⟨kind, message, some .foreign⟩

/-- Nobody has recorded a status for this user. -/
def noStatus (user : String) : Failure := plain .notFound ("No status for user " ++ user)

/-- A task was killed before it could report a result. -/
def taskFailed (detail : String) : Failure := plain .internal ("Status task failed: " ++ detail)

/-- A text that is no JSON or not of the wanted shape. -/
def json (detail : String) : Failure :=
  around .serialization ("JSON serialization error: " ++ detail)

/-- An input or output error. -/
def io (detail : String) : Failure := around .internal ("I/O error: " ++ detail)

/-- An error of the settings sources. -/
def settingsSource (detail : String) : Failure :=
  around .configuration ("Configuration error: " ++ detail)

/-- Settings outside their ranges. -/
def outOfRange (fields : List String) : Failure :=
  ⟨.configuration, "Invalid configuration: " ++ ", ".intercalate fields, some (.ranges fields)⟩

/-- A deadline passed before an operation was done. -/
def timedOut : Failure := around .timeout "Operation timed out"

/-- Users are told the text of a failure that is written for them. -/
theorem userMessage_of_isForUsers {failure : Failure} (h : failure.kind.isForUsers = true) :
    failure.userMessage = failure.message := by
  simp [userMessage, h]

/-- Of any other failure they are told that something went wrong, and nothing of its text. -/
theorem userMessage_of_not_isForUsers {failure : Failure} (h : failure.kind.isForUsers = false) :
    failure.userMessage = updateFailedText := by
  simp [userMessage, h]

end Failure

end PresenceTracker
