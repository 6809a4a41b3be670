import PresenceTracker.Decimal.Parse
import PresenceTracker.Log.Entry
import PresenceTracker.Text

/-!
# Log filters

A filter is a row of directives between commas. A directive sets how important an entry has
to be to be shown, either for every entry or for those whose target begins with a text or
that have a field of a name. Of the directives for an entry the most particular one counts,
of several that ask for the same the last one. An entry that no directive is for is not
shown.
-/

namespace PresenceTracker

/-- How important entries have to be: at least as important as a level, or else none is
shown. -/
abbrev LogThreshold := Option LogLevel

namespace LogThreshold

/-- Whether entries of a level pass. -/
def passes (threshold : LogThreshold) (level : LogLevel) : Bool :=
  threshold.any fun least => level.rank ≤ least.rank

/-- The threshold of a rank; zero shows nothing. -/
def ofRank? (rank : Nat) : Option LogThreshold :=
  if rank = 0 then some none else (LogLevel.all.find? fun level => level.rank == rank).map some

/-- The threshold that a word stands for: the name of a level in letters of either case, a
rank, or the word for none. -/
def ofWord? (word : String) : Option LogThreshold :=
  let capital := word.map Char.toUpper
  match Decimal.nat? word.toList with
  | some rank => ofRank? rank
  | none =>
    if capital = "OFF" then some none
    else (LogLevel.all.find? fun level => level.label == capital).map some

end LogThreshold

/-- What a directive asks for besides a target. -/
inductive LogCondition where
  /-- Nothing. -/
  | any
  /-- A field of a name. -/
  | field (name : String)
  /-- A stretch of work around the entry, with a name or a value. No entry has one. -/
  | stretch
  deriving DecidableEq, Repr

/-- A part of a filter. -/
structure LogDirective where
  /-- What the targets of the entries begin with. -/
  target : Option String := none
  /-- What it asks for besides. -/
  condition : LogCondition := .any
  /-- How important the entries have to be. -/
  threshold : LogThreshold := some .trace
  deriving DecidableEq, Repr

/-- Why a text is no directive. -/
inductive LogDirective.Refusal where
  /-- It does not have the form of a directive. -/
  | form
  /-- It names no level where it should. -/
  | level
  deriving DecidableEq, Repr

namespace LogDirective

/-- The text of a refusal. -/
def Refusal.text : Refusal → String
  | form => "invalid filter directive"
  | level => "error parsing level filter: expected one of \"off\", \"error\", \"warn\", " ++
      "\"info\", \"debug\", \"trace\", or a number 0-5"

/-- Whether a target may begin with a character. -/
def isStart (c : Char) : Bool :=
  Text.isLetterOrDigit c || c = '-' || c = ':' || c = '_'

/-- The parts of a directive. -/
structure Parts where
  /-- What stands in front. -/
  target : Option String := none
  /-- What stands in brackets. -/
  condition : LogCondition := .any
  /-- What stands behind the sign for a level, if there is one. -/
  level : Option String := none

/-- The condition in brackets in front of a text, behind the opening one, and what follows
the closing one. It is the name of a stretch of work, a field in braces, or both; a field
may have a value. -/
def readCondition (text : List Char) : Option (LogCondition × List Char) :=
  let name := text.takeWhile fun c => c ≠ ']' && c ≠ '{'
  match text.drop name.length with
  | ']' :: rest => some (.stretch, rest)
  | '{' :: rest =>
    let field := rest.takeWhile fun c => c ≠ '}'
    match rest.drop field.length with
    | '}' :: ']' :: rest =>
      if field.isEmpty then none
      else if name.isEmpty && !field.contains '=' then some (.field (String.ofList field), rest)
      else some (.stretch, rest)
    | _ => none
  | _ => none

/-- The parts of a directive whose target and condition have been read. A level may follow,
and nothing else but blanks. -/
def endParts (target : Option String) (condition : LogCondition) (rest : List Char) :
    Option Parts :=
  match rest with
  | '=' :: level => some ⟨target, condition, some (String.ofList level)⟩
  | rest => if rest.all Text.isBlank then some ⟨target, condition, none⟩ else none

/-- The parts of a directive that no blanks stand in front of. -/
def readParts (text : List Char) : Option Parts :=
  let front := text.takeWhile fun c => c ≠ '=' && c ≠ '['
  let target := if front.isEmpty then none else some (String.ofList front)
  match front.head?.all isStart, text.drop front.length with
  | true, '[' :: rest =>
    (readCondition rest).bind fun (condition, rest) => endParts target condition rest
  | true, rest => if front.isEmpty then none else endParts target .any rest
  | false, _ => none

/-- The directive of parts. Without a level, what stands in front may be one itself; else
everything is shown. -/
def ofParts (parts : Parts) : Except Refusal LogDirective :=
  match parts.level with
  | some "" => .ok ⟨parts.target, parts.condition, some .trace⟩
  | some level =>
    match LogThreshold.ofWord? level with
    | some found => .ok ⟨parts.target, parts.condition, found⟩
    | none => .error .level
  | none =>
    match parts.condition, parts.target.bind LogThreshold.ofWord? with
    | .any, some found => .ok ⟨none, .any, found⟩
    | condition, _ => .ok ⟨parts.target, condition, some .trace⟩

/-- The directive that a text stands for. Behind blanks in front no level can be read, and
nothing that entries have. -/
def parse (text : String) : Except Refusal LogDirective :=
  let body := text.toList.dropWhile Text.isBlank
  match readParts body with
  | none => .error .form
  | some parts =>
    if body.length = text.length then ofParts parts
    else if parts.level.isSome then .error .level
    else .ok { target := some text, condition := .stretch }

/-- Whether a directive is for an entry. -/
def isFor (directive : LogDirective) (entry : LogEntry) : Bool :=
  directive.target.all (fun front => entry.target.startsWith front) &&
    match directive.condition with
    | .any => true
    | .field name => entry.fields.any fun field => field.1 == name
    | .stretch => false

/-- What makes a directive particular: first the length of its target, then the field that
it asks for. -/
def rank (directive : LogDirective) : Nat × String :=
  (directive.target.elim 0 fun front => front.length + 1,
    match directive.condition with
    | .field name => name
    | _ => "")

/-- Whether a directive counts as much as another one or less. -/
def yieldsTo (directive other : LogDirective) : Bool :=
  directive.rank.1 < other.rank.1 ||
    (directive.rank.1 == other.rank.1 && directive.rank.2 ≤ other.rank.2)

end LogDirective

/-- A filter for log entries. -/
structure LogFilter where
  /-- The directives, in order. -/
  directives : List LogDirective
  deriving DecidableEq, Repr

namespace LogFilter

/-- The texts between the commas of a filter; empty ones are skipped. -/
def parts (text : String) : List String := (text.splitOn ",").filter fun part => part ≠ ""

/-- The filter that a text stands for, if each of its directives is one. -/
def parse? (text : String) : Option LogFilter :=
  ((parts text).mapM fun part => (LogDirective.parse part).toOption).map LogFilter.mk

/-- What is said about a text that is no directive. -/
def complaint (part : String) (refusal : LogDirective.Refusal) : String :=
  "ignoring `" ++ part ++ "`: " ++ refusal.text

/-- The filter that a text stands for without what is no directive, and what is to be said
about that. A filter without directives shows errors only. -/
def parseSome (text : String) : LogFilter × List String :=
  let readings := (parts text).map fun part => (part, LogDirective.parse part)
  let directives := readings.filterMap fun reading => reading.2.toOption
  let complaints := readings.filterMap fun (part, reading) =>
    match reading with
    | .error refusal => some (complaint part refusal)
    | .ok _ => none
  (⟨if directives.isEmpty then [{ threshold := some .error }] else directives⟩, complaints)

/-- The directive that counts for an entry. -/
def directiveFor? (filter : LogFilter) (entry : LogEntry) : Option LogDirective :=
  (filter.directives.filter fun directive => directive.isFor entry).foldl
    (fun best next => if best.all fun best => best.yieldsTo next then some next else best) none

/-- Whether an entry is shown. -/
def shows (filter : LogFilter) (entry : LogEntry) : Bool :=
  (filter.directiveFor? entry).any fun directive => directive.threshold.passes entry.level

end LogFilter

end PresenceTracker
