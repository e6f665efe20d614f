import CallResolution.Text.JsonText
import CallResolution.Text.Words

/-!
# Trace events

What a run did, as events: the begin and end of spans and points inside them, at three scopes.
A level says which events are of interest.
-/

namespace CallResolution.Trace

open Text

/-- How much is traced. -/
structure Level where
  /-- Higher levels trace more. -/
  number : Nat
  deriving DecidableEq, Repr, Inhabited

namespace Level

/-- Nothing. -/
def off : Level := ⟨0⟩

/-- Failures only. -/
def error : Level := ⟨1⟩

/-- The boundaries of runs and documents. -/
def phase : Level := ⟨2⟩

/-- Every call site. -/
def detail : Level := ⟨3⟩

/-- Every call site and the phases tried on it. -/
def debug : Level := ⟨4⟩

/-- The names of the levels, in order. -/
def names : List String :=
  ["off", "error", "phase", "detail", "debug"]

/-- The name of a level. -/
def name (l : Level) : String :=
  names.getD l.number "unknown"

/-- Folds the characters that are equal up to case with an ASCII letter to that letter. -/
def foldLetter (c : Char) : Char :=
  if c.toNat = 0x17F then 's' else if c.toNat = 0x212A then 'k' else c.toLower

/-- Reads the name of a level in any case. -/
def ofName? (s : String) : Option Level :=
  let folded := String.ofList (s.toList.map foldLetter)
  (names.findIdx? (· = folded)).map Level.mk

/-- What is said of a name that is no level. -/
def fault (s : String) : String :=
  s!"invalid trace level: {quote s} (expected: off|error|phase|detail|debug)"

/-- Whether anything is traced. -/
def isEnabled (l : Level) : Bool :=
  0 < l.number

end Level

/-- What happened. -/
structure Kind where
  /-- The number of the kind. -/
  number : Nat
  deriving DecidableEq, Repr, Inhabited

namespace Kind

/-- A span starts. -/
def begin_ : Kind := ⟨1⟩

/-- A span ends. -/
def end_ : Kind := ⟨2⟩

/-- Something happens inside a span. -/
def point : Kind := ⟨3⟩

/-- The name of a kind. -/
def name (k : Kind) : String :=
  if k = begin_ then "begin" else if k = end_ then "end" else if k = point then "point" else "unknown"

/-- The mark of a kind in the text form. -/
def mark (k : Kind) : String :=
  if k = begin_ then "→ " else if k = end_ then "← " else if k = point then "• " else ""

end Kind

/-- How much an event is about. -/
structure Scope where
  /-- Lower numbers are coarser. -/
  number : Nat
  deriving DecidableEq, Repr, Inhabited

namespace Scope

/-- A whole run. -/
def driver : Scope := ⟨1⟩

/-- One document. -/
def unit : Scope := ⟨2⟩

/-- One call site. -/
def site : Scope := ⟨3⟩

/-- The name of a scope. -/
def name (s : Scope) : String :=
  if s = driver then "driver" else if s = unit then "unit" else if s = site then "site" else "unknown"

end Scope

/-- Whether events of a scope and kind are of interest at a level. -/
def Level.shouldEmit (l : Level) (s : Scope) (k : Kind) : Bool :=
  if l = .phase then s.number ≤ Scope.unit.number
  else if l = .detail then s.number ≤ Scope.site.number && k ≠ .point
  else l = .debug

/-- One event. -/
structure Event where
  /-- The time in microseconds since 1970. -/
  micros : Int := 0
  /-- The place in the sequence of all events. -/
  seq : Nat := 0
  /-- What happened. -/
  kind : Kind
  /-- How much it is about. -/
  scope : Scope
  /-- The span. -/
  span : Nat := 0
  /-- The span around it, 0 for none. -/
  parent : Nat := 0
  /-- The thread. -/
  thread : Nat := 0
  /-- What it is about. -/
  name : String
  /-- A remark. -/
  detail : String := ""
  /-- Named values, without repeated names. -/
  extra : List (String × String) := []
  deriving DecidableEq, Repr, Inhabited

/-- Whether an event is of interest at a level. -/
def Event.passes (e : Event) (l : Level) : Bool :=
  l.shouldEmit e.scope e.kind

/-- How events are written. -/
inductive Format where
  /-- As the name of the output suggests. -/
  | auto
  /-- One line of text for each event. -/
  | text
  /-- One line of JSON for each event. -/
  | ndjson
  deriving DecidableEq, Repr, Inhabited

namespace Format

/-- The number of a format. -/
def number : Format → Nat
  | .auto => 0
  | .text => 1
  | .ndjson => 2

/-- Reads the name of a format. -/
def ofName? (s : String) : Option Format :=
  match String.ofList (s.toList.map lowerForWord) with
  | "" | "auto" => some .auto
  | "text" => some .text
  | "ndjson" | "json" => some .ndjson
  | _ => none

/-- What is said of a name that is no format. -/
def fault (s : String) : String :=
  s!"invalid trace format: {quote s} (expected: auto|text|ndjson)"

end Format

/-- Named values in the order of their names. -/
def sortedExtra (extra : List (String × String)) : List (String × String) :=
  extra.mergeSort fun a b => !(b.1 < a.1)

/-- What a line of text says of an event. -/
def Event.text (e : Event) : String :=
  let detail := if e.detail = "" then "" else " (" ++ e.detail ++ ")"
  let pairs := (sortedExtra e.extra).map fun (k, v) => k ++ "=" ++ v
  let extra := if pairs.isEmpty then "" else " \x7b" ++ ", ".intercalate pairs ++ "\x7d"
  "#" ++ padZeros 6 (toString e.seq) ++ " " ++ repeatText (e.scope.number - 1) "  " ++ e.kind.mark ++ e.name
    ++ detail ++ extra

/-- An event as a line of text. -/
def Event.textLine (e : Event) : String :=
  e.text ++ "\n"

/-- The year, month and day of a day counted from the start of 1970. Years are counted from
March on, so that the leap day is the last of its year. -/
def civilDate (days : Int) : Int × Nat × Nat :=
  let z := days + 719468
  let era := Int.fdiv z 146097
  let doe := (z - era * 146097).toNat
  let yoe := (doe - doe / 1460 + doe / 36524 - doe / 146096) / 365
  let doy := doe - (365 * yoe + yoe / 4 - yoe / 100)
  let mp := (5 * doy + 2) / 153
  let day := doy - (153 * mp + 2) / 5 + 1
  let month := if mp < 10 then mp + 3 else mp - 9
  (yoe + era * 400 + if month ≤ 2 then 1 else 0, month, day)

/-- A time in microseconds since 1970 in universal time. -/
def timestamp (micros : Int) : String :=
  let days := Int.fdiv micros 86400000000
  let rest := (micros - days * 86400000000).toNat
  let (year, month, day) := civilDate days
  let secs := rest / 1000000
  let two (n : Nat) : String := padZeros 2 (toString n)
  let yearText :=
    if year < 0 then "-" ++ padZeros 4 (toString year.natAbs) else padZeros 4 (toString year.natAbs)
  s!"{yearText}-{two month}-{two day}T{two (secs / 3600)}:{two (secs / 60 % 60)}:{two (secs % 60)}."
    ++ padZeros 6 (toString (rest % 1000000)) ++ "Z"

/-- An event as a line of JSON. -/
def Event.jsonLine (e : Event) : String :=
  let optNum (k : String) (n : Nat) : List (String × JsonValue) := if n = 0 then [] else [(k, .int n)]
  let value : JsonValue := .object
    ([("time", .text (timestamp e.micros)), ("seq", .int e.seq), ("kind", .text e.kind.name),
      ("scope", .text e.scope.name), ("span_id", .int e.span)]
      ++ optNum "parent_id" e.parent ++ optNum "gid" e.thread ++ [("name", .text e.name)]
      ++ (if e.detail = "" then [] else [("detail", .text e.detail)])
      ++ (if e.extra.isEmpty then []
          else [("extra", .object ((sortedExtra e.extra).map fun (k, v) => (k, .text v)))]))
  value.compact ++ "\n"

/-- An event as a line of a format. -/
def Event.line (e : Event) : Format → String
  | .ndjson => e.jsonLine
  | _ => e.textLine

/-- Numbers events from 1 on. -/
def renumber (es : List Event) : List Event :=
  es.mapIdx fun i e => { e with seq := i + 1 }

/-- Numbers spans in the order of their begins, when the spans around an event are `around`,
innermost first, and `last` was the last number given. Every event gets the number of its span
and of the span around it; a point lies inside its span. -/
def numberSpans : Nat → List Nat → List Event → List Event
  | _, _, [] => []
  | last, around, e :: es =>
    if e.kind = .begin_ then
      { e with span := last + 1, parent := around.headD 0 } :: numberSpans (last + 1) ((last + 1) :: around) es
    else if e.kind = .end_ then
      { e with span := around.headD 0, parent := (around.drop 1).headD 0 } :: numberSpans last (around.drop 1) es
    else { e with span := around.headD 0, parent := around.headD 0 } :: numberSpans last around es

end CallResolution.Trace
