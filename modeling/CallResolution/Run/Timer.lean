import CallResolution.Text.JsonText
import CallResolution.Text.Words

/-!
# Timers

The phases of a run with the time each took, as a table and as a document.
-/

namespace CallResolution

open Text

/-- A length of time. -/
structure Duration where
  /-- The length in nanoseconds. -/
  nanos : Nat
  deriving DecidableEq, Repr, Inhabited

namespace Duration

/-- No time. -/
def zero : Duration := ⟨0⟩

/-- Two digits after the point. -/
def twoPlaces (hundredths : Nat) : String :=
  toString (hundredths / 100) ++ "." ++ padZeros 2 (toString (hundredths % 100))

/-- The length in milliseconds with two places. -/
def millis (d : Duration) : String :=
  twoPlaces ((d.nanos + 5000) / 10000)

/-- The length in milliseconds as a plain number. -/
def plainMillis (d : Duration) : String :=
  let rest := padZeros 6 (toString (d.nanos % 1000000))
  let digits := (rest.toList.reverse.dropWhile (· = '0')).reverse
  toString (d.nanos / 1000000) ++ (if digits.isEmpty then "" else "." ++ String.ofList digits)

/-- The length rounded to milliseconds, in the largest unit that it reaches. -/
def short (d : Duration) : String :=
  let ms := (d.nanos + 500000) / 1000000
  if ms = 0 then "0s"
  else if ms < 1000 then s!"{ms}ms"
  else
    let secs := (⟨ms % 60000 * 1000⟩ : Duration).plainMillis ++ "s"
    let mins := ms / 60000
    (if mins = 0 then "" else if mins < 60 then s!"{mins}m" else s!"{mins / 60}h{mins % 60}m") ++ secs

end Duration

/-- A phase that was begun. -/
structure TimedPhase where
  /-- The name. -/
  name : String
  /-- What is said of it when it ends. -/
  note : String := ""
  /-- When it began, counted from the first phase. -/
  start : Duration := .zero
  /-- How long it took. -/
  length : Duration := .zero
  deriving DecidableEq, Repr, Inhabited

/-- The phases of a run, in the order in which they began. -/
structure Timer where
  /-- The phases. -/
  phases : List TimedPhase := []
  deriving DecidableEq, Repr, Inhabited

namespace Timer

/-- Begins a phase, and gives its number. -/
def begin_ (t : Timer) (name : String) : Nat × Timer :=
  (t.phases.length, { phases := t.phases ++ [{ name }] })

/-- Ends the phase with a number; a number that no phase has changes nothing. -/
def end_ (t : Timer) (number : Int) (note : String) : Timer :=
  if number < 0 then t else { phases := t.phases.modify number.toNat fun p => { p with note } }

/-- A finished phase. -/
def phase (t : Timer) (name note : String) : Timer :=
  let (n, t) := t.begin_ name
  t.end_ n note

/-- The time from the first start to the last end. -/
def total (t : Timer) : Duration :=
  let ends := t.phases.map fun p => p.start.nanos + p.length.nanos
  let starts := t.phases.map (·.start.nanos)
  ⟨ends.foldl max 0 - starts.foldl min (starts.headD 0)⟩

/-- A line of the table. -/
def row (name : String) (d : Duration) (note : String) : String :=
  "  " ++ name ++ repeatText (24 - name.length) " " ++ " " ++ padLeft 8 d.millis ++ " ms"
    ++ (if note = "" then "" else "  // " ++ note) ++ "\n"

/-- The phases as a table. -/
def summary (t : Timer) : String :=
  "timings:\n" ++ String.join (t.phases.map fun p => row p.name p.length p.note) ++ row "total" t.total ""

/-- The phases as a document about a file. -/
def document (t : Timer) (path : String) : String :=
  let phase (p : TimedPhase) : JsonValue :=
    .object ([("name", .text p.name), ("duration_ms", .numeral p.length.plainMillis)]
      ++ if p.note = "" then [] else [("note", .text p.note)])
  (JsonValue.object ([("kind", .text "fixture")] ++ (if path = "" then [] else [("path", .text path)])
    ++ [("total_ms", .numeral t.total.plainMillis), ("phases", .list (t.phases.map phase))])).compact

end Timer

end CallResolution
