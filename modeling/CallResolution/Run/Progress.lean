import CallResolution.Text.Shortest
import CallResolution.Text.Terminal
import CallResolution.Text.Words

/-!
# Progress of a run

A run tells when it starts and ends its phases and its files. The board shows what became of
every file so far, with a spinner, a bar, and a summary at the end.
-/

namespace CallResolution

open Text

/-- The start or end of a phase, or of a file inside a phase. -/
structure PhaseEvent where
  /-- The phase. -/
  name : String
  /-- The file, blank for the phase as a whole. -/
  file : String := ""
  /-- Whether it ended. -/
  ended : Bool := false
  /-- Whether the file came from the cache. -/
  cached : Bool := false
  /-- Whether the file has errors. -/
  errors : Bool := false
  deriving DecidableEq, Repr, Inhabited

/-- An event on one line. -/
def PhaseEvent.text (e : PhaseEvent) : String :=
  e.name ++ " " ++ e.file ++ (if e.ended then " end" else " start") ++ (if e.cached then " cached" else "")
    ++ (if e.errors then " errors" else "")

namespace Progress

/-- What became of a file so far. -/
inductive Status where
  /-- It waits. -/
  | queued
  /-- It is being worked on. -/
  | resolving
  /-- It has no errors. -/
  | done
  /-- It came from the cache without errors. -/
  | cached
  /-- It has errors. -/
  | errors
  deriving DecidableEq, Repr, Inhabited

/-- The name of a status. -/
def Status.name : Status → String
  | .queued => "queued"
  | .resolving => "resolving"
  | .done => "done"
  | .cached => "cached"
  | .errors => "errors"

/-- How much of the work on a file is done, in halves. -/
def Status.halves : Status → Nat
  | .queued => 0
  | .resolving => 1
  | .done | .cached | .errors => 2

/-- What an event says of its file. -/
def Status.ofEvent (e : PhaseEvent) : Status :=
  if !e.ended then .resolving
  else if e.errors then .errors
  else if e.cached then .cached
  else .done

/-- A file on the board. -/
structure Item where
  /-- The path. -/
  path : String
  /-- What became of it. -/
  status : Status := .queued
  deriving DecidableEq, Repr, Inhabited

/-- What is shown of a run. -/
structure Board where
  /-- What the run is called. -/
  title : String
  /-- The files. -/
  items : List Item
  /-- What is shown in the end, if anything. -/
  summary? : Option String := none
  /-- What the run is doing, blank at first. -/
  phase : String := ""
  /-- The cells of a line. -/
  width : Int := 80
  /-- The cells of the bar with its percentage. -/
  barWidth : Int := 76
  /-- How often the spinner moved. -/
  ticks : Nat := 0
  /-- Whether the run is over. -/
  finished : Bool := false
  /-- The summary, once the run is over. -/
  final : String := ""
  deriving Repr, Inhabited

/-- What the board is told. -/
inductive Message where
  /-- The run made an event. -/
  | event (e : PhaseEvent)
  /-- There are no more events. -/
  | finished
  /-- A line has so many cells. -/
  | resize (width : Int)
  /-- It is time to move the spinner. -/
  | tick
  /-- It is time to move the bar. -/
  | frame
  /-- A key. -/
  | key
  /-- The key that ends the program. -/
  | interrupt
  deriving Repr, Inhabited

/-- What a phase is called on the board. -/
def phaseLabel : String → String
  | "load" => "loading"
  | "resolve" => "resolving"
  | name => name

/-- Sets the status of the last item with a path. -/
def setStatus (items : List Item) (path : String) (s : Status) : List Item :=
  match (List.range items.length).reverse.find? fun i => items[i]?.map Item.path = some path with
  | some i => items.modify i fun item => { item with status := s }
  | none => items

namespace Board

/-- The board of a run over files. -/
def ofFiles (title : String) (files : List String) (summary? : Option String) : Board :=
  { title, items := files.map fun path => { path }, summary? }

/-- What an event changes. -/
def apply (b : Board) (e : PhaseEvent) : Board :=
  if e.file = "" then (if e.ended then b else { b with phase := phaseLabel e.name })
  else { b with items := setStatus b.items e.file (.ofEvent e) }

/-- What a message changes, and whether something has to follow it: waiting for the next event
or tick, or the end of the program. -/
def update (b : Board) : Message → Board × Bool
  | .event e => (b.apply e, true)
  | .finished => ({ b with finished := true, final := b.summary?.getD b.final }, true)
  | .tick => if b.finished then (b, false) else ({ b with ticks := b.ticks + 1 }, true)
  | .resize w => (if 0 < w then { b with width := w, barWidth := w - 4 } else b, false)
  | .interrupt => (b, true)
  | .key | .frame => (b, false)

/-- How much of the work is done, from 0 to 1. -/
def fraction (b : Board) : String :=
  quotientText (b.items.foldr (fun i total => i.status.halves + total) 0) (2 * b.items.length)

end Board

/-! ## The view -/

/-- The pictures of the spinner, one after another. -/
def spinnerFrames : List String :=
  ["⣾ ", "⣽ ", "⣻ ", "⢿ ", "⡿ ", "⣟ ", "⣯ ", "⣷ "]

/-- Cuts a path to a number of cells; a number that is not positive is no limit. From four
cells on the cut is marked. -/
def shorten (s : String) (width : Int) : String :=
  if width ≤ 0 then s
  else textOf (truncate (bytesOf s) width (if width ≤ 3 then [] else bytesOf "..."))

/-- A text as a block: tabs take four cells, and shorter lines are filled up to the longest
one. -/
def block (s : String) : String :=
  let lines := (s.replace "\t" "    ").splitOn "\n"
  let cells (l : String) : Nat := terminalWidth (bytesOf l)
  let widest := (lines.map cells).foldl max 0
  "\n".intercalate (lines.map fun l => l ++ repeatText (widest - cells l) " ")

namespace Board

/-- The title line. -/
def header (b : Board) : String :=
  if b.finished then "done: " ++ b.title
  else spinnerFrames.getD (b.ticks % spinnerFrames.length) "" ++ " " ++ b.title
    ++ (if b.phase = "" then "" else " (" ++ b.phase ++ ")")

/-- The bar. It moves only with the pictures between two states, so it is empty until the run
is over. -/
def bar (b : Board) : String :=
  let cells := (b.barWidth - 5).toNat
  if b.finished then repeatText cells "█" ++ " 100%" else repeatText cells "░" ++ "   0%"

/-- The line of a file. -/
def itemLine (b : Board) (i : Item) : String :=
  "  " ++ padLeft 12 i.status.name ++ " " ++ shorten i.path (max (b.width - 16) 20) ++ "\n"

/-- The board as text. Without files there is only the summary. -/
def view (b : Board) : String :=
  if b.items.isEmpty then b.final
  else block b.header ++ "\n\n" ++ String.join (b.items.map b.itemLine) ++ "\n" ++ b.bar ++ "\n"
    ++ (if b.final = "" then "" else "\n" ++ b.final ++ "\n")

end Board

end Progress

end CallResolution
