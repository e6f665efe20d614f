import CallResolution.Trace.Ring

/-!
# Tracers

A tracer takes the events of interest at its level, keeps the newest ones in a ring, writes
them to a sink, or does both. A sink may refuse a write; the tracer then writes no more, and
says so when it is flushed.
-/

namespace CallResolution.Trace

open Text

/-! ## Sinks -/

/-- Why a sink takes nothing more. -/
inductive SinkFault where
  /-- It has had all the writes it takes. -/
  | full
  deriving DecidableEq, Repr, Inhabited

/-- What a fault says. -/
def SinkFault.message : SinkFault → String
  | .full => "sink full"

/-- What events are written to. -/
structure Sink where
  /-- How many writes are taken, 0 for any number. -/
  limit : Nat := 0
  /-- How many writes were taken. -/
  writes : Nat := 0
  /-- What was written. -/
  text : String := ""
  /-- How often it was flushed. -/
  flushed : Nat := 0
  /-- How often it was closed. -/
  closed : Nat := 0
  deriving Repr, Inhabited

/-- Writes a text. -/
def Sink.write (s : Sink) (text : String) : Except SinkFault Sink :=
  if 0 < s.limit && s.limit ≤ s.writes then .error .full
  else .ok { s with writes := s.writes + 1, text := s.text ++ text }

/-- Writes events one after another, up to the first that is refused. -/
def Sink.writeAll (s : Sink) (format : Format) : List Event → Option SinkFault × Sink
  | [] => (none, s)
  | e :: es =>
    match s.write (e.line format) with
    | .error f => (some f, s)
    | .ok s => s.writeAll format es

/-- Writes the events of a ring. -/
def Ring.dump (r : Ring) (s : Sink) (format : Format) : Option SinkFault × Sink :=
  s.writeAll format r.toList

/-! ## Streams -/

/-- A sink with the format of what is written to it. -/
structure Stream where
  /-- Where the events go. -/
  sink : Sink
  /-- How they are written. -/
  format : Format
  /-- The refusal of the sink, if there was one. -/
  fault? : Option SinkFault := none
  deriving Repr, Inhabited

namespace Stream

/-- Writes an event, unless an earlier one was refused. -/
def emit (s : Stream) (e : Event) : Stream :=
  if s.fault?.isSome then s
  else match s.sink.write (e.line s.format) with
    | .error f => { s with fault? := some f }
    | .ok sink => { s with sink }

/-- Flushes the sink, unless it refused a write. -/
def flush (s : Stream) : Option SinkFault × Stream :=
  match s.fault? with
  | some f => (some f, s)
  | none => (none, { s with sink := { s.sink with flushed := s.sink.flushed + 1 } })

/-- Flushes the sink and closes it in any case. -/
def close (s : Stream) : Option SinkFault × Stream :=
  let (f, s) := s.flush
  (f, { s with sink := { s.sink with closed := s.sink.closed + 1 } })

end Stream

/-! ## Tracers -/

/-- Where the events of interest go. Without a ring and a stream nothing is traced. -/
structure Tracer where
  /-- Which events are of interest. -/
  level : Level := .off
  /-- The ring, if there is one. -/
  ring? : Option Ring := none
  /-- The stream, if there is one. -/
  stream? : Option Stream := none
  deriving Repr, Inhabited

namespace Tracer

/-- A tracer with a ring. -/
def ofRing (level : Level) (capacity : Int) : Tracer :=
  { level, ring? := some (.ofCapacity capacity) }

/-- A tracer with a stream. -/
def ofStream (level : Level) (sink : Sink) (format : Format) : Tracer :=
  { level, stream? := some { sink, format } }

/-- A tracer with a ring and a stream. -/
def ofBoth (level : Level) (capacity : Int) (sink : Sink) (format : Format) : Tracer :=
  { level, ring? := some (.ofCapacity capacity), stream? := some { sink, format } }

/-- Whether anything is traced. -/
def isEnabled (t : Tracer) : Bool :=
  t.level.isEnabled

/-- Takes an event. -/
def emit (t : Tracer) (e : Event) : Tracer :=
  if e.passes t.level then
    { t with ring? := t.ring?.map (·.push e), stream? := t.stream?.map (·.emit e) }
  else t

/-- Takes events one after another. -/
def emitAll (t : Tracer) (es : List Event) : Tracer :=
  es.foldl emit t

/-- The events held in the ring. -/
def held (t : Tracer) : List Event :=
  (t.ring?.map Ring.toList).getD []

/-- Applies an operation of streams. -/
def onStream (t : Tracer) (op : Stream → Option SinkFault × Stream) : Option SinkFault × Tracer :=
  match t.stream? with
  | none => (none, t)
  | some s =>
    let (f, s) := op s
    (f, { t with stream? := some s })

/-- Flushes the stream. -/
def flush (t : Tracer) : Option SinkFault × Tracer :=
  t.onStream Stream.flush

/-- Closes the stream. -/
def close (t : Tracer) : Option SinkFault × Tracer :=
  t.onStream Stream.close

end Tracer

/-! ## Choosing a tracer -/

/-- How events are kept. -/
inductive StorageMode where
  /-- They are written at once. -/
  | stream
  /-- The newest ones are held. -/
  | ring
  /-- Both. -/
  | both
  deriving DecidableEq, Repr, Inhabited

namespace StorageMode

/-- The number of a mode. -/
def number : StorageMode → Nat
  | .stream => 1
  | .ring => 2
  | .both => 3

/-- The mode with a number. -/
def ofNumber? : Nat → Option StorageMode
  | 1 => some .stream
  | 2 => some .ring
  | 3 => some .both
  | _ => none

/-- Reads the name of a mode in any case. -/
def ofName? (s : String) : Option StorageMode :=
  match String.ofList (s.toList.map lowerForWord) with
  | "stream" => some .stream
  | "ring" => some .ring
  | "both" => some .both
  | _ => none

/-- What is said of a name that is no mode. -/
def fault (s : String) : String :=
  s!"invalid storage mode: {quote s} (expected: stream|ring|both)"

/-- What is said of a number that is no mode. -/
def numberFault (n : Nat) : String :=
  s!"unknown storage mode: {n}"

end StorageMode

/-- The format in which a file is written: the one asked for, or the one that its name
suggests. -/
def Format.forPath (f : Format) (path : String) : Format :=
  if f = .auto then (if path.endsWith ".ndjson" || path.endsWith ".jsonl" then .ndjson else .text) else f

/-- The tracer for a level and a mode. -/
def Tracer.ofMode (level : Level) (mode : StorageMode) (capacity : Int) (sink : Sink) (format : Format) : Tracer :=
  if level = .off then {}
  else match mode with
    | .stream => .ofStream level sink format
    | .ring => .ofRing level capacity
    | .both => .ofBoth level capacity sink format

/-! ## Spans -/

/-- How many spans and events were numbered. -/
structure Numbering where
  /-- The number of the last span. -/
  spans : Nat := 0
  /-- The number of the last event. -/
  events : Nat := 0
  deriving Repr, Inhabited

/-- A span that was begun. One that is not of interest has the number 0 and makes no events.
-/
structure OpenSpan where
  /-- Its number. -/
  id : Nat := 0
  /-- The span around it, 0 for none. -/
  parent : Nat := 0
  /-- How much it is about. -/
  scope : Scope := ⟨0⟩
  /-- What it is about. -/
  name : String := ""
  /-- Named values for its end. -/
  extra : List (String × String) := []
  deriving Repr, Inhabited

/-- Puts a named value in the place of the one with its name. -/
def putExtra (extra : List (String × String)) (key value : String) : List (String × String) :=
  extra.filter (·.1 ≠ key) ++ [(key, value)]

namespace OpenSpan

/-- An event of a span. -/
def event (s : OpenSpan) (kind : Kind) (seq : Nat) (detail : String) : Event :=
  { seq, kind, scope := s.scope, span := s.id, parent := s.parent, name := s.name, detail }

/-- Begins a span. -/
def begin_ (t : Tracer) (n : Numbering) (scope : Scope) (name : String) (parent : Nat) : OpenSpan × Tracer × Numbering :=
  if t.level.shouldEmit scope .begin_ then
    let s : OpenSpan := { id := n.spans + 1, parent, scope, name }
    (s, t.emit (s.event .begin_ (n.events + 1) ""), ⟨n.spans + 1, n.events + 1⟩)
  else ({}, t, n)

/-- Notes something that happens inside a span. -/
def point (s : OpenSpan) (t : Tracer) (n : Numbering) (name detail : String) : Tracer × Numbering :=
  if s.id = 0 then (t, n)
  else (t.emit { s.event .point (n.events + 1) detail with name, parent := s.id }, { n with events := n.events + 1 })

/-- Ends a span. -/
def end_ (s : OpenSpan) (t : Tracer) (n : Numbering) (detail : String) : Tracer × Numbering :=
  if s.id = 0 then (t, n)
  else (t.emit { s.event .end_ (n.events + 1) detail with extra := s.extra }, { n with events := n.events + 1 })

/-- Adds a named value to the end of a span. Ends that the ring holds with named values get it
too. -/
def note (s : OpenSpan) (t : Tracer) (key value : String) : OpenSpan × Tracer :=
  if s.id = 0 then (s, t)
  else
    let late (e : Event) : Event :=
      if e.span = s.id && e.kind = .end_ && !e.extra.isEmpty then { e with extra := putExtra e.extra key value } else e
    ({ s with extra := putExtra s.extra key value }, { t with ring? := t.ring?.map (·.amend late) })

end OpenSpan

end CallResolution.Trace
