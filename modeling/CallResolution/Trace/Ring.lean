import CallResolution.Trace.Event

/-!
# Rings of events

A ring holds the newest events in a fixed number of slots. An event goes into the next free
slot while there is one, and takes the place of the oldest event after that.
-/

namespace CallResolution.Trace

/-- How many events a ring holds when nothing else is said. -/
def defaultRingCapacity : Nat := 4096

/-- The newest events of a trace. -/
structure Ring where
  /-- How many events are held. -/
  capacity : Nat
  /-- The slots that are in use. -/
  slots : Array Event := #[]
  /-- The slot of the next event. -/
  next : Nat := 0
  deriving Repr, Inhabited

namespace Ring

/-- An empty ring; a capacity that is not positive means the default. -/
def ofCapacity (requested : Int) : Ring :=
  { capacity := if 0 < requested then requested.toNat else defaultRingCapacity }

/-- Adds an event. -/
def push (r : Ring) (e : Event) : Ring :=
  { r with
    slots := if r.slots.size < r.capacity then r.slots.push e else r.slots.setIfInBounds r.next e
    next := (r.next + 1) % r.capacity }

/-- The events held, oldest first. -/
def toList (r : Ring) : List Event :=
  if r.slots.size < r.capacity then r.slots.toList
  else r.slots.toList.drop r.next ++ r.slots.toList.take r.next

/-- Changes the events held, each in its slot. -/
def amend (r : Ring) (f : Event → Event) : Ring :=
  { r with slots := r.slots.map f }

end Ring

end CallResolution.Trace
