import CallResolution.Trace.Tracer
import Mathlib.Data.List.DropRight

/-!
# The newest events

A ring goes round its slots: the event that was put in after `i` others lies in slot `i %
capacity`, until the event that comes a whole round later takes its place. So the slot that
comes next is the one of the oldest event once all slots are in use, and reading on from there
goes through the newest events in the order in which they came.

`Ring.Holds` says this of a ring and all events that were ever put into it. One event keeps it
(`Holds.push`), and so does any number of them (`Holds.pushAll`). A capacity that is not
positive is no capacity of a ring; the default is taken in its place.

Main statement: `held_newest`.
-/

namespace CallResolution.Trace

namespace Ring

/-- What a ring holds of the events that were put into it: each of the newest ones, in its
slot. Which slots are free and which come next follows from the number of events alone. -/
structure Holds (r : Ring) (es : List Event) : Prop where
  /-- There is a slot. -/
  pos : 0 < r.capacity
  /-- Slots are used one after another, until all of them are. -/
  size : r.slots.size = min es.length r.capacity
  /-- The next slot is the one of the event after the last. -/
  next : r.next = es.length % r.capacity
  /-- Each of the newest events is in its slot. -/
  slot : ∀ i < es.length, es.length ≤ i + r.capacity → r.slots[i % r.capacity]? = es[i]?

variable {r : Ring} {es : List Event}

/-- A new ring holds nothing. -/
theorem holds_nil {c : Nat} (hc : 0 < c) : Holds { capacity := c } [] where
  pos := hc
  size := by simp
  next := by simp
  slot i hi := absurd hi (Nat.not_lt_zero i)

/-- An event does not change the number of slots. -/
@[simp] theorem capacity_push (r : Ring) (e : Event) : (r.push e).capacity = r.capacity :=
  rfl

/-- While there are free slots, an event takes the first of them. -/
theorem slots_push_of_lt (h : r.slots.size < r.capacity) (e : Event) : (r.push e).slots = r.slots.push e :=
  if_pos h

/-- When all slots are in use, an event takes the place of the one in the next slot. -/
theorem slots_push_of_not_lt (h : ¬ r.slots.size < r.capacity) (e : Event) :
    (r.push e).slots = r.slots.setIfInBounds r.next e :=
  if_neg h

/-- Events that are less than a round apart have different slots. -/
theorem mod_ne_mod {i n c : Nat} (hlt : i < n) (hle : n < i + c) : i % c ≠ n % c := by
  intro heq
  have hdvd : c ∣ n - i := Nat.dvd_iff_mod_eq_zero.mpr (Nat.sub_mod_eq_zero_of_mod_eq heq.symm)
  exact absurd (Nat.le_of_dvd (by omega) hdvd) (by omega)

/-- An event that is put into a ring is held, and the oldest event is no longer when all slots
were in use. Slots of other events that are held are different ones. -/
theorem Holds.push (h : r.Holds es) (e : Event) : (r.push e).Holds (es ++ [e]) := by
  obtain ⟨hpos, hsize, hnext, hslot⟩ := h
  have hlength : (es ++ [e]).length = es.length + 1 := by simp
  refine ⟨hpos, ?_, ?_, fun i hi hround => ?_⟩
  · rw [hlength, capacity_push]
    by_cases hfree : r.slots.size < r.capacity
    · rw [slots_push_of_lt hfree, Array.size_push]
      omega
    · rw [slots_push_of_not_lt hfree, Array.size_setIfInBounds]
      omega
  · rw [hlength, capacity_push, ← Nat.mod_add_mod, ← hnext]
    rfl
  · rw [hlength] at hi hround
    rw [capacity_push] at hround ⊢
    by_cases hfree : r.slots.size < r.capacity
    · have hlen : r.slots.size = es.length := by omega
      have hi' : i % r.capacity = i := Nat.mod_eq_of_lt (by omega)
      rw [slots_push_of_lt hfree, hi']
      by_cases hlast : i = es.length
      · rw [hlast, ← hlen, Array.getElem?_push_size, hlen, List.getElem?_concat_length]
      · have hold := hslot i (by omega) (by omega)
        rw [hi'] at hold
        rw [Array.getElem?_push, if_neg (by omega), hold, List.getElem?_append_left (by omega)]
    · rw [slots_push_of_not_lt hfree]
      by_cases hlast : i = es.length
      · have hplace : r.next < r.slots.size := by
          rw [hnext]
          exact Nat.lt_of_lt_of_le (Nat.mod_lt _ hpos) (by omega)
        rw [hlast, ← hnext, Array.getElem?_setIfInBounds_self_of_lt hplace, List.getElem?_concat_length]
      · -- Less than a round has passed since the event came, so its slot is not the next one.
        have hother : r.next ≠ i % r.capacity := hnext ▸ (mod_ne_mod (by omega) (by omega)).symm
        rw [Array.getElem?_setIfInBounds_ne hother, hslot i (by omega) (by omega), List.getElem?_append_left (by omega)]

/-- Events that are put into a ring one after another are held, as far as they are among the
newest. By induction on the events. -/
theorem Holds.pushAll (h : r.Holds es) (new : List Event) : (new.foldl Ring.push r).Holds (es ++ new) := by
  induction new generalizing r es with
  | nil => simpa using h
  | cons e new ih => simpa using ih (h.push e)

/-- The capacity of a ring stays. -/
@[simp] theorem capacity_foldl_push (new : List Event) (r : Ring) : (new.foldl Ring.push r).capacity = r.capacity := by
  induction new generalizing r with
  | nil => rfl
  | cons e new ih => simp [ih]

/-- The events held are the newest, oldest first. -/
theorem Holds.toList (h : r.Holds es) : r.toList = es.rtake r.capacity := by
  obtain ⟨hpos, hsize, hnext, hslot⟩ := h
  have hplace : r.next < r.capacity := hnext ▸ Nat.mod_lt _ hpos
  unfold Ring.toList List.rtake
  by_cases hfree : r.slots.size < r.capacity
  · have hlen : r.slots.size = es.length := by omega
    rw [if_pos hfree, Nat.sub_eq_zero_of_le (by omega), List.drop_zero]
    refine List.ext_getElem? fun i => ?_
    by_cases hi : i < es.length
    · have hold := hslot i hi (by omega)
      rwa [Nat.mod_eq_of_lt (by omega), ← Array.getElem?_toList] at hold
    · rw [List.getElem?_eq_none (by simpa [hlen] using hi), List.getElem?_eq_none (by omega)]
  · have hfull : r.slots.toList.length = r.capacity := by
      rw [Array.length_toList]
      omega
    rw [if_neg hfree]
    refine List.ext_getElem? fun k => ?_
    by_cases hk : k < r.capacity
    · -- The `k`-th event from the oldest one on lies `k` slots behind the next one, all round.
      have hold := hslot (es.length - r.capacity + k) (by omega) (by omega)
      have hround : (es.length - r.capacity + k) % r.capacity = (r.next + k) % r.capacity := by
        rw [hnext, Nat.mod_add_mod, ← Nat.add_mod_right (es.length - r.capacity + k)]
        congr 1
        omega
      rw [List.getElem?_drop, ← hold, hround, ← Array.getElem?_toList, List.getElem?_append, List.length_drop, hfull]
      split
      · rw [List.getElem?_drop, Nat.mod_eq_of_lt (by omega)]
      · rw [List.getElem?_take_of_lt (by omega), Nat.mod_eq_sub_mod (by omega), Nat.mod_eq_of_lt (by omega)]
        congr 1
        omega
    · rw [List.getElem?_eq_none (by simp [hfull]; omega), List.getElem?_eq_none (by simp; omega)]

end Ring

namespace Tracer

/-- A tracer with a ring puts the events of interest into it, and nothing else. -/
theorem emitAll_ring (level : Level) (r : Ring) (es : List Event) :
    emitAll { level, ring? := some r } es = { level, ring? := some ((es.filter (·.passes level)).foldl Ring.push r) } := by
  induction es generalizing r with
  | nil => rfl
  | cons e es ih =>
    by_cases hpasses : e.passes level
    · simpa [emitAll, emit, hpasses] using ih (r.push e)
    · simpa [emitAll, emit, hpasses] using ih r

/-- The ring of a tracer has as many slots as were asked for when that is a positive number,
and the default number otherwise. After any events it holds those of interest that came last,
as many as there are slots or as there were, in the order in which they came. -/
theorem held_newest (level : Level) (requested : Int) (es : List Event) :
    let passed := es.filter (·.passes level)
    let slots := if 0 < requested then requested.toNat else defaultRingCapacity
    ((ofRing level requested).emitAll es).held = passed.rtake (min passed.length slots) := by
  intro passed slots
  have hslots : 0 < slots := by
    simp only [slots, defaultRingCapacity]
    split <;> omega
  have hheld := ((Ring.holds_nil hslots).pushAll passed).toList
  rw [List.nil_append, Ring.capacity_foldl_push] at hheld
  rw [ofRing, emitAll_ring, held]
  refine hheld.trans ?_
  dsimp only
  unfold List.rtake
  congr 1
  omega

/-- A ring for which no slot was asked holds an event nevertheless. -/
theorem held_without_slots :
    let e : Event := { kind := .point, scope := .site, name := "a" }
    let passed := [e].filter (·.passes .debug)
    ((ofRing .debug 0).emitAll [e]).held ≠ passed.rtake (min (passed.length : Int) 0).toNat := by
  decide

end Tracer

end CallResolution.Trace
