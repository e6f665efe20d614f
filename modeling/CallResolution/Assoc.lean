/-!
# Association lists

Finite maps as lists of pairs. `put` replaces the value of a key in its place, or adds the
pair at the end, so the keys stay in the order of their first use.

Main statements: `lookup_put_self` and `lookup_put_of_ne` say what a look-up sees after `put`,
and `lookup_filter_of_ne` what it sees when the pairs of another key are taken out.
`nodup_keys_put` says that no key comes in twice, and `lookup_of_mem` that a look-up then sees
every pair.
-/

namespace CallResolution.Assoc

/-- Sets the value of a key. -/
def put {κ α : Type} [DecidableEq κ] (k : κ) (a : α) : List (κ × α) → List (κ × α)
  | [] => [(k, a)]
  | (k', a') :: r => if k = k' then (k, a) :: r else (k', a') :: put k a r

/-- The value of the key that was set. -/
@[simp] theorem lookup_put_self {κ α : Type} [DecidableEq κ] (k : κ) (a : α) (m : List (κ × α)) :
    (put k a m).lookup k = some a := by
  induction m with
  | nil => simp [put]
  | cons p r ih =>
    obtain ⟨k', a'⟩ := p
    by_cases h : k = k'
    · simp [put, h]
    · have h' : (k == k') = false := by simpa using h
      simp [put, h, List.lookup_cons, h', ih]

/-- The values of the other keys stay. -/
theorem lookup_put_of_ne {κ α : Type} [DecidableEq κ] {k j : κ} (h : j ≠ k) (a : α)
    (m : List (κ × α)) : (put k a m).lookup j = m.lookup j := by
  induction m with
  | nil =>
    have h' : (j == k) = false := by simpa using h
    simp [put, List.lookup_cons, h']
  | cons p r ih =>
    obtain ⟨k', a'⟩ := p
    by_cases hk : k = k'
    · have h' : (j == k') = false := by simpa [← hk] using h
      simp [put, hk, List.lookup_cons, h']
    · simp [put, hk, List.lookup_cons, ih]

/-- A key that is set stays in its place or comes last. -/
theorem keys_put {κ α : Type} [DecidableEq κ] (k : κ) (a : α) (m : List (κ × α)) :
    (put k a m).map (·.1) = if k ∈ m.map (·.1) then m.map (·.1) else m.map (·.1) ++ [k] := by
  induction m with
  | nil => simp [put]
  | cons p r ih =>
    obtain ⟨k', a'⟩ := p
    by_cases h : k = k'
    · simp [put, h]
    · by_cases hmem : k ∈ r.map (·.1)
      · simpa [put, h, hmem] using ih
      · simpa [put, h, hmem] using ih

/-- Keys stay distinct when one is set. -/
theorem nodup_keys_put {κ α : Type} [DecidableEq κ] {m : List (κ × α)} (h : (m.map (·.1)).Nodup) (k : κ) (a : α) :
    ((put k a m).map (·.1)).Nodup := by
  rw [keys_put]
  split
  · exact h
  · rename_i hnew
    refine List.nodup_append.mpr ⟨h, List.pairwise_singleton _ k, fun j hj i hi => ?_⟩
    rw [List.mem_singleton.mp hi]
    exact fun heq => hnew (heq ▸ hj)

/-- Among pairs with distinct keys, each is the one that a look-up of its key sees. -/
theorem lookup_of_mem {κ α : Type} [BEq κ] [LawfulBEq κ] {m : List (κ × α)} (h : (m.map (·.1)).Nodup) {k : κ} {a : α}
    (hmem : (k, a) ∈ m) : m.lookup k = some a := by
  induction m with
  | nil => cases hmem
  | cons p r ih =>
    obtain ⟨k', a'⟩ := p
    obtain ⟨hnew, hrest⟩ := List.nodup_cons.mp h
    rcases List.mem_cons.mp hmem with heq | hlater
    · cases heq
      simp
    · have hne : k ≠ k' := by
        rintro rfl
        exact hnew (List.mem_map.mpr ⟨_, hlater, rfl⟩)
      rw [List.lookup_cons, beq_false_of_ne hne, ih hrest hlater]

/-- A key is looked up as before when the pairs of another one were taken out. -/
theorem lookup_filter_of_ne {κ α : Type} [BEq κ] [LawfulBEq κ] [DecidableEq κ] {k j : κ} (h : j ≠ k) (m : List (κ × α)) :
    (m.filter (·.1 ≠ k)).lookup j = m.lookup j := by
  induction m with
  | nil => rfl
  | cons p m ih =>
    obtain ⟨i, a⟩ := p
    by_cases hi : i = k
    · subst hi
      rw [List.filter_cons_of_neg (by simp), ih, List.lookup_cons, beq_false_of_ne h]
    · rw [List.filter_cons_of_pos (by simpa using hi), List.lookup_cons, List.lookup_cons, ih]

end CallResolution.Assoc
