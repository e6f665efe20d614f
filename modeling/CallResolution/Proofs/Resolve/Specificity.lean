import CallResolution.Proofs.Members.Readings
import CallResolution.Proofs.Resolve.Competing
import CallResolution.Proofs.Types.Matching

/-!
# The most specific callables

The fold that keeps the most specific candidates goes through a list once, and what it keeps
depends on the order. Two things do not: that it keeps a single candidate, which is so when
and only when one of them beats all others, and that for each candidate it keeps it or one
that beats it.

Callables are compared by the types that they offer to arguments. Asked two by two, or all at
once, the comparison makes types under other numbers, which it does not depend on
(`Universe.Enlists`). So the fold keeps what it keeps when the callables are compared two by
two, and whether a single callable is selected for a call does not depend on the order in
which they are listed.

Main statements: `mostSpecific_eq_singleton_iff`, `mostSpecificOf_eq` and `selectMethod_perm`.
-/

namespace CallResolution

/-! ## Folds over candidates

These statements are about lists and a comparison. That the comparison is transitive among the
candidates is asked where it is needed, since candidates with broken signatures are compared
otherwise than others. A candidate that beats every other one is then enough for the fold to
keep a single one, wherever it stands in the list.
-/

section Folds

variable {α β : Type} {beats : α → α → Bool} {best cs : List α} {c d x : α}

/-- What is kept stands in the order of the candidates. -/
theorem mostSpecific_sublist (beats : α → α → Bool) (cs : List α) : (mostSpecific beats cs).Sublist cs := by
  have step (best : List α) (c : α) : (addSpecific beats best c).Sublist (best ++ [c]) := by
    unfold addSpecific
    split
    · exact List.sublist_append_right best [c]
    · split
      · exact List.sublist_append_left best [c]
      · exact .refl _
  have run (best : List α) : (cs.foldl (addSpecific beats) best).Sublist (best ++ cs) := by
    induction cs generalizing best with
    | nil => simp
    | cons c cs ih => simpa using (ih _).trans ((step best c).append_right cs)
  exact run []

/-- No candidate that is kept beats one that is kept behind it. -/
theorem mostSpecific_pairwise (beats : α → α → Bool) (cs : List α) :
    (mostSpecific beats cs).Pairwise fun a b => ¬ beats a b := by
  have step {best : List α} (h : best.Pairwise fun a b => ¬ beats a b) (c : α) :
      (addSpecific beats best c).Pairwise fun a b => ¬ beats a b := by
    unfold addSpecific
    split
    · exact List.pairwise_singleton _ _
    · split
      · exact h
      · rename_i hany
        refine List.pairwise_append.mpr ⟨h, List.pairwise_singleton _ _, fun a ha b hb => ?_⟩
        rw [List.mem_singleton.mp hb]
        exact fun hac => hany (List.any_eq_true.mpr ⟨a, ha, hac⟩)
  have run {best : List α} (h : best.Pairwise fun a b => ¬ beats a b) :
      (cs.foldl (addSpecific beats) best).Pairwise fun a b => ¬ beats a b := by
    induction cs generalizing best with
    | nil => exact h
    | cons c cs ih => exact ih (step h c)
  exact run .nil

/-- What is kept of the images of candidates is the images of what is kept. -/
theorem map_mostSpecific {beats' : β → β → Bool} (f : α → β) (h : ∀ a ∈ cs, ∀ b ∈ cs, beats a b = beats' (f a) (f b)) :
    (mostSpecific beats cs).map f = mostSpecific beats' (cs.map f) := by
  have step {best : List α} {c : α} (hbest : ∀ a ∈ best, beats c a = beats' (f c) (f a) ∧ beats a c = beats' (f a) (f c)) :
      (addSpecific beats best c).map f = addSpecific beats' (best.map f) (f c) := by
    have hall : best.all (beats c ·) = (best.map f).all (beats' (f c) ·) := by
      rw [List.all_map, Bool.eq_iff_iff, List.all_eq_true, List.all_eq_true]
      exact forall₂_congr fun a ha => by rw [Function.comp, (hbest a ha).1]
    have hany : best.any (beats · c) = (best.map f).any (beats' · (f c)) := by
      rw [List.any_map, Bool.eq_iff_iff, List.any_eq_true, List.any_eq_true]
      exact exists_congr fun a => and_congr_right fun ha => by rw [Function.comp, (hbest a ha).2]
    unfold addSpecific
    rw [hall, hany]
    split
    · rfl
    · split
      · rfl
      · exact List.map_append
  have run (rest best : List α) (hrest : ∀ a ∈ rest, a ∈ cs) (hbest : ∀ a ∈ best, a ∈ cs) :
      (rest.foldl (addSpecific beats) best).map f = (rest.map f).foldl (addSpecific beats') (best.map f) := by
    induction rest generalizing best with
    | nil => rfl
    | cons c rest ih =>
      have hc := hrest c (by simp)
      have hadd : ∀ a ∈ addSpecific beats best c, a ∈ cs := by
        intro a ha
        rcases mem_addSpecific ha with ha | rfl
        · exact hbest a ha
        · exact hc
      rw [List.foldl_cons, ih _ (fun a ha => hrest a (by simp [ha])) hadd, step, List.map_cons, List.foldl_cons]
      exact fun a ha => ⟨h c hc a (hbest a ha), h a (hbest a ha) c hc⟩
  exact run cs [] (fun _ => id) (by simp)

/-- A candidate beats all others of a list; a second one of the same kind is another one. So a
candidate that is listed twice has to beat itself. -/
def BeatsOthers (beats : α → α → Bool) (cs : List α) (x : α) : Prop :=
  ∃ others, (x :: others).Perm cs ∧ ∀ y ∈ others, beats x y

/-- Which candidate beats all others does not depend on their order. -/
theorem BeatsOthers.perm (h : BeatsOthers beats cs x) {cs' : List α} (hperm : cs.Perm cs') : BeatsOthers beats cs' x := by
  obtain ⟨others, hothers, hbeats⟩ := h
  exact ⟨others, hothers.trans hperm, hbeats⟩

/-- What beats all others after a candidate was added to the best ones beats it and the best
ones as well. -/
theorem BeatsOthers.of_addSpecific (trans : TransOn beats (best ++ c :: cs))
    (h : BeatsOthers beats (addSpecific beats best c ++ cs) x) : BeatsOthers beats (best ++ c :: cs) x := by
  obtain ⟨others, hperm, hbeats⟩ := h
  have beats_of_mem {a b : α} (ha : a ∈ x :: others) (hx : x ∈ best ++ c :: cs) (ha' : a ∈ best ++ c :: cs)
      (hb : b ∈ best ++ c :: cs) (hab : beats a b) : beats x b := by
    rcases List.mem_cons.mp ha with rfl | ha
    · exact hab
    · exact trans x hx a ha' b hb (hbeats a ha) hab
  have hx : x ∈ best ++ c :: cs := by
    have hmem : x ∈ addSpecific beats best c ++ cs := hperm.mem_iff.mp (by simp)
    rcases List.mem_append.mp hmem with hmem | hmem
    · rcases mem_addSpecific hmem with hmem | rfl <;> simp [*]
    · simp [hmem]
  unfold addSpecific at hperm
  split at hperm
  · rename_i hall
    refine ⟨best ++ others, List.perm_middle.symm.trans (hperm.append_left best), fun y hy => ?_⟩
    rcases List.mem_append.mp hy with hy | hy
    · exact beats_of_mem (hperm.mem_iff.mpr (by simp)) hx (by simp) (by simp [hy]) (List.all_eq_true.mp hall y hy)
    · exact hbeats y hy
  · split at hperm
    · rename_i hany
      obtain ⟨a, ha, hac⟩ := List.any_eq_true.mp hany
      refine ⟨c :: others, (List.Perm.swap c x others).trans ((hperm.cons c).trans List.perm_middle.symm), fun y hy => ?_⟩
      rcases List.mem_cons.mp hy with rfl | hy
      · exact beats_of_mem (hperm.mem_iff.mpr (by simp [ha])) hx (by simp [ha]) (by simp) hac
      · exact hbeats y hy
    · exact ⟨others, by simpa using hperm, hbeats⟩

/-- A candidate that is kept alone beats all others. -/
theorem beatsOthers_of_mostSpecific (trans : TransOn beats cs) (h : mostSpecific beats cs = [x]) : BeatsOthers beats cs x := by
  have run (cs best : List α) (trans : TransOn beats (best ++ cs)) (h : cs.foldl (addSpecific beats) best = [x]) :
      BeatsOthers beats (best ++ cs) x := by
    induction cs generalizing best with
    | nil => exact ⟨[], by simp [← h], by simp⟩
    | cons c cs ih =>
      refine .of_addSpecific trans (ih _ (trans.mono fun a ha => ?_) h)
      rcases List.mem_append.mp ha with ha | ha
      · rcases mem_addSpecific ha with ha | rfl <;> simp [*]
      · simp [ha]
  exact run cs [] trans h

/-- A candidate that beats all that follow leaves a single one at the end: itself, or one that
it was in a tie with. -/
theorem exists_foldl_addSpecific (trans : TransOn beats (x :: cs)) (h : ∀ y ∈ cs, beats x y) :
    ∃ z, cs.foldl (addSpecific beats) [x] = [z] := by
  induction cs generalizing x with
  | nil => exact ⟨x, rfl⟩
  | cons c cs ih =>
    have hrest : ∀ y ∈ cs, beats x y := fun y hy => h y (by simp [hy])
    have hxc := h c (by simp)
    rw [List.foldl_cons]
    by_cases hcx : beats c x
    · have hadd : addSpecific beats [x] c = [c] := by simp [addSpecific, hcx]
      rw [hadd]
      refine ih (trans.mono fun a ha => by simp [ha]) fun y hy => ?_
      exact trans c (by simp) x (by simp) y (by simp [hy]) hcx (hrest y hy)
    · have hadd : addSpecific beats [x] c = [x] := by simp [addSpecific, hcx, hxc]
      rw [hadd]
      exact ih (trans.mono fun a ha => by rcases List.mem_cons.mp ha with rfl | ha <;> simp [*]) hrest

/-- A single candidate is kept when one of them beats all others. -/
theorem BeatsOthers.exists_mostSpecific (trans : TransOn beats cs) (h : BeatsOthers beats cs x) :
    ∃ z, mostSpecific beats cs = [z] := by
  obtain ⟨others, hperm, hbeats⟩ := h
  obtain ⟨before, after, rfl⟩ := List.append_of_mem (hperm.mem_iff.mp (List.mem_cons_self : x ∈ x :: others))
  have hothers : ∀ y ∈ before ++ after, beats x y := fun y hy =>
    hbeats y (((hperm.trans List.perm_middle).cons_inv).mem_iff.mpr hy)
  have hall : (mostSpecific beats before).all (beats x ·) :=
    List.all_eq_true.mpr fun y hy => hothers y (by simp [mem_of_mem_mostSpecific hy])
  have hadd : addSpecific beats (mostSpecific beats before) x = [x] := by rw [addSpecific, if_pos hall]
  unfold mostSpecific at hadd ⊢
  rw [List.foldl_append, List.foldl_cons, hadd]
  exact exists_foldl_addSpecific (trans.mono fun a ha => by simp [ha]) fun y hy => hothers y (by simp [hy])

/-- The candidates that no other one beats without being beaten in turn, and of several that
beat each other the first one. This is what one might expect the fold to keep; it keeps others
too. -/
def firstBest (beats : α → α → Bool) (cs : List α) : List α :=
  (cs.zipIdx.filter fun (c, i) =>
    cs.all (fun d => !beats d c || beats c d) && (cs.take i).all fun d => !(beats d c && beats c d)).map (·.1)

/-- A single candidate is kept when and only when one of them beats all others. Neither side
depends on the order of the candidates. -/
theorem mostSpecific_eq_singleton_iff (trans : TransOn beats cs) :
    (∃ x, mostSpecific beats cs = [x]) ↔ ∃ x, BeatsOthers beats cs x :=
  ⟨fun ⟨x, h⟩ => ⟨x, beatsOthers_of_mostSpecific trans h⟩, fun ⟨_, h⟩ => h.exists_mostSpecific trans⟩

/-- Whether a single candidate is kept does not depend on their order. -/
theorem mostSpecific_single_perm (trans : TransOn beats cs) {cs' : List α} (hperm : cs.Perm cs') :
    (∃ x, mostSpecific beats cs = [x]) ↔ ∃ x, mostSpecific beats cs' = [x] := by
  have trans' : TransOn beats cs' := trans.mono fun a ha => hperm.mem_iff.mpr ha
  rw [mostSpecific_eq_singleton_iff trans, mostSpecific_eq_singleton_iff trans']
  exact exists_congr fun x => ⟨fun h => h.perm hperm, fun h => h.perm hperm.symm⟩

end Folds

/-! ## Callables as candidates

Making a candidate makes types. So the candidates of two comparisons are compared in different
universes, and what decides is that both offer matching parameters: the same ones up to the
numbers that arrays and instances got.
-/

open TypeStore

namespace Formals.Matches

variable {s s₁ s₂ : TypeStore} {f f' g g' : Formals}

/-- Matching parameters are compared alike. -/
theorem moreSpecific (hf : Fork s s₁ s₂) (h : f.Matches s s₁ s₂ f') (h' : g.Matches s s₁ s₂ g') (argc : Nat) :
    f.moreSpecific s₁ g argc = f'.moreSpecific s₂ g' argc := by
  unfold Formals.moreSpecific
  congr 1
  funext k _
  have hp := h.paramAt? hf k
  have hq := h'.paramAt? hf k
  generalize f.paramAt? k = p, f'.paramAt? k = p', g.paramAt? k = q, g'.paramAt? k = q' at hp hq
  cases hp with
  | none => rfl
  | some hp =>
    cases hq with
    | none => rfl
    | some hq => exact hp.subtypeConverts hf hq

end Formals.Matches

namespace Universe

variable {u u₁ u₂ : Universe} {typeArgs : List TypeId} {ids ids' : List MethodId} {cs cs' : List Candidate}

/-- Signatures that were looked at are left alone. -/
theorem withSignature_of_processed (h : ∀ id ∈ ids, u.Processed id) : (withSignature ids u).2 = u := by
  induction ids with
  | nil => rfl
  | cons id ids ih =>
    obtain ⟨m, hm, hpending⟩ := h id (by simp)
    show (withSignature ids (signature id u).2).2 = u
    rw [signature_of_not_isPending hm hpending]
    exact ih fun id' hid' => h id' (by simp [hid'])

/-- Candidates that were made for callables of a universe, with the universe that this led to.
Two of these for the same callables may have parameters under other numbers. -/
structure Enlists (u : Universe) (typeArgs : List TypeId) (ids : List MethodId) (cs : List Candidate) (u₁ : Universe) : Prop where
  /-- Only types were made. -/
  world : u₁ = { u with types := u₁.types }
  /-- The universe is well formed. -/
  sound : u₁.WellFormed
  /-- The types are extended. -/
  extends_ : u.types.Extends u₁.types
  /-- The candidates stand for the callables. -/
  callables : cs.map (·.method) = ids
  /-- They offer what the callables offer. -/
  offers : ∀ c ∈ cs, u₁.OffersIn typeArgs u₁.types c

/-- Candidates are made for any callables. -/
theorem candidates_enlists (hu : u.WellFormed) (ht : ∀ t ∈ typeArgs, u.types.Knows t) (ids : List MethodId) :
    u.Enlists typeArgs ids (candidates typeArgs ids u).1 (candidates typeArgs ids u).2 := by
  obtain ⟨hl, hids, hoffers, hworld⟩ := candidates_works ht ids hu
  exact ⟨hworld, hl.1 hu, hl.2.types, hids, hoffers⟩

namespace Enlists

/-- Callables are what they were. -/
theorem method (h : u.Enlists typeArgs ids cs u₁) (id : MethodId) : u₁.method id = u.method id := by
  rw [h.world]
  rfl

/-- The types go on in two ways. -/
theorem fork (hu : u.WellFormed) (h : u.Enlists typeArgs ids cs u₁) {typeArgs' : List TypeId}
    (h' : u.Enlists typeArgs' ids' cs' u₂) : Fork u.types u₁.types u₂.types :=
  ⟨hu.types, h.sound.types, h'.sound.types, h.extends_, h'.extends_⟩

/-- A candidate offers what its callable offers. -/
theorem formals (h : u.Enlists typeArgs ids cs u₁) {c : Candidate} (hc : c ∈ cs) :
    (u.method c.method).formals typeArgs u₁.types = (c.formals, u₁.types) ∧
      (u.method c.method).declaredFormals u₁.types = (c.declared, u₁.types) := by
  have hoffers := h.offers c hc
  rw [← h.method]
  exact ⟨hoffers.formals, hoffers.declared⟩

/-- The candidates of a callable offer matching parameters. -/
theorem matching (hu : u.WellFormed) (ht : ∀ t ∈ typeArgs, u.types.Knows t) (h : u.Enlists typeArgs ids cs u₁)
    (h' : u.Enlists typeArgs ids' cs' u₂) {c c' : Candidate} (hc : c ∈ cs) (hc' : c' ∈ cs') (hid : c.method = c'.method) :
    c.formals.Matches u.types u₁.types u₂.types c'.formals :=
  formals_matches (hu.method _).params ht (h.fork hu h') (h.formals hc).1 (hid ▸ (h'.formals hc').1)

/-- The candidates of a callable have been declared with matching parameters. -/
theorem matching_declared (hu : u.WellFormed) (h : u.Enlists typeArgs ids cs u₁) {typeArgs' : List TypeId}
    (h' : u.Enlists typeArgs' ids' cs' u₂) {c c' : Candidate} (hc : c ∈ cs) (hc' : c' ∈ cs') (hid : c.method = c'.method) :
    c.declared.Matches u.types u₁.types u₂.types c'.declared :=
  formals_matches (hu.method _).params (List.forall_mem_nil _) (h.fork hu h') (h.formals hc).2 (hid ▸ (h'.formals hc').2)

/-- Which of two candidates beats the other one depends on their callables only. -/
theorem beats (hu : u.WellFormed) (h : u.Enlists typeArgs ids cs u₁) {typeArgs' : List TypeId}
    (h' : u.Enlists typeArgs' ids' cs' u₂) {c c' d d' : Candidate} (hc : c ∈ cs) (hc' : c' ∈ cs') (hid : c.method = c'.method)
    (hd : d ∈ cs) (hd' : d' ∈ cs') (hid' : d.method = d'.method) (argc : Nat) :
    c.beats u₁.types argc d = c'.beats u₂.types argc d' :=
  (h.matching_declared hu h' hc hc' hid).moreSpecific (h.fork hu h') (h.matching_declared hu h' hd hd' hid') argc

/-- The same holds with regard to broken signatures. -/
theorem candidateBeats (hu : u.WellFormed) (h : u.Enlists typeArgs ids cs u₁) {typeArgs' : List TypeId}
    (h' : u.Enlists typeArgs' ids' cs' u₂) {c c' d d' : Candidate} (hc : c ∈ cs) (hc' : c' ∈ cs') (hid : c.method = c'.method)
    (hd : d ∈ cs) (hd' : d' ∈ cs') (hid' : d.method = d'.method) (argc : Nat) :
    u₁.candidateBeats argc c d = u₂.candidateBeats argc c' d' := by
  unfold Universe.candidateBeats
  rw [h.beats hu h' hc hc' hid hd hd' hid', h.method, h.method, h'.method, h'.method, hid, hid']

end Enlists

/-! ## The most specific callables

The fold over candidates, told of callables.
-/

/-- Callables with processed signatures are compared as their candidates are. -/
theorem Enlists.isMoreSpecific (hu : u.WellFormed) (h : u.Enlists typeArgs ids cs u₁) {a b : Candidate} (ha : a ∈ cs) (hb : b ∈ cs)
    (hpa : u.Processed a.method) (hpb : u.Processed b.method) (argc : Nat) :
    (isMoreSpecific a.method b.method argc u).1 = u₁.candidateBeats argc a b := by
  have hsig : (withSignature [a.method, b.method] u).2 = u := withSignature_of_processed (by simp [hpa, hpb])
  have htwo := candidates_enlists hu (List.forall_mem_nil _) [a.method, b.method]
  unfold Universe.isMoreSpecific
  simp only [bind, StateT.bind]
  generalize withSignature [a.method, b.method] u = processed at hsig
  obtain ⟨done, u'⟩ := processed
  obtain rfl : u' = u := hsig
  dsimp only
  generalize candidates [] [a.method, b.method] u' = made at htwo
  obtain ⟨two, u₂⟩ := made
  obtain ⟨ca, cb, rfl⟩ : ∃ ca cb, two = [ca, cb] := by
    have hlength := congrArg List.length htwo.callables
    rw [List.length_map] at hlength
    exact List.length_eq_two.mp hlength
  have hmethods := htwo.callables
  simp only [List.map_cons, List.map_nil, List.cons.injEq, and_true] at hmethods
  exact htwo.candidateBeats hu h (by simp) ha hmethods.1 (by simp) hb hmethods.2 argc

/-- What is kept of some callables with processed signatures is what the fold keeps when they
are compared two by two. Compared all at once the candidates are made in one store, and two by
two in a store of their own each time. -/
theorem mostSpecificOf_eq (hu : u.WellFormed) (h : ∀ id ∈ ids, u.Processed id) (argc : Nat) :
    (mostSpecificOf ids argc u).1 = mostSpecific (fun a b => (isMoreSpecific a b argc u).1) ids := by
  have hsig : (withSignature (comparisonOrder ids) u).2 = u := by
    refine withSignature_of_processed fun id hid => h id ?_
    match ids, hid with
    | a :: b :: rest, hid => simpa [comparisonOrder, or_left_comm] using hid
  have hrun : (mostSpecificOf ids argc u).1 =
      (mostSpecific ((candidates [] ids u).2.candidateBeats argc) (candidates [] ids u).1).map (·.method) := by
    show ((do
      let cs ← candidates [] ids
      return (mostSpecific ((← get).candidateBeats argc) cs).map (·.method) : UniverseM (List MethodId))
        (withSignature (comparisonOrder ids) u).2).1 = _
    rw [hsig]
    rfl
  have henlists := candidates_enlists hu (List.forall_mem_nil _) ids
  rw [hrun]
  generalize (candidates [] ids u).1 = cs, (candidates [] ids u).2 = u₁ at henlists
  obtain rfl := henlists.callables
  have hmem {c : Candidate} (hc : c ∈ cs) : u.Processed c.method := h _ (List.mem_map_of_mem hc)
  have hbeats : ∀ a ∈ cs, ∀ b ∈ cs, u₁.candidateBeats argc a b = (isMoreSpecific a.method b.method argc u).1 :=
    fun a ha b hb => (henlists.isMoreSpecific hu ha hb (hmem ha) (hmem hb) argc).symm
  refine map_mostSpecific Candidate.method ?_
  exact hbeats

/-- Among callables with processed signatures, what is more specific than a callable that is
more specific than a third one is more specific than that one, too. -/
theorem transOn_isMoreSpecific (hu : u.WellFormed) (h : ∀ id ∈ ids, u.Processed id) (argc : Nat) :
    TransOn (fun a b => (isMoreSpecific a b argc u).1) ids := by
  have henlists := candidates_enlists hu (List.forall_mem_nil _) ids
  generalize (candidates [] ids u).1 = cs, (candidates [] ids u).2 = u₁ at henlists
  obtain rfl := henlists.callables
  have compared {a b : Candidate} (ha : a ∈ cs) (hb : b ∈ cs) := henlists.isMoreSpecific hu ha hb
    (h _ (List.mem_map_of_mem ha)) (h _ (List.mem_map_of_mem hb)) argc
  intro x hx y hy z hz hxy hyz
  obtain ⟨a, ha, rfl⟩ := List.mem_map.mp hx
  obtain ⟨b, hb, rfl⟩ := List.mem_map.mp hy
  obtain ⟨c, hc, rfl⟩ := List.mem_map.mp hz
  simp only [compared ha hb, compared hb hc, compared ha hc, Universe.candidateBeats, Bool.and_eq_true] at hxy hyz ⊢
  exact ⟨⟨hxy.1.1, hyz.1.2⟩, Candidate.beats_trans henlists.sound.types hxy.2 hyz.2⟩

end Universe

/-! ## What a less specific callable accepts

Being more specific is a statement about parameters. It passes what arguments convert to from
one callable to the other as long as both have exact arity; with variable arity the number of
arguments decides which parameters are compared.
-/

/-- A callable of exact arity accepts what a more specific one accepts, when conversions go on
along the parameters of that. -/
theorem Formals.fixedArity_of_moreSpecific {s : TypeStore} {f g : Formals} {c : TypeId → TypeId → Bool} {args : List TypeId}
    (trans : ∀ a, ∀ p ∈ f.params, ∀ q, c a p → s.subtypeConverts p q → c a q) (hf : f.isVariadic = false) (hg : g.isVariadic = false)
    (hmore : f.moreSpecific s g args.length) (hlength : g.params.length = args.length) (happ : (f.fixedArity c args).isSome) :
    g.fixedArity c args = some false := by
  have hargs : List.Forall₂ (fun a p => c a p = true) args f.params := by
    rw [← TypeStore.allConvert_iff]
    simpa [Formals.fixedArity, hf] using happ
  have hparams : ∀ (k : Nat) (hp : k < f.params.length) (hq : k < g.params.length),
      s.subtypeConverts f.params[k] g.params[k] := by
    intro k hp hq
    unfold Formals.moreSpecific at hmore
    simp only [Nat.all_eq_finRange_all, List.all_eq_true, List.mem_finRange, forall_const] at hmore
    simpa [Formals.paramAt?, hf, hg, hp, hq] using hmore ⟨k, hlength ▸ hq⟩
  have hall : TypeStore.allConvert c args g.params := by
    rw [TypeStore.allConvert_iff]
    refine List.forall₂_of_length_eq_of_get hlength.symm fun k hk hq => ?_
    have hp : k < f.params.length := hargs.length_eq ▸ hk
    exact trans _ _ (List.getElem_mem hp) _ (hargs.get hk hp) (hparams k hp hq)
  simp [Formals.fixedArity, hg, hall]

namespace Universe

variable {u : Universe}

/-- The parameters of a callable of exact arity. -/
def fixedFormals (u : Universe) (id : MethodId) : Formals :=
  { params := (u.method id).params }

/-- A callable of exact arity is a candidate without further ado. -/
theorem declaredFormals_of_fixed {id : MethodId} (h : (u.method id).flags.isVariadic = false) (s : TypeStore) :
    (u.method id).declaredFormals s = (u.fixedFormals id, s) := by
  unfold Method.declaredFormals Formals.ofParams
  rw [h]
  rfl

/-- Callables of exact arity compete without further ado. -/
theorem enlists_of_fixed (hu : u.WellFormed) {ids : List MethodId} (h : ∀ id ∈ ids, (u.method id).flags.isVariadic = false) :
    u.Enlists [] ids (ids.map fun id => ⟨id, u.fixedFormals id, u.fixedFormals id⟩) u where
  world := rfl
  sound := hu
  extends_ := .refl _
  callables := by rw [List.map_map]; exact List.map_id ids
  offers c hc := by
    obtain ⟨id, hid, rfl⟩ := List.mem_map.mp hc
    have hdeclared := declaredFormals_of_fixed (h id hid) u.types
    exact ⟨hdeclared, hdeclared, ⟨(hu.method id).params, hu.types.knows_none⟩⟩

/-- What a callable of exact arity with a processed signature does with arguments. -/
theorem isApplicable_of_fixed {id : MethodId} (hr : (u.method id).isResolved) (h : (u.method id).flags.isVariadic = false)
    (args : List TypeId) (ph : Phase) :
    (isApplicable id args ph u).1 = (u.fixedFormals id).applicable u.types args ph := by
  unfold isApplicable
  simp only [bind, StateT.bind, signature_of_isResolved hr, if_true]
  show (((u.method id).declaredFormals u.types).1.applicable ((u.method id).declaredFormals u.types).2 args ph) = _
  rw [declaredFormals_of_fixed h]

/-- In the phases of exact arity a callable accepts the arguments that a more specific one
accepts, if there are as many as it has parameters. -/
theorem isApplicable_of_isMoreSpecific (hu : u.WellFormed) (hg : u.Genuine) {a b : MethodId} (ha : u.Processed a)
    (hb : u.Processed b) (hfixed : ∀ id ∈ [a, b], (u.method id).flags.isVariadic = false) {args : List TypeId}
    (hlength : (u.method b).params.length = args.length) (hmore : (isMoreSpecific a b args.length u).1) {ph : Phase}
    (hph : ph = .strict ∨ ph = .loose) (happ : (isApplicable a args ph u).1.isSome) :
    (isApplicable b args ph u).1 = some false := by
  rw [(enlists_of_fixed hu hfixed).isMoreSpecific hu (a := ⟨a, u.fixedFormals a, u.fixedFormals a⟩)
    (b := ⟨b, u.fixedFormals b, u.fixedFormals b⟩) (by simp) (by simp) ha hb] at hmore
  obtain ⟨⟨hra, hrb⟩, hbeats⟩ := by simpa only [candidateBeats, Bool.and_eq_true] using hmore
  rw [isApplicable_of_fixed hra (hfixed a (by simp))] at happ
  rw [isApplicable_of_fixed hrb (hfixed b (by simp))]
  have hgood : ∀ p ∈ (u.fixedFormals a).params, ¬ u.types.isBad p := fun p hp => (hg.method a p hp).2
  rcases hph with rfl | rfl
  · exact Formals.fixedArity_of_moreSpecific (fun _ _ _ _ => hu.types.subtypeConverts_trans) rfl rfl hbeats hlength happ
  · exact Formals.fixedArity_of_moreSpecific (fun _ p hp _ => hu.types.invocationConverts_trans (hgood p hp)) rfl rfl hbeats
      hlength happ

end Universe

/-! ## Selections from callables in another order

A permutation of the overloads makes the types of their parameters in another order and under
other numbers. `exchange` goes back to candidates of the first order, for which the verdict of
the fold is known.
-/

/-- What a selection says without regard to which callables were selected: the phase, and
whether one was selected alone. It is all of a selection that does not depend on the order of
the callables. -/
def Selection.verdict (sel : Selection) : Phase × Bool :=
  (sel.phase, sel.others.isEmpty)

/-- A phase selects something when and only when another selection does, and a single callable
when and only when that does. -/
theorem verdict_selectIn {s s' : TypeStore} {cs cs' : List Candidate} {args : List TypeId} {ph : Phase}
    (hnil : mostSpecific (Candidate.beats s args.length) (cs.filter (·.applies s args ph)) = [] ↔
      mostSpecific (Candidate.beats s' args.length) (cs'.filter (·.applies s' args ph)) = [])
    (hsingle : (∃ c, mostSpecific (Candidate.beats s args.length) (cs.filter (·.applies s args ph)) = [c]) ↔
      ∃ c, mostSpecific (Candidate.beats s' args.length) (cs'.filter (·.applies s' args ph)) = [c]) :
    (selectIn s cs args ph).map (·.verdict) = (selectIn s' cs' args ph).map (·.verdict) := by
  unfold selectIn
  generalize mostSpecific (Candidate.beats s args.length) _ = l, mostSpecific (Candidate.beats s' args.length) _ = l' at hnil hsingle
  rcases l with _ | ⟨c, _ | ⟨d, rest⟩⟩ <;> rcases l' with _ | ⟨c', _ | ⟨d', rest'⟩⟩ <;> simp_all [Selection.verdict]

namespace Universe.Enlists

variable {u u₁ u₂ : Universe} {typeArgs args : List TypeId} {ids ids' : List MethodId} {cs cs' : List Candidate}

/-- A candidate is made for its callable once more. -/
theorem candidate (h : u.Enlists typeArgs ids cs u₁) {c : Candidate} (hc : c ∈ cs) :
    u.candidate typeArgs c.method u₁.types = (c, u₁.types) := by
  obtain ⟨hformals, hdeclared⟩ := h.formals hc
  unfold Universe.candidate
  simp only [bind, StateT.bind, hformals, hdeclared]
  rfl

/-- Candidates for the same callables in another order are other candidates for the first
ones, in that order. -/
theorem exchange (h : u.Enlists typeArgs ids cs u₁) (h' : u.Enlists typeArgs ids' cs' u₂) (hperm : ids.Perm ids') :
    ∃ f : Candidate → Candidate, (cs.map f).Perm cs' ∧ ∀ c ∈ cs, f c ∈ cs' ∧ c.method = (f c).method := by
  have hself {c : Candidate} (hc : c ∈ cs') : (u.candidate typeArgs c.method u₂.types).1 = c :=
    congrArg Prod.fst (h'.candidate hc)
  have hmade : ids'.map (fun id => (u.candidate typeArgs id u₂.types).1) = cs' := by
    rw [← h'.callables, List.map_map]
    exact (List.map_congr_left fun c hc => hself hc).trans (List.map_id cs')
  refine ⟨fun c => (u.candidate typeArgs c.method u₂.types).1, ?_, fun c hc => ?_⟩
  · have hmap := (hperm.map fun id => (u.candidate typeArgs id u₂.types).1)
    rwa [hmade, ← h.callables, List.map_map] at hmap
  · have hid : c.method ∈ ids' := hperm.mem_iff.mp (h.callables ▸ List.mem_map_of_mem hc)
    rw [← h'.callables] at hid
    obtain ⟨c', hc', heq⟩ := List.mem_map.mp hid
    dsimp only
    rw [← heq, hself hc']
    exact ⟨hc', rfl⟩

/-- Selecting among callables in another order has the same verdict. -/
theorem verdict (hu : u.WellFormed) (ht : ∀ t ∈ typeArgs, u.types.Knows t) (hargs : ∀ t ∈ args, u.types.Knows t)
    (h : u.Enlists typeArgs ids cs u₁) (h' : u.Enlists typeArgs ids' cs' u₂) (hperm : ids.Perm ids') (phases : List Phase) :
    (select u₁.types cs args phases).map (·.verdict) = (select u₂.types cs' args phases).map (·.verdict) := by
  obtain ⟨f, hf, hcs⟩ := h.exchange h' hperm
  have inPhase (ph : Phase) :
      (selectIn u₁.types cs args ph).map (·.verdict) = (selectIn u₂.types cs' args ph).map (·.verdict) := by
    have happlies : ∀ c ∈ cs, c.applies u₁.types args ph = (f c).applies u₂.types args ph := by
      intro c hc
      unfold Candidate.applies
      rw [(h.matching hu ht h' hc (hcs c hc).1 (hcs c hc).2).applicable (h.fork hu h') hargs]
    have hbeats : ∀ c ∈ cs.filter (·.applies u₁.types args ph), ∀ d ∈ cs.filter (·.applies u₁.types args ph),
        c.beats u₁.types args.length d = (f c).beats u₂.types args.length (f d) := by
      intro c hc d hd
      have hc := List.mem_of_mem_filter hc
      have hd := List.mem_of_mem_filter hd
      exact h.beats hu h' hc (hcs c hc).1 (hcs c hc).2 hd (hcs d hd).1 (hcs d hd).2 args.length
    have hfilter : ((cs.filter (·.applies u₁.types args ph)).map f).Perm (cs'.filter (·.applies u₂.types args ph)) := by
      have hmap : (cs.map f).filter (·.applies u₂.types args ph) = (cs.filter (·.applies u₁.types args ph)).map f := by
        rw [List.filter_map]
        exact congrArg (List.map f) (List.filter_congr fun c hc => (happlies c hc).symm)
      rw [← hmap]
      exact hf.filter _
    have htrans : TransOn (Candidate.beats u₂.types args.length) ((cs.filter (·.applies u₁.types args ph)).map f) :=
      fun _ _ _ _ _ _ hab hbc => Candidate.beats_trans h'.sound.types hab hbc
    have hkept := map_mostSpecific f hbeats
    refine verdict_selectIn ?_ ?_
    · rw [mostSpecific_eq_nil_iff, mostSpecific_eq_nil_iff, ← List.map_eq_nil_iff (f := f), ← List.length_eq_zero_iff,
        ← List.length_eq_zero_iff, hfilter.length_eq]
    · rw [← mostSpecific_single_perm htrans hfilter, ← hkept]
      constructor
      · rintro ⟨c, hc⟩
        exact ⟨f c, by rw [hc]; rfl⟩
      · rintro ⟨c, hc⟩
        obtain ⟨d, hd, -⟩ := List.map_eq_singleton_iff.mp hc
        exact ⟨d, hd⟩
  induction phases with
  | nil => rfl
  | cons ph phases ih =>
    unfold select at ih ⊢
    rw [List.findSome?_cons, List.findSome?_cons]
    have hph := inPhase ph
    cases hsel : selectIn u₁.types cs args ph <;> cases hsel' : selectIn u₂.types cs' args ph <;> simp_all

end Universe.Enlists

namespace Session

open Universe

variable {st : Session} {args : List TypeId}

/-- Callables that compete in another order have the same verdict. -/
theorem verdict_perm (hst : st.WellFormed) {typeArgs : List TypeId} (ht : ∀ t ∈ typeArgs, st.world.types.Knows t)
    (hargs : ∀ t ∈ args, st.world.types.Knows t) {ids ids' : List MethodId} (hperm : ids.Perm ids') :
    ((do
      let cands ← onUniverse (candidates typeArgs ids)
      selectAmong cands args : SessionM (Option Selection)) st).1.map (·.verdict) =
    ((do
      let cands ← onUniverse (candidates typeArgs ids')
      selectAmong cands args : SessionM (Option Selection)) st).1.map (·.verdict) :=
  (candidates_enlists hst.world ht ids).verdict hst.world ht hargs (candidates_enlists hst.world ht ids') hperm
    st.options.source.phases

/-- Overloads with processed signatures that are listed in another order have the same
verdict. -/
theorem selectMethod_perm (hst : st.WellFormed) (env : Env) {site : Site} (ht : ∀ t ∈ site.typeArgs, st.world.types.Knows t)
    (hargs : ∀ t ∈ args, st.world.types.Knows t) (search : TypeId) (q : Option Qualifier) {shadows shadows' : List Shadow}
    (hprocessed : ∀ s ∈ shadows, st.world.Processed s.method) (hperm : shadows.Perm shadows') :
    (selectMethod env site search q shadows args st).1.map (·.verdict) =
      (selectMethod env site search q shadows' args st).1.map (·.verdict) := by
  have hrun {l : List Shadow} (hl : ∀ s ∈ l, st.world.Processed s.method) :
      selectMethod env site search q l args st = (do
        let cands ← onUniverse (candidates site.typeArgs ((l.filter (st.world.competes env search q)).map (·.method)))
        selectAmong cands args : SessionM (Option Selection)) st := by
    have hsig : (withSignature (l.map (·.method)) st.world).2 = st.world :=
      withSignature_of_processed fun id hid => by
        obtain ⟨s, hs, rfl⟩ := List.mem_map.mp hid
        exact hl s hs
    have hcompeting : onUniverse (competingMethods env search q l) st = (l.filter (st.world.competes env search q), st) := by
      show ((l.filter ((withSignature (l.map (·.method)) st.world).2.competes env search q)),
        { st with world := (withSignature (l.map Shadow.method) st.world).2 }) = _
      rw [hsig]
    unfold selectMethod
    simp only [bind, StateT.bind, hcompeting]
  rw [hrun hprocessed, hrun fun s hs => hprocessed s (hperm.mem_iff.mpr hs)]
  exact verdict_perm hst ht hargs ((hperm.filter _).map Shadow.method)

end Session

end CallResolution
