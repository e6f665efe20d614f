import CallResolution.Proofs.Resolve.Generic
import CallResolution.Proofs.Types.Instances

/-!
# Views of supertypes

A parameterization of a class is found by a search through supertypes, which carries type
arguments along. Searches that start from a type and from its instance go the same way: what
the one finds is instantiated to what the other one finds, or neither finds anything. The
argument of a type variable gets lost where a header mentions the variable that is not a
header of its own class.

The search goes from a type to the supertypes in the header of its class, each instantiated
with the arguments of the type. From an instance the header is instantiated with other
arguments at once; from the type it is instantiated with the arguments that are there, and
what is found is instantiated afterwards. That both come to the same is
`Instantiates.search_step`; the rest is an induction on the depth of the search. `ClearAbove`
is the condition on the headers: a header above the class that mentions a variable of the
class itself would be instantiated by the one search and left alone by the other one.

Main statements: `parameterizationWithin_instantiates`, and `viewsOf_works` for the views that
a generic class and its instance have of another class.
-/

namespace CallResolution.TypeStore

variable {s s' : TypeStore} {owner : TypeId}

/-! ## The search

The search makes types on the way, and settles: a second one finds them.
-/

/-- From a type that is no type variable, the search goes on with the direct supertypes of its
class. -/
theorem parameterizationWithin_eq {n : Nat} {t : TypeId} (hplain : ¬ (s.shape t).isVariable) :
    parameterizationWithin owner (n + 1) t s =
      (if !(s.classOf t).isSome then pure none
      else if s.classOf t = owner then pure (if (s.shape t).isDeclared then none else some t)
      else (s.directSupertypes (s.classOf t)).findSomeM? fun up =>
        subst up ((s.classInfo? (s.classOf t)).elim [] (·.typeParams)) (s.argsOf t) >>= parameterizationWithin owner n) s := by
  conv_lhs => unfold parameterizationWithin
  rw [get_bind_apply]
  cases h : s.shape t <;> simp_all [TypeShape.isVariable]

/-- The store stays well formed when a type is instantiated, and knows the instance. -/
theorem WellFormed.subst_run (hs : s.WellFormed) {t : TypeId} (ht : s.Knows t) (params : List TypeId) {args : List TypeArg}
    (hargs : ∀ a ∈ args, s.Knows a.type) :
    (subst t params args s).2.WellFormed ∧ (subst t params args s).2.Knows (subst t params args s).1 := by
  obtain ⟨hs', -, hk⟩ := hs.run fun g => subst_works (g := g) hargs ht
  exact ⟨hs', hk⟩

/-- The search settles at an instance of a supertype, when it settles at every type, and
leaves the store well formed. -/
theorem searchAbove_settles {n : Nat} (hs : s.WellFormed)
    (hsearch : ∀ u : TypeStore, u.WellFormed → ∀ t, u.Knows t → Settles (parameterizationWithin owner n t) u) {up : TypeId}
    (hup : s.Knows up) (params : List TypeId) {args : List TypeArg} (hargs : ∀ a ∈ args, s.Knows a.type) :
    Settles (subst up params args >>= parameterizationWithin owner n) s ∧
      ((subst up params args >>= parameterizationWithin owner n) s).2.WellFormed := by
  obtain ⟨hs', hk⟩ := hs.subst_run hup params hargs
  exact ⟨(subst_settles hs hargs hup).bind (hsearch _ hs' _ hk),
    (hs'.run fun g => parameterizationWithin_works (g := g) owner n hk).1⟩

/-- The search for a parameterization of a class settles. -/
theorem parameterizationWithin_settles (owner : TypeId) (n : Nat) (hs : s.WellFormed) {t : TypeId} (ht : s.Knows t) :
    Settles (parameterizationWithin owner n t) s := by
  induction n generalizing s t with
  | zero => exact .ret _
  | succ n ih =>
    unfold parameterizationWithin
    refine .read (fun s' h => ?_) ?_
    · have hcls := hs.knows_classOf ht
      have hargs : s'.argsOf t = s.argsOf t := by
        unfold argsOf
        rw [h.shape ht]
      simp only [h.shape ht, h.typeVariable hs ht, h.classOf ht, h.classInfo hs hcls, h.directSupertypes hs hcls, hargs]
    · split
      · split
        · rename_i b hb
          exact ih hs (hs.denotes_firstBound hb).knows
        · exact .ret _
      · dsimp only
        split
        · exact .ret _
        · split
          · exact .ret _
          · refine .findSomeM? (I := WellFormed) _ hs fun up hup u hu hext => ?_
            exact searchAbove_settles hu (fun u hu t ht => ih hu ht) (hext.knows (hs.knows_directSupertypes hup)) _
              fun a ha => hext.knows (hs.knows_argsOf ha)

/-- The search at an instance of a supertype does nothing where the instance is there already
and the search from it does nothing. -/
theorem rests_searchAbove {n : Nat} (hs : s.Proper) {up : TypeId} (hup : s.Knows up) {params : List TypeId} {args : List TypeArg}
    (hargs : ∀ a ∈ args, s.Knows a.type) {p : Option TypeId}
    (h : Rests (subst up params args >>= parameterizationWithin owner n) s p) :
    ∃ u, Rests (substWithin (params.zip args) termDepth up) s u ∧ Rests (parameterizationWithin owner n u) s p := by
  obtain ⟨hs', hk⟩ := hs.subst_run hup params hargs
  obtain ⟨u, hu, h⟩ := (subst_settles hs.toWellFormed hargs hup).rests_bind (parameterizationWithin_settles owner n hs' hk) h
  exact ⟨u, (rests_subst_iff hs).mp hu, h⟩

/-! ## Instances of types

That one type is an instance of another one is a relation between numbers in a store, so
statements about it need no second store. The lemmas here say what can be read off it.
-/

/-- Mapping keys to values that stand in a relation gives values that stand in it. -/
theorem rel_lookup_zip {κ α β : Type} [BEq κ] [LawfulBEq κ] {R : α → β → Prop} {as : List α} {bs : List β} (h : List.Forall₂ R as bs)
    (ks : List κ) (k : κ) : Option.Rel R ((ks.zip as).lookup k) ((ks.zip bs).lookup k) := by
  induction h generalizing ks with
  | nil =>
    rw [List.zip_nil_right, List.zip_nil_right]
    exact .none
  | cons hab _ ih =>
    cases ks with
    | nil => exact .none
    | cons l ks =>
      simp only [List.zip_cons_cons, List.lookup_cons]
      split
      · exact .some hab
      · exact ih ks

/-- A key among different ones is mapped to the value at its place. -/
theorem lookup_zip_of_mem {κ α : Type} [BEq κ] [LawfulBEq κ] {ks : List κ} (hnodup : ks.Nodup) {as : List α} {k : κ} {a : α}
    (h : (k, a) ∈ ks.zip as) : (ks.zip as).lookup k = some a := by
  induction ks generalizing as with
  | nil => simp at h
  | cons l ks ih =>
    cases as with
    | nil => simp at h
    | cons b as =>
      obtain ⟨hnew, hnodup⟩ := List.nodup_cons.mp hnodup
      rw [List.zip_cons_cons] at h ⊢
      rw [List.lookup_cons]
      rcases List.mem_cons.mp h with heq | h
      · obtain ⟨rfl, rfl⟩ := Prod.mk.inj heq
        simp
      · have hne : (k == l) = false := beq_false_of_ne fun heq => hnew (heq ▸ (List.of_mem_zip h).1)
        rw [hne, ih hnodup h]

/-- No direct supertype is a type variable or an array. -/
theorem WellFormed.inheritable_directSupertypes (hs : s.WellFormed) {t u : TypeId} (hu : u ∈ s.directSupertypes t) :
    s.Inheritable u := by
  unfold directSupertypes at hu
  split at hu
  · rename_i info hi
    have hk := hs.knows_classInfo hi
    rcases List.mem_append.mp hu with hu | hu
    · split at hu
      · rw [List.mem_singleton.mp hu]
        exact hk.super
      · simp at hu
    · exact hk.interfaces u hu
  · simp at hu

variable {σ : List (TypeId × TypeArg)}

/-- The arguments of an instance follow those of the type. -/
theorem Instantiates.follows (hσ : s.Exact σ) (hs : s.Proper) {t t' : TypeId} (hplain : ¬ (s.shape t).isVariable)
    (h : s.Instantiates σ t t') : ∃ N, 0 < N ∧ List.Forall₂ (s.Follows σ N) (s.argsOf t) (s.argsOf t') := by
  obtain ⟨n, hnests, h⟩ := h
  obtain ⟨m, rfl⟩ := nestsWithin_pos hnests
  obtain ⟨-, -, -, hargs⟩ := classOf_substWithin hs hσ.known hplain h
  cases hshape : s.shape t with
  | applied base args =>
    obtain ⟨args', hargs, h⟩ := (hs.substWithin_applied hσ.known hshape).mp h
    have hall : List.Forall₂ (s.Follows σ m) args args' :=
      (List.forall₂_and_left _ _).mpr ⟨(nestsWithin_applied hshape).mp hnests, hargs⟩
    have hdeeper : List.Forall₂ (s.Follows σ (m + 1)) args args' :=
      ((List.forall₂_and_left _ _).mpr ⟨fun a ha => ha, hall⟩).imp fun a b ⟨ha, hab⟩ =>
        hab.deeper hσ hs (hs.knows_arg hshape ha) (Nat.le_succ m)
    exact ⟨m + 1, Nat.succ_pos m, by simpa only [argsOf, hshape, h] using hdeeper⟩
  | _ =>
    have hnone : s.argsOf t = [] := by simp [argsOf, hshape]
    rw [hargs hnone, hnone]
    exact ⟨1, Nat.one_pos, .nil⟩

/-- A type is instantiated to one type, at every depth that reaches all of it. -/
theorem Instantiates.eq_of_rests {t t' r : TypeId} (h : s.Instantiates σ t t') (hs : s.Proper) (hmap : ∀ p ∈ σ, s.Knows p.2.type)
    {n : Nat} (hn : s.nestsWithin n t) (hr : Rests (substWithin σ n t) s r) : r = t' := by
  obtain ⟨k, hk, h⟩ := h
  have hr' := hs.substWithin_deeper hmap (Nat.le_max_left n k) hn hr
  exact hr'.unique (hs.substWithin_deeper hmap (Nat.le_max_right n k) hk h)

/-- The search goes on from an instance as it does from the type, when it does so for the
supertypes in between. The header of the class may mention its own type variables, which the
arguments replace, but not others that are instantiated. -/
theorem Instantiates.search_step (hσ : s.Exact σ) (hs : s.Proper) {n : Nat} {t t' : TypeId}
    (hplain : ¬ (s.shape t).isVariable) (hview : s.Instantiates σ t t')
    (hshallow : ∀ up ∈ s.directSupertypes (s.classOf t), s.nestsWithin termDepth up)
    (havoid : ∀ up ∈ s.directSupertypes (s.classOf t), ∀ v a, σ.lookup v = some a →
      (((s.classInfo? (s.classOf t)).elim [] (·.typeParams)).zip (s.argsOf t)).lookup v = none → s.mentions up v = false)
    (hnext : ∀ up ∈ s.directSupertypes (s.classOf t), ∀ u u' p q, ¬ (s.shape u).isVariable → s.classOf u = s.classOf up →
      s.Instantiates σ u u' → Rests (parameterizationWithin owner n u) s p → Rests (parameterizationWithin owner n u') s q →
        Option.Rel (s.Instantiates σ) p q) {p q : Option TypeId}
    (hp : Rests (parameterizationWithin owner (n + 1) t) s p) (hq : Rests (parameterizationWithin owner (n + 1) t') s q) :
    Option.Rel (s.Instantiates σ) p q := by
  obtain ⟨k, -, hrests⟩ := id hview
  obtain ⟨hplain', hcls, hdeclared, -⟩ := classOf_substWithin hs hσ.known hplain hrests
  rw [Rests, parameterizationWithin_eq hplain] at hp
  rw [Rests, parameterizationWithin_eq hplain', hcls, hdeclared] at hq
  split at hp
  · rename_i hnone
    rw [if_pos hnone] at hq
    rw [Rests.of_ret hp, Rests.of_ret hq]
    exact .none
  rename_i hsome
  rw [if_neg hsome] at hq
  split at hp
  · rename_i howner
    rw [if_pos howner] at hq
    rw [Rests.of_ret hp, Rests.of_ret hq]
    split
    · exact .none
    · exact .some hview
  rename_i howner
  rw [if_neg howner] at hq
  generalize (s.classInfo? (s.classOf t)).elim [] (·.typeParams) = params at hp hq havoid
  obtain ⟨N, hN, hfollows⟩ := hview.follows hσ hs hplain
  have hargs (t : TypeId) : ∀ a ∈ s.argsOf t, s.Knows a.type := fun a ha => hs.knows_argsOf ha
  have hsettles (t : TypeId) : ∀ up ∈ s.directSupertypes (s.classOf t), ∀ u : TypeStore, u.WellFormed → s.Extends u →
      Settles (subst up params (s.argsOf t) >>= parameterizationWithin owner n) u ∧
        ((subst up params (s.argsOf t) >>= parameterizationWithin owner n) u).2.WellFormed := fun up hup u hu hext =>
    searchAbove_settles hu (fun u hu t ht => parameterizationWithin_settles owner n hu ht)
      (hext.knows (hs.knows_directSupertypes hup)) params fun a ha => hext.knows (hargs t a ha)
  refine Settles.rests_findSomeM? hs.toWellFormed (hsettles t) (fun up hup => hsettles t' up (hcls ▸ hup))
    (fun up hup p q hp hq => ?_) hp hq
  -- the two instances of a supertype
  have hup' := hs.inheritable_directSupertypes hup
  have hzip (t : TypeId) : ∀ p ∈ params.zip (s.argsOf t), s.Knows p.2.type := fun p hp => hargs t _ (List.of_mem_zip hp).2
  obtain ⟨u, hu, hp⟩ := rests_searchAbove hs hup'.1 (hargs t) hp
  obtain ⟨u', hu', hq⟩ := rests_searchAbove hs hup'.1 (hargs t') hq
  obtain ⟨hnests, hinstance⟩ := substWithin_compose hσ hs hN (fun v => rel_lookup_zip hfollows params v) (hzip t) (hzip t') hup'.1
    (hshallow up hup) (havoid up hup) hu hu'
  obtain ⟨hplainu, hclsu, -⟩ := classOf_substWithin hs (hzip t) hup'.2.1 hu
  exact hnext up hup u u' p q hplainu hclsu ⟨_, hnests, hinstance⟩ hp hq

/-! ## Commutation

The search from a type and the search from its instance, side by side.
-/

/-- The headers of the classes that are found upwards from a class, itself included, are not
nested deeply and do not mention the type variables that are instantiated. Type variables of
the classes themselves are not meant: they are replaced on the way. -/
def ClearAbove (s : TypeStore) (σ : List (TypeId × TypeArg)) (c : TypeId) : Prop :=
  ∀ d, Relation.ReflTransGen s.Parent c d → ∀ up ∈ s.directSupertypes d,
    s.nestsWithin termDepth up ∧ ∀ v a, σ.lookup v = some a → s.mentions up v = false

/-- Nothing is found upwards from no class. -/
theorem clearAbove_none : s.ClearAbove σ .none := by
  have hnone : s.directSupertypes .none = [] := by simp [directSupertypes, classInfo?, classSlot?, shape]
  intro d hd up hup
  obtain rfl := eq_of_reachable (by simp [parents, hnone]) hd
  simp [hnone] at hup

/-- The class of a direct supertype is a parent, if there is one. -/
theorem parent_of_directSupertype {c up : TypeId} (hup : up ∈ s.directSupertypes c) :
    s.classOf up = .none ∨ s.Parent c (s.classOf up) := by
  by_cases hsome : (s.classOf up).isSome
  · exact .inr (List.mem_filter.mpr ⟨List.mem_map.mpr ⟨up, hup, rfl⟩, hsome⟩)
  · exact .inl (by simpa [TypeId.isSome] using hsome)

/-- What is clear above a class is clear above its parents. -/
theorem ClearAbove.up {c up : TypeId} (h : s.ClearAbove σ c) (hup : up ∈ s.directSupertypes c) : s.ClearAbove σ (s.classOf up) := by
  rcases parent_of_directSupertype hup with hnone | hparent
  · exact hnone ▸ clearAbove_none
  · exact fun d hd => h d (.head hparent hd)

/-- What the search finds from a type is instantiated to what it finds from the instance, when
all is clear above the class. By induction on the depth of the search, which is the same for
both. -/
theorem parameterizationWithin_instantiates (hσ : s.Exact σ) (hs : s.Proper) (n : Nat) {t t' : TypeId}
    (hplain : ¬ (s.shape t).isVariable) (hview : s.Instantiates σ t t') (hclear : s.ClearAbove σ (s.classOf t)) {p q : Option TypeId}
    (hp : Rests (parameterizationWithin owner n t) s p) (hq : Rests (parameterizationWithin owner n t') s q) :
    Option.Rel (s.Instantiates σ) p q := by
  induction n generalizing t t' p q with
  | zero =>
    rw [Rests.of_ret hp, Rests.of_ret hq]
    exact .none
  | succ n ih =>
    refine hview.search_step hσ hs hplain (fun up hup => (hclear _ .refl up hup).1)
      (fun up hup v a hv _ => (hclear _ .refl up hup).2 v a hv) (fun up hup u u' p q hplain hcls hview hp hq => ?_) hp hq
    exact ih hplain hview (hcls ▸ hclear.up hup) hp hq

/-- Type variables are mapped to reference types. -/
theorem exact_zip {xs as : List TypeId} (hxs : ∀ x ∈ xs, (s.shape x).isVariable) (has : ∀ a ∈ as, s.isReference a) :
    s.Exact (xs.zip (as.map .exact)) := by
  have hargs {p : TypeId × TypeArg} (hp : p ∈ xs.zip (as.map .exact)) : ∃ a ∈ as, p.2 = .exact a := by
    obtain ⟨a, ha, heq⟩ := List.mem_map.mp (List.of_mem_zip hp).2
    exact ⟨a, ha, heq.symm⟩
  refine ⟨fun p hp => ?_, fun p hp => ?_, fun p hp => ?_, fun p hp => ?_⟩
  · exact isSome_of_shape (s := s) fun habsent => by simpa [habsent, TypeShape.isVariable] using hxs _ (List.of_mem_zip hp).1
  · obtain ⟨a, -, heq⟩ := hargs hp
    rw [heq]
    rfl
  · obtain ⟨a, ha, heq⟩ := hargs hp
    rw [heq]
    exact isSome_of_shape (denotes_of_isReference (has a ha)).1
  · obtain ⟨a, ha, heq⟩ := hargs hp
    rw [heq]
    exact (denotes_of_isReference (has a ha)).knows

/-- A generic class with its own type variables as arguments is instantiated to the class with
other arguments. -/
theorem instantiates_of_applied (hs : s.Proper) {cls generic given : TypeId} {xs as : List TypeId} (hxs : ∀ x ∈ xs, (s.shape x).isVariable)
    (hnodup : xs.Nodup) (hlength : as.length = xs.length) (hσ : s.Exact (xs.zip (as.map .exact)))
    (hgeneric : s.shape generic = .applied cls (xs.map .exact)) (hgiven : s.shape given = .applied cls (as.map .exact)) :
    s.Instantiates (xs.zip (as.map .exact)) generic given := by
  refine ⟨2, (nestsWithin_applied hgeneric).mpr fun a ha => .inr ?_, (hs.substWithin_applied hσ.known hgeneric).mpr ⟨_, ?_, hgiven⟩⟩
  · obtain ⟨x, hx, rfl⟩ := List.mem_map.mp ha
    have hvariable := hxs x hx
    refine nestsWithin_atom (t := x) ?_ ?_
    all_goals cases hshape : s.shape x <;> simp_all [TypeShape.isVariable, TypeShape.isArray]
  · refine List.forall₂_iff_zip.mpr ⟨by simp [hlength], fun {a b} hab => ?_⟩
    rw [List.zip_map_left] at hab
    obtain ⟨⟨x, c⟩, hmem, heq⟩ := List.mem_map.mp hab
    obtain ⟨rfl, rfl⟩ := Prod.mk.inj heq
    exact substArg_of_variable rfl (hxs x (List.of_mem_zip hmem).1) (lookup_zip_of_mem hnodup hmem)

/-- A generic class and reference types for its type variables, which are not mentioned in the
headers above its parents. The header of the class itself may mention them, and has to, if it
is to pass them on. -/
structure Instantiable (s : TypeStore) (cls : TypeId) (info : ClassInfo) (as : List TypeId) : Prop where
  /-- The record of the class. -/
  declared : s.classInfo? cls = some info
  /-- One type for each type variable. -/
  length : as.length = info.typeParams.length
  /-- The types are reference types. -/
  reference : ∀ a ∈ as, s.isReference a
  /-- The header of the class is not nested deeply. -/
  shallow : ∀ up ∈ s.directSupertypes cls, s.nestsWithin termDepth up
  /-- The headers above the parents neither, and they do not mention the type variables. -/
  clear : ∀ up ∈ s.directSupertypes cls, s.ClearAbove (info.typeParams.zip (as.map .exact)) (s.classOf up)

/-- A generic class and its instance have views of another class that are instances of each
other. -/
theorem Instantiable.views {cls generic given : TypeId} {info : ClassInfo} {as : List TypeId} (h : s.Instantiable cls info as)
    (hs : s.Proper) {n : Nat} (hgeneric : s.shape generic = .applied cls (info.typeParams.map .exact))
    (hgiven : s.shape given = .applied cls (as.map .exact)) {p q : Option TypeId}
    (hp : Rests (parameterizationWithin owner n generic) s p) (hq : Rests (parameterizationWithin owner n given) s q) :
    Option.Rel (s.Instantiates (info.typeParams.zip (as.map .exact))) p q := by
  have hknown := hs.knows_classInfo h.declared
  have hσ := exact_zip hknown.typeParams h.reference
  have hplain : ¬ (s.shape generic).isVariable := by simp [hgeneric, TypeShape.isVariable]
  have hcls : s.classOf generic = cls := by simp [classOf, hgeneric]
  have hview := instantiates_of_applied hs hknown.typeParams hknown.distinct h.length hσ hgeneric hgiven
  cases n with
  | zero =>
    rw [Rests.of_ret hp, Rests.of_ret hq]
    exact .none
  | succ n =>
    refine hview.search_step hσ hs hplain (hcls ▸ h.shallow) (fun up hup v a hv hfree => ?_)
      (fun up hup u u' p q hplain hclsu hview hp hq => ?_) hp hq
    · -- all variables that are instantiated are those of the class itself, which are carried along
      have hboth : List.Forall₂ (fun _ _ => True) (info.typeParams.map TypeArg.exact) (as.map TypeArg.exact) :=
        List.forall₂_iff_zip.mpr ⟨by simp [h.length], fun _ => trivial⟩
      have hrel := rel_lookup_zip hboth info.typeParams v
      have hargs : s.argsOf generic = info.typeParams.map .exact := by simp [argsOf, hgeneric]
      simp only [hcls, h.declared, hargs, Option.elim_some] at hfree
      rw [hv, hfree] at hrel
      cases hrel
    · exact parameterizationWithin_instantiates hσ hs n hplain hview (hclsu ▸ h.clear up (hcls ▸ hup)) hp hq

/-! ## Views in later stores

The condition on headers is about declared classes, and types that are made later do not
change these.
-/

namespace Extends

/-- How deeply a known type is nested stays. -/
theorem nestsWithin (h : s.Extends s') (hs : s.WellFormed) (n : Nat) {t : TypeId} (ht : s.Knows t) :
    s'.nestsWithin n t = s.nestsWithin n t := by
  induction n generalizing t with
  | zero => rfl
  | succ n ih =>
    unfold TypeStore.nestsWithin
    rw [h.shape ht]
    cases hshape : s.shape t with
    | array e d => exact ih (hs.knows_elem hshape)
    | applied base args =>
      simp only
      refine Bool.eq_iff_iff.mpr ?_
      simp only [List.all_eq_true]
      refine forall₂_congr fun a ha => ?_
      rw [ih (hs.knows_arg hshape ha)]
    | _ => rfl

/-- Whether a type variable occurs in a known type stays. -/
theorem mentionsWithin (h : s.Extends s') (hs : s.WellFormed) (v : TypeId) (n : Nat) {t : TypeId} (ht : s.Knows t) :
    s'.mentionsWithin v n t = s.mentionsWithin v n t := by
  induction n generalizing t with
  | zero => rfl
  | succ n ih =>
    unfold TypeStore.mentionsWithin
    rw [h.shape ht]
    cases hshape : s.shape t with
    | array e d => simp only [ih (hs.knows_elem hshape)]
    | applied base args =>
      refine congrArg _ (Bool.eq_iff_iff.mpr ?_)
      simp only [List.any_eq_true]
      refine exists_congr fun a => and_congr_right fun ha => ?_
      rw [ih (hs.knows_arg hshape ha)]
    | _ => rfl

end Extends

/-- What is found upwards from a known class is known. -/
theorem WellFormed.knows_reachable (hs : s.WellFormed) {c d : TypeId} (hc : s.Knows c) (h : Relation.ReflTransGen s.Parent c d) :
    s.Knows d := by
  induction h with
  | refl => exact hc
  | tail _ hp _ => exact hs.knows_parent hp

/-- What is clear above a known class stays so. -/
theorem ClearAbove.extends {c : TypeId} (h : s.ClearAbove σ c) (he : s.Extends s') (hs : s.WellFormed) (hc : s.Knows c) :
    s'.ClearAbove σ c := by
  intro d hd up hup
  have hd' := (he.reachable hs hc).mp hd
  have hknown := hs.knows_reachable hc hd'
  rw [he.directSupertypes hs hknown] at hup
  have hup' := hs.knows_directSupertypes hup
  obtain ⟨hnests, hnot⟩ := h d hd' up hup
  refine ⟨(he.nestsWithin hs _ hup').trans hnests, fun v a hv => ?_⟩
  exact (he.mentionsWithin hs v _ hup').trans (hnot v a hv)

/-- What holds of a generic class stays so. -/
theorem Instantiable.extends {cls : TypeId} {info : ClassInfo} {as : List TypeId} (h : s.Instantiable cls info as)
    (he : s.Extends s') (hs : s.WellFormed) (hcls : s.Knows cls) : s'.Instantiable cls info as := by
  have hsupers := he.directSupertypes hs hcls
  refine ⟨(he.classInfo hs hcls).trans h.declared, h.length, fun a ha => ?_, fun up hup => ?_, fun up hup => ?_⟩
  · exact (he.isReference (denotes_of_isReference (h.reference a ha)).knows).trans (h.reference a ha)
  · rw [hsupers] at hup
    exact (he.nestsWithin hs _ (hs.knows_directSupertypes hup)).trans (h.shallow up hup)
  · rw [hsupers] at hup
    have hup' := hs.knows_directSupertypes hup
    rw [he.classOf hup']
    exact (h.clear up hup).extends he hs (hs.knows_classOf hup')

/-- The view that a generic class with its own type variables as arguments has of another
class, what that view is instantiated to, and the view that the class has with other
arguments. -/
def viewsOf (cls owner : TypeId) (xs as : List TypeId) : TypeM (Option TypeId × Option TypeId × Option TypeId) := do
  let generic ← apply cls (xs.map .exact)
  let given ← apply cls (as.map .exact)
  let view ← parameterizationOf generic owner
  let found ← parameterizationOf given owner
  let expected ← view.mapM fun v => subst v xs (as.map .exact)
  return (view, expected, found)

/-- The views are instances of each other, when the view is not nested too deeply. All types
are made in one store, one after another, and told of the last one. -/
theorem viewsOf_works (owner : TypeId) {cls : TypeId} {info : ClassInfo} {as : List TypeId} (hdeclared : (s.shape cls).isDeclared)
    (hgeneric : info.typeParams ≠ []) (h : s.Instantiable cls info as) :
    Works extension (viewsOf cls owner info.typeParams as) s fun r s' =>
      (∀ v ∈ r.1, s'.nestsWithin termDepth v) → (∀ e, TypeShape.array e 0 ∉ s'.shapes) →
        r.2.2.isSome = r.1.isSome ∧ r.2.2 = r.2.1 := by
  refine Works.of_sound fun hs => ?_
  have hknown := hs.knows_classInfo h.declared
  have hxs : ∀ a ∈ info.typeParams.map TypeArg.exact, s.Knows a.type :=
    fun a ha => Method.knows_exact (fun x hx => knows_of_isVariable (hknown.typeParams x hx)) ha
  have hargs : ∀ a ∈ as.map TypeArg.exact, s.Knows a.type :=
    fun a ha => Method.knows_exact (fun x hx => (denotes_of_isReference (h.reference x hx)).knows) ha
  have hne : as ≠ [] := by
    rintro rfl
    exact hgeneric (List.length_eq_zero_iff.mp h.length.symm)
  refine (extending fun _ => apply_shape hdeclared hxs (by simpa using hgeneric)).bind fun generic s₁ hs₁ hl₁ h₁ => ?_
  have hdeclared₁ : (s₁.shape cls).isDeclared := hl₁.2.shape (knows_of_isDeclared hdeclared) ▸ hdeclared
  have hargs₁ : ∀ a ∈ as.map TypeArg.exact, s₁.Knows a.type := fun a ha => hl₁.2.knows (hargs a ha)
  refine (extending fun _ => apply_shape hdeclared₁ hargs₁ (by simpa using hne)).bind fun given s₂ hs₂ hl₂ h₂ => ?_
  have hk₁ : s₁.Knows generic := knows_of_shape (by simp [h₁])
  have hk₂ : s₂.Knows given := knows_of_shape (by simp [h₂])
  refine (Settles.works (fun hs => parameterizationWithin_settles owner supertypeDepth hs (hl₂.2.knows hk₁))
    fun g => parameterizationOf_works owner (hl₂.2.knows hk₁)).bind fun view s₃ hs₃ hl₃ h₃ => ?_
  refine (Settles.works (fun hs => parameterizationWithin_settles owner supertypeDepth hs (hl₃.2.knows hk₂))
    fun g => parameterizationOf_works owner (hl₃.2.knows hk₂)).bind fun found s₄ hs₄ hl₄ h₄ => ?_
  -- all that was made is there in the last store, where the searches do nothing
  have views {s' : TypeStore} (hl : s₄.Extends s') (hs' : s'.Proper) :
      Option.Rel (s'.Instantiates (info.typeParams.zip (as.map .exact))) view found := by
    have he₂ := hl₃.2.trans (hl₄.2.trans hl)
    have he₁ := hl₂.2.trans he₂
    have h' := h.extends (hl₁.2.trans he₁) hs (knows_of_isDeclared hdeclared)
    exact h'.views hs' ((he₁.shape hk₁).trans h₁) ((he₂.shape hk₂).trans h₂) (h₃.2 s' (hl₄.2.trans hl)) (h₄.2 s' hl)
  cases view with
  | none =>
    refine Works.ret fun _ hdims => ?_
    cases views (.refl s₄) ⟨hs₄, hdims⟩
    exact ⟨rfl, rfl⟩
  | some v =>
    have hv : s₄.Knows v := hl₄.2.knows (h₃.1 v rfl)
    have hargs₄ : ∀ a ∈ as.map TypeArg.exact, s₄.Knows a.type := fun a ha => hl₄.2.knows (hl₃.2.knows (hl₂.2.knows (hargs₁ a ha)))
    have hinstance : Works extension (subst v info.typeParams (as.map .exact)) s₄ fun r s' =>
        s'.Knows r ∧ ∀ t', s'.Extends t' → subst v info.typeParams (as.map .exact) t' = (r, t') :=
      Settles.works (fun hs => subst_settles hs hargs₄ hv) fun g => subst_works hargs₄ hv
    have hmap : Works extension (Option.mapM (fun v => subst v info.typeParams (as.map .exact)) (some v)) s₄ fun r s' =>
        ∃ u, r = some u ∧ Rests (subst v info.typeParams (as.map .exact)) s' u := by
      show Works extension (some <$> subst v info.typeParams (as.map .exact)) s₄ _
      rw [map_eq_pure_bind]
      exact hinstance.bind fun u s' _ _ hu => Works.ret ⟨u, rfl, hu.2 s' (.refl s')⟩
    refine hmap.bind fun r s₅ hs₅ hl₅ h => Works.ret fun hnests hdims => ?_
    obtain ⟨u, rfl, hu⟩ := h
    have hs₅' : s₅.Proper := ⟨hs₅, hdims⟩
    cases views hl₅.2.toExtends hs₅' with
    | some h =>
      have hzip : ∀ p ∈ info.typeParams.zip (as.map TypeArg.exact), s₅.Knows p.2.type :=
        fun p hp => hl₅.2.knows (hargs₄ _ (List.of_mem_zip hp).2)
      exact ⟨rfl, congrArg some (h.eq_of_rests hs₅' hzip (hnests v rfl) ((rests_subst_iff hs₅').mp hu)).symm⟩

end CallResolution.TypeStore
