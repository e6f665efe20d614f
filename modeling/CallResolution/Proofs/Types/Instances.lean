import CallResolution.Proofs.Types.Settled
import Mathlib.Data.List.Forall2

/-!
# Instances of types

Instantiating a type twice comes to instantiating it once with the instances of the arguments.
What stands in the way is that types are numbered: an instance that is equal to a type has its
number only because no two numbers have one shape. So the equation is shown in a store that
has all instances already, where the steps that make them do nothing. `Rests` says this of a
step. A step that was taken once rests in every later store (`rests`), so the store in which
both ways of instantiating were taken serves for the equation, and what is shown there holds
of the numbers in any later one.

The equation is shown by recursion on the depth. For each kind of type one statement says what
its instance is made of (`substWithin_variable`, `substWithin_array`, `substWithin_applied`),
and `Follows` relates the arguments of the two instantiations to those of the one that comes
to the same. A wildcard is the case that needs care: as an argument it is taken over as a
whole, and as what a variable stands for it supplies its bound. `Exact` leaves it out where
the equation fails for it.

Arrays must have dimensions: their number is a word, and an array whose dimensions have
wrapped around to none is instantiated to its element. Arguments must not be nested deeper
than instantiation goes, which `nestsWithin` says.

Main statements: `substWithin_compose` (the second instantiation after the first one),
`substWithin_deeper` (more depth does not matter) and `classOf_substWithin` (the class behind
a type stays).
-/

namespace CallResolution.TypeStore

variable {s : TypeStore} {α β γ : Type}

/-! ## Steps that do nothing

Steps that make types are functions on stores. When all that a step would make is there, it is
a value; these lemmas put such values together as the steps are put together.
-/

/-- A step gives a value and leaves the store as it is: all that it would make is there
already. Equations between steps become equations between values in this way, which can be
rewritten with. -/
def Rests (x : TypeM α) (s : TypeStore) (a : α) : Prop :=
  x s = (a, s)

namespace Rests

/-- A value alone. -/
theorem ret (a : α) : Rests (pure a) s a := rfl

/-- A value alone is the one that is given. -/
theorem of_ret {a b : α} (h : Rests (pure a) s b) : b = a :=
  (congrArg Prod.fst h).symm

/-- A step that starts by reading the store. -/
theorem get_iff {f : TypeStore → TypeM α} {a : α} : Rests (get >>= f) s a ↔ Rests (f s) s a := Iff.rfl

/-- One step after another. -/
theorem bind {x : TypeM α} {f : α → TypeM β} {a : α} {b : β} (hx : Rests x s a) (hf : Rests (f a) s b) :
    Rests (x >>= f) s b := by
  show f (x s).1 (x s).2 = _
  rw [hx]
  exact hf

/-- A step gives one value. -/
theorem unique {x : TypeM α} {a b : α} (h : Rests x s a) (h' : Rests x s b) : a = b :=
  congrArg Prod.fst (h.symm.trans h')

/-- A step for each element of a list. -/
theorem mapM {f : γ → TypeM α} {l : List γ} {as : List α} (h : List.Forall₂ (fun c a => Rests (f c) s a) l as) :
    Rests (l.mapM f) s as := by
  induction h with
  | nil => exact ret []
  | cons hc _ ih =>
    rw [List.mapM_cons]
    exact hc.bind (ih.bind (ret _))

end Rests

namespace Settles

/-- A settled step gives its value in every later store. -/
theorem rests {x : TypeM α} {s' : TypeStore} (h : Settles x s) (hs' : (x s).2.Extends s') : Rests x s' (x s).1 :=
  h.2 s' hs'

/-- When settled steps do nothing one after another, neither of them does anything. -/
theorem rests_bind {x : TypeM α} {f : α → TypeM β} {b : β} (hx : Settles x s) (hf : Settles (f (x s).1) (x s).2)
    (h : Rests (x >>= f) s b) : ∃ a, Rests x s a ∧ Rests (f a) s b := by
  have hlast : (f (x s).1 (x s).2).2 = s := congrArg Prod.snd h
  have hback := hf.1
  rw [hlast] at hback
  have hrests := hx.rests hback
  refine ⟨_, hrests, ?_⟩
  have hsame : (x s).2 = s := congrArg Prod.snd hrests
  rw [Rests, ← h]
  show _ = f (x s).1 (x s).2
  rw [hsame]

/-- When the settled steps for the elements of a list do nothing together, none of them does
anything. -/
theorem rests_mapM {f : γ → TypeM α} {I : TypeStore → Prop} {l : List γ} {as : List α} (hI : I s)
    (hf : ∀ c ∈ l, ∀ t, I t → s.Extends t → Settles (f c) t ∧ I (f c t).2) (h : Rests (l.mapM f) s as) :
    List.Forall₂ (fun c a => Rests (f c) s a) l as := by
  induction l generalizing as with
  | nil =>
    rw [List.mapM_nil] at h
    exact h.of_ret ▸ .nil
  | cons c l ih =>
    rw [List.mapM_cons] at h
    have htail {t : TypeStore} (ht : I t) (hst : s.Extends t) : Settles (l.mapM f) t :=
      .mapM l ht fun d hd u hu htu => hf d (by simp [hd]) u hu (hst.trans htu)
    obtain ⟨hc, hI'⟩ := hf c (by simp) s hI (.refl s)
    obtain ⟨a, ha, h⟩ := hc.rests_bind ((htail hI' hc.1).bind (ret (_ :: _))) h
    obtain ⟨bs, hbs, h⟩ := (htail hI (.refl s)).rests_bind (ret (_ :: _)) h
    rw [h.of_ret]
    exact .cons ha (ih (fun d hd => hf d (by simp [hd])) hbs)

/-- A search through a list looks at the first element, and at the others when nothing is
found there. -/
theorem findSomeM?_cons (f : γ → TypeM (Option α)) (c : γ) (l : List γ) :
    (c :: l).findSomeM? f = f c >>= fun x => x.elim (l.findSomeM? f) fun b => pure (some b) := by
  conv_lhs => unfold List.findSomeM?
  refine bind_congr fun x => ?_
  cases x <;> rfl

/-- Two searches through a list find something at the same element, when they do so for every
element. By induction on the list: where the first element gives nothing on one side it gives
nothing on the other, and both go on. -/
theorem rests_findSomeM? {f : γ → TypeM (Option α)} {f' : γ → TypeM (Option β)} {I : TypeStore → Prop} {R : α → β → Prop}
    {l : List γ} (hI : I s) (hf : ∀ c ∈ l, ∀ t, I t → s.Extends t → Settles (f c) t ∧ I (f c t).2)
    (hf' : ∀ c ∈ l, ∀ t, I t → s.Extends t → Settles (f' c) t ∧ I (f' c t).2)
    (hstep : ∀ c ∈ l, ∀ a b, Rests (f c) s a → Rests (f' c) s b → Option.Rel R a b) {a : Option α} {b : Option β}
    (h : Rests (l.findSomeM? f) s a) (h' : Rests (l.findSomeM? f') s b) : Option.Rel R a b := by
  induction l with
  | nil =>
    rw [Rests.of_ret h, Rests.of_ret h']
    exact .none
  | cons c l ih =>
    have split {δ : Type} {f : γ → TypeM (Option δ)} {d : Option δ}
        (hf : ∀ c' ∈ c :: l, ∀ t, I t → s.Extends t → Settles (f c') t ∧ I (f c' t).2)
        (h : Rests ((c :: l).findSomeM? f) s d) :
        ∃ x, Rests (f c) s x ∧ Rests (x.elim (l.findSomeM? f) fun b => pure (some b)) s d := by
      obtain ⟨hc, hI'⟩ := hf c (by simp) s hI (.refl s)
      rw [findSomeM?_cons] at h
      refine hc.rests_bind ?_ h
      cases (f c s).1 with
      | some b => exact ret _
      | none => exact findSomeM? l hI' fun d hd t ht hst => hf d (by simp [hd]) t ht (hc.1.trans hst)
    obtain ⟨x, hx, h⟩ := split hf h
    obtain ⟨y, hy, h'⟩ := split hf' h'
    cases hstep c (by simp) x y hx hy with
    | some hxy =>
      rw [Rests.of_ret h, Rests.of_ret h']
      exact .some hxy
    | none =>
      exact ih (fun d hd => hf d (by simp [hd])) (fun d hd => hf' d (by simp [hd])) (fun d hd => hstep d (by simp [hd])) h h'

end Settles

/-! ## Numbers of shapes

Where the number of a shape is known, making the shape again gives this number and changes
nothing.
-/

/-- A shape that a number has gets that number. -/
theorem WellFormed.intern_rests (hs : s.WellFormed) {t : TypeId} {shape : TypeShape} (h : s.shape t = shape)
    (hkey : shape.structureKey? = some shape) : Rests (intern shape) s t := by
  have hne : shape ≠ .absent := by
    rintro rfl
    cases hkey
  have hmem := Array.mem_of_getElem? (getElem?_of_shape h hne)
  cases hfind : s.shapes.findIdx? (· = shape) with
  | none =>
    have := Array.findIdx?_eq_none_iff.mp hfind shape hmem
    simp at this
  | some i =>
    obtain ⟨hi, heq, -⟩ := Array.findIdx?_eq_some_iff_getElem.mp hfind
    have hplace : s.shapes[i]? = some shape := by simpa [Array.getElem?_eq_getElem hi] using heq
    have htoo := getElem?_of_shape h hne
    rw [← Array.getElem?_toList] at hplace htoo
    obtain rfl : i = t.index :=
      (List.getElem?_inj (List.getElem?_eq_some_iff.mp hplace).1 hs.distinct).mp (hplace.trans htoo.symm)
    rw [Rests, intern_eq hkey, hfind]

/-- What gets a number without a change of the store has the shape. -/
theorem WellFormed.shape_of_intern (hs : s.WellFormed) {t : TypeId} {shape : TypeShape}
    (hkey : shape.structureKey? = some shape) (h : Rests (intern shape) s t) : s.shape t = shape := by
  have hne : shape ≠ .absent := by
    rintro rfl
    cases hkey
  rw [Rests, intern_eq hkey] at h
  split at h
  · rename_i i hfind
    obtain ⟨hi, heq, -⟩ := Array.findIdx?_eq_some_iff_getElem.mp hfind
    have hplace : s.shapes[i] = shape := by simpa using heq
    obtain rfl : ⟨i⟩ = t := congrArg Prod.fst h
    have hnone : (⟨i⟩ : TypeId) ≠ .none := by
      rintro ⟨⟩
      have hzero := hs.predefined 0 .absent rfl
      rw [Array.getElem?_eq_getElem hi, hplace] at hzero
      exact hne (Option.some.inj hzero)
    simpa [TypeStore.shape, hnone, Array.getD_eq_getD_getElem?, Array.getElem?_eq_getElem hi] using hplace
  · have hsize := congrArg (fun r => r.2.shapes.size) h
    simp [push] at hsize

/-! ## Arrays

What the array of a type is, by the shape of the type: another array gets further dimensions,
the bad type stays, and any other type becomes the element.
-/

/-- The array of the bad type is the bad type. -/
theorem array_of_bad {e : TypeId} {d : UInt32} (hd : d ≠ 0) (he : s.shape e = .bad) : Rests (array e d) s e := by
  rw [Rests, array_apply hd, he]

/-- The array of an array has further dimensions. -/
theorem WellFormed.array_of_array (hs : s.WellFormed) {e y r : TypeId} {d k : UInt32} (hd : d ≠ 0) (he : s.shape e = .array y k) :
    Rests (array e d) s r ↔ s.shape r = .array y (d + k) := by
  have hstep : array e d s = intern (.array y (d + k)) s := by rw [array_apply hd, he]
  rw [Rests, hstep]
  exact ⟨hs.shape_of_intern rfl, fun h => hs.intern_rests h rfl⟩

/-- The array of another type has that type as its element. -/
theorem WellFormed.array_of_plain (hs : s.WellFormed) {e r : TypeId} {d : UInt32} (hd : d ≠ 0)
    (harray : ¬ (s.shape e).isArray) (hbad : ¬ s.isBad e) : Rests (array e d) s r ↔ s.shape r = .array e d := by
  have hstep : array e d s = intern (.array e d) s := by
    rw [array_apply hd]
    cases h : s.shape e <;> simp_all [TypeShape.isArray, isBad]
  rw [Rests, hstep]
  exact ⟨hs.shape_of_intern rfl, fun h => hs.intern_rests h rfl⟩

/-- An array is the array of its element. -/
theorem WellFormed.array_rests (hs : s.WellFormed) {t e : TypeId} {d : UInt32} (hd : d ≠ 0) (ht : s.shape t = .array e d) :
    Rests (array e d) s t :=
  (hs.array_of_plain hd (hs.elem ht).1 (hs.elem ht).2).mpr ht

/-- The array of the element of an array is that array. -/
theorem WellFormed.array_unless_same (hs : s.WellFormed) {t e e' r : TypeId} {d : UInt32} (hd : d ≠ 0) (ht : s.shape t = .array e d) :
    Rests (if e' = e then pure t else array e' d) s r ↔ Rests (array e' d) s r := by
  have hself := hs.array_rests hd ht
  split
  · rename_i hsame
    rw [hsame]
    exact ⟨fun h => h.of_ret ▸ hself, fun h => h.unique hself ▸ .ret t⟩
  · rfl

/-- An array settles whether its element stays or not. -/
theorem array_unless_same_settles (hs : s.WellFormed) {t e e' : TypeId} (d : UInt32) (he : s.Knows e') :
    Settles (if e' = e then pure t else array e' d) s := by
  split
  · exact .ret t
  · exact array_settles hs d he

/-- The array of a type is an array, or the bad type. -/
theorem WellFormed.shape_of_array (hs : s.WellFormed) {e r : TypeId} {d : UInt32} (hd : d ≠ 0) (h : Rests (array e d) s r) :
    s.shape r = .bad ∨ ∃ y k, s.shape r = .array y k := by
  cases he : s.shape e with
  | bad => exact .inl (h.unique (array_of_bad hd he) ▸ he)
  | array y k => exact .inr ⟨_, _, (hs.array_of_array hd he).mp h⟩
  | _ => exact .inr ⟨_, _, (hs.array_of_plain hd (by simp [he, TypeShape.isArray]) (by simp [isBad, he])).mp h⟩

/-- The dimensions of an array of an array add up. When they wrap around to none the result is
the element itself, so the equation is asked for dimensions whose sum is not zero. -/
theorem WellFormed.array_array (hs : s.WellFormed) {e a b : TypeId} {d k : UInt32} (hk : k ≠ 0) (hd : d ≠ 0)
    (hsum : d + k ≠ 0) (ha : Rests (array e k) s a) (hb : Rests (array a d) s b) : Rests (array e (d + k)) s b := by
  cases he : s.shape e with
  | bad =>
    obtain rfl := ha.unique (array_of_bad hk he)
    obtain rfl := hb.unique (array_of_bad hd he)
    exact array_of_bad hsum he
  | array y j =>
    have hshape := (hs.array_of_array hk he).mp ha
    have hshape' := (hs.array_of_array hd hshape).mp hb
    exact (hs.array_of_array hsum he).mpr (by rw [hshape', UInt32.add_assoc])
  | _ =>
    have harray : ¬ (s.shape e).isArray := by simp [he, TypeShape.isArray]
    have hbad : ¬ s.isBad e := by simp [isBad, he]
    have hshape := (hs.array_of_plain hk harray hbad).mp ha
    have hshape' := (hs.array_of_array hd hshape).mp hb
    exact (hs.array_of_plain hsum harray hbad).mpr hshape'

/-! ## Instantiation

One statement for each kind of type says what its instance is made of. The recursion of the
program is taken apart here and nowhere else.
-/

variable {map : List (TypeId × TypeArg)}

/-- A type without parts that is no type variable. -/
def Atomic (s : TypeStore) (t : TypeId) : Prop :=
  ¬ (s.shape t).isArray ∧ ¬ (s.shape t).isVariable ∧ ∀ base args, s.shape t ≠ .applied base args

/-- What is no type has no parts. -/
theorem atomic_none : s.Atomic .none := by
  simp [Atomic, shape, TypeShape.isArray, TypeShape.isVariable]

/-- A type without parts that is no type variable is its own instance. -/
theorem Atomic.rests {t : TypeId} (h : s.Atomic t) (n : Nat) : Rests (substWithin map n t) s t := by
  obtain ⟨harray, hvariable, happlied⟩ := h
  cases n with
  | zero => rfl
  | succ n =>
    unfold substWithin
    show _ = _
    rw [get_bind_apply]
    cases h : s.shape t <;> simp_all [TypeShape.isArray, TypeShape.isVariable] <;> rfl

/-- A type variable becomes what its argument supplies. -/
theorem substWithin_variable {t : TypeId} (n : Nat) (ht : (s.shape t).isVariable) :
    substWithin map (n + 1) t s = (match map.lookup t with
      | some a => argUpper a t s
      | none => (t, s)) := by
  conv_lhs => unfold substWithin
  rw [get_bind_apply]
  cases h : s.shape t <;> simp_all [TypeShape.isVariable]
  cases map.lookup t <;> rfl

/-- An array is instantiated to the array of the instance of its element. -/
theorem WellFormed.substWithin_array (hs : s.WellFormed) (hmap : ∀ p ∈ map, s.Knows p.2.type) {n : Nat} {t e r : TypeId}
    {d : UInt32} (hd : d ≠ 0) (ht : s.shape t = .array e d) :
    Rests (substWithin map (n + 1) t) s r ↔ ∃ e', Rests (substWithin map n e) s e' ∧ Rests (array e' d) s r := by
  have he := hs.knows_elem ht
  have hstep : substWithin map (n + 1) t s =
      (substWithin map n e >>= fun e' => if e' = e then pure t else array e' d) s := by
    conv_lhs => unfold substWithin
    rw [get_bind_apply, ht]
  rw [Rests, hstep]
  constructor
  · intro h
    obtain ⟨hs', -, hk⟩ := hs.run fun g => substWithin_works (g := g) n hmap he
    obtain ⟨e', he', h⟩ := (substWithin_settles n hs hmap he).rests_bind (array_unless_same_settles hs' d hk) h
    exact ⟨e', he', (hs.array_unless_same hd ht).mp h⟩
  · rintro ⟨e', he', h⟩
    exact he'.bind ((hs.array_unless_same hd ht).mpr h)

/-- A parameterized type with the same arguments is that type. -/
theorem WellFormed.apply_unless_same (hs : s.WellFormed) {t base r : TypeId} {args args' : List TypeArg}
    (ht : s.shape t = .applied base args) (hne : args' = [] → args = []) :
    Rests (if args' = args then pure t else apply base args') s r ↔ s.shape r = .applied base args' := by
  split
  · rename_i hsame
    rw [hsame]
    exact ⟨fun h => h.of_ret ▸ ht, fun h => hs.eq_of_shape (h.trans ht.symm) (by simp [h]) ▸ .ret t⟩
  · rename_i hother
    have hsome : args' ≠ [] := fun hnil => hother (hnil.trans (hne hnil).symm)
    rw [apply_eq, if_neg (by simpa using hsome)]
    exact ⟨hs.shape_of_intern rfl, fun h => hs.intern_rests h rfl⟩

/-- The instance of a parameterized type has the instances of its arguments. The program gives
back the type itself when no argument changed; a store that has the type finds it again, so
both ways give one number. -/
theorem WellFormed.substWithin_applied (hs : s.WellFormed) (hmap : ∀ p ∈ map, s.Knows p.2.type) {n : Nat} {t base r : TypeId}
    {args : List TypeArg} (ht : s.shape t = .applied base args) :
    Rests (substWithin map (n + 1) t) s r ↔
      ∃ args', List.Forall₂ (fun a b => Rests (substArg (substWithin map n) map a) s b) args args' ∧
        s.shape r = .applied base args' := by
  have hstep : substWithin map (n + 1) t s = (args.mapM (substArg (substWithin map n) map) >>= fun args' =>
      if args' = args then pure t else apply base args') s := by
    conv_lhs => unfold substWithin
    rw [get_bind_apply, ht]
  have hsettles : ∀ a ∈ args, ∀ u, u.WellFormed → s.Extends u →
      Settles (substArg (substWithin map n) map a) u ∧ (substArg (substWithin map n) map a u).2.WellFormed := by
    intro a ha u hu hext
    have hm : ∀ p ∈ map, u.Knows p.2.type := fun p hp => hext.knows (hmap p hp)
    have hk := hext.knows (hs.knows_arg ht ha)
    refine ⟨substArg_settles hk (substWithin_settles n hu hm hk), ?_⟩
    exact (hu.run fun g => substArg_works (g := g) hm hk (substWithin_works n hm hk)).1
  have hnil {args' : List TypeArg} (hall : List.Forall₂ (fun a b => Rests (substArg (substWithin map n) map a) s b) args args') :
      args' = [] → args = [] := by
    rintro rfl
    exact List.forall₂_nil_right_iff.mp hall
  rw [Rests, hstep]
  constructor
  · intro h
    have hrest : Settles (if (args.mapM (substArg (substWithin map n) map) s).1 = args then pure t
        else apply base (args.mapM (substArg (substWithin map n) map) s).1)
        (args.mapM (substArg (substWithin map n) map) s).2 := by
      obtain ⟨hbase, hargs⟩ := hs.substArgs_run hmap n ht
      split
      · exact .ret t
      · exact apply_settles hbase hargs
    obtain ⟨args', hargs, h⟩ := (Settles.mapM args hs hsettles).rests_bind hrest h
    have hall := Settles.rests_mapM hs hsettles hargs
    exact ⟨args', hall, (hs.apply_unless_same ht (hnil hall)).mp h⟩
  · rintro ⟨args', hall, h⟩
    exact (Rests.mapM hall).bind ((hs.apply_unless_same ht (hnil hall)).mpr h)

/-! ## Arguments

An argument is a type or a wildcard with a bound, and is instantiated by what it holds; but a
type variable in it is replaced by the whole argument that it is mapped to.
-/

/-- An argument that is a type or has a bound is instantiated by its type, unless it is a type
variable. -/
theorem substArg_of_inner {inner : TypeId → TypeM TypeId} {a : TypeArg} (hbound : a.wildcard ≠ .unbounded)
    (hfree : a.wildcard = .none → (s.shape a.type).isVariable → map.lookup a.type = none) :
    substArg inner map a s = (do return { a with type := ← inner a.type }) s := by
  obtain ⟨wildcard, type⟩ := a
  unfold substArg
  cases wildcard with
  | unbounded => exact absurd rfl hbound
  | none =>
    dsimp only
    rw [get_bind_apply]
    split
    · rename_i hvariable
      rw [hfree rfl hvariable]
    · rfl
  | _ => rfl

/-- An argument that is a type variable is taken over as a whole. So a wildcard that the
variable is mapped to stands in its place, and is not turned into its bound. -/
theorem substArg_of_variable {inner : TypeId → TypeM TypeId} {a b : TypeArg} (hexact : a.wildcard = .none)
    (hvariable : (s.shape a.type).isVariable) (hb : map.lookup a.type = some b) : Rests (substArg inner map a) s b := by
  unfold substArg
  rw [hexact]
  show _ = _
  dsimp only
  rw [get_bind_apply, if_pos hvariable, hb]
  rfl

/-- A wildcard without a bound stays. -/
theorem substArg_unbounded {inner : TypeId → TypeM TypeId} {a : TypeArg} (ha : a.wildcard = .unbounded) :
    Rests (substArg inner map a) s a := by
  unfold substArg
  rw [ha]
  rfl

/-- What an argument that is a type or has a bound is instantiated to, unless it is a type
variable. -/
theorem substArg_inner_iff {inner : TypeId → TypeM TypeId} {a b : TypeArg} (hbound : a.wildcard ≠ .unbounded)
    (hfree : a.wildcard = .none → (s.shape a.type).isVariable → map.lookup a.type = none)
    (hinner : Settles (inner a.type) s) :
    Rests (substArg inner map a) s b ↔ ∃ t, Rests (inner a.type) s t ∧ b = { a with type := t } := by
  rw [Rests, substArg_of_inner hbound hfree]
  constructor
  · intro h
    obtain ⟨t, ht, h⟩ := hinner.rests_bind (.ret { a with type := (inner a.type s).1 }) h
    exact ⟨t, ht, h.of_ret⟩
  · rintro ⟨t, ht, rfl⟩
    exact ht.bind (.ret _)

/-- How an argument is instantiated: not at all, as a type variable, or by its type. -/
theorem substArg_cases {inner : TypeId → TypeM TypeId} {a b : TypeArg} (hinner : Settles (inner a.type) s)
    (h : Rests (substArg inner map a) s b) :
    (a.wildcard = .unbounded ∧ b = a) ∨
      (a.wildcard = .none ∧ (s.shape a.type).isVariable ∧ map.lookup a.type = some b) ∨
      a.wildcard ≠ .unbounded ∧ (a.wildcard = .none → (s.shape a.type).isVariable → map.lookup a.type = none) ∧
        ∃ t, Rests (inner a.type) s t ∧ b = { a with type := t } := by
  by_cases hbound : a.wildcard = .unbounded
  · exact .inl ⟨hbound, h.unique (substArg_unbounded hbound)⟩
  by_cases hfree : a.wildcard = .none → (s.shape a.type).isVariable → map.lookup a.type = none
  · exact .inr (.inr ⟨hbound, hfree, (substArg_inner_iff hbound hfree hinner).mp h⟩)
  · obtain ⟨hexact, hvariable, hsome⟩ := by simpa only [Classical.not_imp] using hfree
    obtain ⟨c, hc⟩ := Option.ne_none_iff_exists'.mp hsome
    exact .inr (.inl ⟨hexact, hvariable, h.unique (substArg_of_variable hexact hvariable hc) ▸ hc⟩)

/-- An argument is instantiated in the same way by steps that give its type the same instance.
-/
theorem substArg_deeper {inner inner' : TypeId → TypeM TypeId} {a b : TypeArg} (hinner : Settles (inner a.type) s)
    (hinner' : Settles (inner' a.type) s)
    (hdeeper : a.wildcard ≠ .unbounded → ∀ t, Rests (inner a.type) s t → Rests (inner' a.type) s t)
    (h : Rests (substArg inner map a) s b) : Rests (substArg inner' map a) s b := by
  rcases substArg_cases hinner h with ⟨hbound, rfl⟩ | ⟨hexact, hvariable, hb⟩ | ⟨hbound, hfree, t, ht, rfl⟩
  · exact substArg_unbounded hbound
  · exact substArg_of_variable hexact hvariable hb
  · exact (substArg_inner_iff hbound hfree hinner').mpr ⟨t, hdeeper hbound t ht, rfl⟩

/-! ## Nesting

Types are instantiated down to a depth. A type that is not nested deeper than that is
instantiated in full.
-/

/-- Whether a type has no more than a number of levels of arguments and elements.
Instantiation stops after a number of levels and leaves the rest as it is, so only what is
nested less deep is instantiated throughout. -/
def nestsWithin (s : TypeStore) : Nat → TypeId → Bool
  | 0, _ => false
  | depth + 1, t =>
    match s.shape t with
    | .array e _ => s.nestsWithin depth e
    | .applied _ args => args.all fun a => a.wildcard = .unbounded || s.nestsWithin depth a.type
    | _ => true

/-- The levels of an argument, of which a wildcard without a bound has none. -/
def argNestsWithin (s : TypeStore) (depth : Nat) (a : TypeArg) : Prop :=
  a.wildcard = .unbounded ∨ s.nestsWithin depth a.type

/-- The levels of an array are those of its element and one more. -/
theorem nestsWithin_array {t e : TypeId} {d : UInt32} {n : Nat} (ht : s.shape t = .array e d) :
    s.nestsWithin (n + 1) t ↔ s.nestsWithin n e := by
  simp [nestsWithin, ht]

/-- The levels of a parameterized type are those of its arguments and one more. -/
theorem nestsWithin_applied {t base : TypeId} {args : List TypeArg} {n : Nat} (ht : s.shape t = .applied base args) :
    s.nestsWithin (n + 1) t ↔ ∀ a ∈ args, s.argNestsWithin n a := by
  simp [nestsWithin, ht, argNestsWithin]

/-- A type without parts has one level. -/
theorem nestsWithin_atom {t : TypeId} {n : Nat} (harray : ¬ (s.shape t).isArray)
    (happlied : ∀ base args, s.shape t ≠ .applied base args) : s.nestsWithin (n + 1) t := by
  unfold nestsWithin
  cases h : s.shape t <;> simp_all [TypeShape.isArray]

/-- A type without parts that is no type variable has one level. -/
theorem Atomic.nestsWithin {t : TypeId} {n : Nat} (h : s.Atomic t) : s.nestsWithin (n + 1) t :=
  nestsWithin_atom h.1 h.2.2

/-- There are levels. -/
theorem nestsWithin_pos {t : TypeId} {n : Nat} (h : s.nestsWithin n t) : ∃ m, n = m + 1 := by
  cases n with
  | zero => simp [nestsWithin] at h
  | succ n => exact ⟨n, rfl⟩

/-- A type with few levels has no more than many. -/
theorem nestsWithin_mono {t : TypeId} {n m : Nat} (hnm : n ≤ m) (h : s.nestsWithin n t) : s.nestsWithin m t := by
  induction n generalizing t m with
  | zero => simp [nestsWithin] at h
  | succ n ih =>
    obtain ⟨m, rfl⟩ : ∃ k, m = k + 1 := ⟨m - 1, by omega⟩
    cases hshape : s.shape t with
    | array e d => exact (nestsWithin_array hshape).mpr (ih (by omega) ((nestsWithin_array hshape).mp h))
    | applied base args =>
      refine (nestsWithin_applied hshape).mpr fun a ha => ?_
      exact ((nestsWithin_applied hshape).mp h a ha).imp_right (ih (by omega))
    | _ => exact nestsWithin_atom (by simp [hshape, TypeShape.isArray]) (by simp [hshape])

/-- An argument with few levels has no more than many. -/
theorem argNestsWithin.mono {a : TypeArg} {n m : Nat} (hnm : n ≤ m) (h : s.argNestsWithin n a) : s.argNestsWithin m a :=
  h.imp_right (nestsWithin_mono hnm)

/-- A well-formed store whose arrays have dimensions. Dimensions are counted in a word, and
adding them up may wrap around to none; in such a store the elements of an array would be lost
when it is instantiated. -/
structure Proper (s : TypeStore) : Prop extends s.WellFormed where
  /-- No number of dimensions has wrapped around to none. -/
  dims : ∀ e, TypeShape.array e 0 ∉ s.shapes

/-- An array has dimensions. -/
theorem Proper.dims_ne_zero (hs : s.Proper) {t e : TypeId} {d : UInt32} (ht : s.shape t = .array e d) : d ≠ 0 := by
  rintro rfl
  exact hs.dims e (Array.mem_of_getElem? (getElem?_of_shape ht (by simp)))

/-- A type whose levels are all instantiated has the same instance at more depth. -/
theorem Proper.substWithin_deeper (hs : s.Proper)
    (hmap : ∀ p ∈ map, s.Knows p.2.type) {n m : Nat} (hnm : n ≤ m) {t r : TypeId} (hn : s.nestsWithin n t)
    (h : Rests (substWithin map n t) s r) : Rests (substWithin map m t) s r := by
  induction n generalizing t r m with
  | zero => simp [nestsWithin] at hn
  | succ n ih =>
    obtain ⟨m, rfl⟩ : ∃ k, m = k + 1 := ⟨m - 1, by omega⟩
    have hnm' : n ≤ m := by omega
    cases ht : s.shape t with
    | array e d =>
      have hd := hs.dims_ne_zero ht
      obtain ⟨e', he', h⟩ := (hs.substWithin_array hmap hd ht).mp h
      exact (hs.substWithin_array hmap hd ht).mpr ⟨e', ih hnm' ((nestsWithin_array ht).mp hn) he', h⟩
    | typeVar slot =>
      have hvariable : (s.shape t).isVariable := by simp [ht, TypeShape.isVariable]
      rw [Rests, substWithin_variable m hvariable, ← substWithin_variable n hvariable]
      exact h
    | applied base args =>
      obtain ⟨args', hargs, h⟩ := (hs.substWithin_applied hmap ht).mp h
      refine (hs.substWithin_applied hmap ht).mpr ⟨args', ?_, h⟩
      refine ((List.forall₂_and_left _ _).mpr ⟨fun a ha => ha, hargs⟩).imp fun a b hboth => ?_
      obtain ⟨ha, hab⟩ := hboth
      have hsettles (k : Nat) := substWithin_settles k hs.toWellFormed hmap (hs.knows_arg ht ha)
      refine substArg_deeper (hsettles n) (hsettles m) (fun hbound u hu => ?_) hab
      exact ih hnm' (((nestsWithin_applied ht).mp hn a ha).resolve_left hbound) hu
    | _ =>
      have hatom : s.Atomic t := by simp [Atomic, ht, TypeShape.isArray, TypeShape.isVariable]
      obtain rfl := h.unique (hatom.rests (n + 1))
      exact hatom.rests (m + 1)

/-! ## Erasures

Nothing in an erasure can be instantiated, so it is its own instance.
-/

/-- A type without type arguments and type variables. Nothing in it can be instantiated, and
erasure leads to such types. -/
def Raw (s : TypeStore) (t : TypeId) : Prop :=
  ¬ (s.shape (s.baseElem t)).isVariable ∧ ∀ base args, s.shape (s.baseElem t) ≠ .applied base args

/-- The element of an array. -/
theorem baseElem_of_array {t e : TypeId} {d : UInt32} (ht : s.shape t = .array e d) : s.baseElem t = e := by
  simp [baseElem, ht]

/-- A type that is no array is its own element. -/
theorem baseElem_of_plain {t : TypeId} (ht : ¬ (s.shape t).isArray) : s.baseElem t = t := by
  unfold baseElem
  cases h : s.shape t <;> simp_all [TypeShape.isArray]

/-- A raw type has no parts, or is an array of one that has none. -/
theorem Raw.cases {t : TypeId} (h : s.Raw t) (hs : s.WellFormed) :
    s.Atomic t ∨ ∃ e d, s.shape t = .array e d ∧ s.Atomic e := by
  by_cases harray : (s.shape t).isArray
  · obtain ⟨e, d, ht⟩ : ∃ e d, s.shape t = .array e d := by
      cases ht : s.shape t <;> simp_all [TypeShape.isArray]
    rw [Raw, baseElem_of_array ht] at h
    exact .inr ⟨e, d, ht, (hs.elem ht).1, h⟩
  · rw [Raw, baseElem_of_plain harray] at h
    exact .inl ⟨harray, h⟩

/-- A type without parts that is no type variable is raw. -/
theorem Atomic.raw {t : TypeId} (h : s.Atomic t) : s.Raw t := by
  rw [Raw, baseElem_of_plain h.1]
  exact h.2

/-- A raw type is its own instance. -/
theorem Raw.rests {t : TypeId} (h : s.Raw t) (hs : s.Proper)
    (hmap : ∀ p ∈ map, s.Knows p.2.type) (n : Nat) : Rests (substWithin map n t) s t := by
  rcases h.cases hs.toWellFormed with hatom | ⟨e, d, ht, hatom⟩
  · exact hatom.rests n
  · cases n with
    | zero => rfl
    | succ n =>
      have hd := hs.dims_ne_zero ht
      exact (hs.substWithin_array hmap hd ht).mpr ⟨e, hatom.rests n, hs.array_rests hd ht⟩

/-- A raw type has two levels at most. -/
theorem Raw.nestsWithin {t : TypeId} (h : s.Raw t) (hs : s.Proper) (n : Nat) : s.nestsWithin (n + 2) t := by
  rcases h.cases hs.toWellFormed with hatom | ⟨e, d, ht, hatom⟩
  · exact hatom.nestsWithin
  · exact (nestsWithin_array ht).mpr hatom.nestsWithin

/-- The array of a raw type is raw. -/
theorem Raw.array {e r : TypeId} {d : UInt32} (h : s.Raw e) (hs : s.Proper) (hd : d ≠ 0) (hr : Rests (array e d) s r) :
    s.Raw r := by
  cases he : s.shape e with
  | bad => exact hr.unique (array_of_bad hd he) ▸ h
  | array y k =>
    rw [Raw, baseElem_of_array he] at h
    rwa [Raw, baseElem_of_array ((hs.array_of_array hd he).mp hr)]
  | _ =>
    have harray : ¬ (s.shape e).isArray := by simp [he, TypeShape.isArray]
    have hbad : ¬ s.isBad e := by simp [isBad, he]
    rw [Raw, baseElem_of_plain harray] at h
    rwa [Raw, baseElem_of_array ((hs.array_of_plain hd harray hbad).mp hr)]

/-- A declared class is raw. -/
theorem raw_of_isDeclared {t : TypeId} (h : (s.shape t).isDeclared) : s.Raw t := by
  refine Atomic.raw ?_
  cases ht : s.shape t <;> simp_all [Atomic, TypeShape.isArray, TypeShape.isVariable, TypeShape.isDeclared]

/-- A type that is neither a parameterized type nor an array nor a type variable is raw. -/
theorem raw_of_plain {t : TypeId} (happlied : ∀ base args, s.shape t = .applied base args → False)
    (harray : ∀ e d, s.shape t = .array e d → False) (hvariable : ∀ slot, s.shape t = .typeVar slot → False) : s.Raw t := by
  refine Atomic.raw ?_
  cases ht : s.shape t <;> simp_all [Atomic, TypeShape.isArray, TypeShape.isVariable]

/-- The erasure of the element of an array is raw. -/
theorem WellFormed.raw_erasedElem (hs : s.WellFormed) {t e : TypeId} {d : UInt32} (ht : s.shape t = .array e d) :
    s.Raw (s.erasedElem e) := by
  have harray := (hs.elem ht).1
  unfold erasedElem
  split
  · rename_i base args he
    exact raw_of_isDeclared (hs.base he)
  · exact raw_of_isDeclared (by simp [hs.shape_object, TypeShape.isDeclared])
  · refine Atomic.raw ?_
    cases he : s.shape e <;> simp_all [Atomic, TypeShape.isArray, TypeShape.isVariable]

/-- Erasures are raw. -/
theorem Proper.raw_erasureWithin (hs : s.Proper) (fuel : Nat) {t e : TypeId}
    (ht : s.Knows t) (h : Rests (erasureWithin fuel t) s e) : s.Raw e := by
  have object : s.Raw .object := raw_of_isDeclared (by simp [hs.shape_object, TypeShape.isDeclared])
  induction fuel generalizing t e with
  | zero =>
    unfold erasureWithin at h
    rw [Rests.get_iff] at h
    split at h
    · rename_i base args hshape
      exact h.of_ret ▸ raw_of_isDeclared (hs.base hshape)
    · rename_i y d hshape
      have hd := hs.dims_ne_zero hshape
      simp only [pure_bind] at h
      exact (hs.raw_erasedElem hshape).array hs hd ((hs.array_unless_same hd hshape).mp h)
    · exact h.of_ret ▸ object
    · exact h.of_ret ▸ raw_of_plain ‹_› ‹_› ‹_›
  | succ fuel ih =>
    unfold erasureWithin at h
    rw [Rests.get_iff] at h
    split at h
    · rename_i base args hshape
      exact h.of_ret ▸ raw_of_isDeclared (hs.base hshape)
    · rename_i y d hshape
      have hd := hs.dims_ne_zero hshape
      have hy := hs.knows_elem hshape
      obtain ⟨hs', -, hk, -⟩ := hs.run fun g => erasureWithin_works (g := g) fuel hy
      obtain ⟨y', hy', h⟩ := (erasureWithin_settles fuel hs.toWellFormed hy).rests_bind (array_unless_same_settles hs' d hk) h
      exact (ih hy hy').array hs hd ((hs.array_unless_same hd hshape).mp h)
    · dsimp only at h
      split at h
      · rename_i b hb
        exact ih (hs.denotes_firstBound hb).knows h
      · exact h.of_ret ▸ object
    · exact h.of_ret ▸ raw_of_plain ‹_› ‹_› ‹_›

/-! ## What an argument supplies

An argument supplies its own type, or what bounds it.
-/

/-- An argument supplies a type for a variable: itself or its upper bound. A wildcard without
an upper bound supplies nothing, and then the variable stands for its erasure. -/
def Supplies (a : TypeArg) : Prop :=
  (a.wildcard = .none ∨ a.wildcard = .extends) ∧ a.type.isSome

/-- A variable stands for what its argument supplies. -/
theorem argUpper_of_supplies {a : TypeArg} (h : Supplies a) (param : TypeId) : argUpper a param = pure a.type := by
  obtain ⟨wildcard, type⟩ := a
  obtain ⟨hw, hsome⟩ := h
  unfold argUpper
  rcases hw with hw | hw <;> simp_all

/-- A variable stands for its erasure when its argument supplies nothing. -/
theorem argUpper_of_not_supplies {a : TypeArg} (h : ¬ Supplies a) (param : TypeId) : argUpper a param = erasure param := by
  obtain ⟨wildcard, type⟩ := a
  unfold argUpper
  cases wildcard <;> simp_all [Supplies]

/-- A number with a shape is a type. -/
theorem isSome_of_shape {t : TypeId} (h : s.shape t ≠ .absent) : t.isSome := by
  simp only [TypeId.isSome, bne_iff_ne]
  rintro rfl
  exact h (by simp [shape])

/-! ## Exact arguments

Of two instantiations that are done one after the other, the second one may have no wildcards
among its arguments.
-/

/-- Type variables are mapped to known types, not to wildcards. The first of two
instantiations may have wildcards among its arguments, the second one may not: what a wildcard
becomes is no argument that could be put in its place. -/
structure Exact (s : TypeStore) (map : List (TypeId × TypeArg)) : Prop where
  /-- The type variables. -/
  domain : ∀ p ∈ map, p.1.isSome
  /-- The arguments are no wildcards. -/
  exact : ∀ p ∈ map, p.2.wildcard = .none
  /-- The arguments are types. -/
  isSome : ∀ p ∈ map, p.2.type.isSome
  /-- The arguments are known. -/
  known : ∀ p ∈ map, s.Knows p.2.type

/-- An exact argument supplies its type. -/
theorem Exact.supplies (h : s.Exact map) {v : TypeId} {a : TypeArg} (ha : map.lookup v = some a) : Supplies a :=
  ⟨.inl (h.exact _ (mem_of_lookup ha)), h.isSome _ (mem_of_lookup ha)⟩

/-- A variable becomes its exact argument. -/
theorem Exact.substWithin_variable (h : s.Exact map) {v : TypeId} {a : TypeArg} (n : Nat) (hv : (s.shape v).isVariable)
    (ha : map.lookup v = some a) : Rests (substWithin map (n + 1) v) s a.type := by
  rw [Rests, TypeStore.substWithin_variable n hv, ha]
  dsimp only
  rw [argUpper_of_supplies (h.supplies ha)]
  rfl

/-- With exact arguments, an argument that is a type or has a bound is instantiated by its
type in any case. -/
theorem Exact.substArg (h : s.Exact map) {a : TypeArg} {n : Nat} {t : TypeId} (hbound : a.wildcard ≠ .unbounded)
    (ht : Rests (substWithin map (n + 1) a.type) s t) :
    Rests (substArg (substWithin map (n + 1)) map a) s { a with type := t } := by
  by_cases hfree : a.wildcard = .none → (s.shape a.type).isVariable → map.lookup a.type = none
  · rw [Rests, substArg_of_inner hbound hfree]
    exact ht.bind (.ret _)
  · obtain ⟨hexact, hvariable, hsome⟩ := by simpa only [Classical.not_imp] using hfree
    obtain ⟨c, hc⟩ := Option.ne_none_iff_exists'.mp hsome
    obtain rfl := ht.unique (h.substWithin_variable n hvariable hc)
    have hwildcard : c.wildcard = a.wildcard := (h.exact _ (mem_of_lookup hc)).trans hexact.symm
    rw [← hwildcard]
    exact substArg_of_variable hexact hvariable hc

/-- The instance of a type is a type. -/
theorem Exact.isSome_substWithin (h : s.Exact map) (hs : s.Proper) {n : Nat} {t r : TypeId} (ht : t.isSome)
    (hr : Rests (substWithin map n t) s r) : r.isSome := by
  cases n with
  | zero => exact hr.of_ret ▸ ht
  | succ n =>
    cases hshape : s.shape t with
    | array e d =>
      have hd := hs.dims_ne_zero hshape
      obtain ⟨e', -, hr⟩ := (hs.substWithin_array h.known hd hshape).mp hr
      rcases hs.shape_of_array hd hr with hr | ⟨y, k, hr⟩ <;> exact isSome_of_shape (s := s) (by simp [hr])
    | typeVar slot =>
      have hvariable : (s.shape t).isVariable := by simp [hshape, TypeShape.isVariable]
      cases ha : map.lookup t with
      | some a => exact hr.unique (h.substWithin_variable n hvariable ha) ▸ h.isSome _ (mem_of_lookup ha)
      | none =>
        rw [Rests, TypeStore.substWithin_variable n hvariable, ha] at hr
        obtain rfl : t = r := congrArg Prod.fst hr
        exact ht
    | applied base args =>
      obtain ⟨args', -, hr⟩ := (hs.substWithin_applied h.known hshape).mp hr
      exact isSome_of_shape (s := s) (by simp [hr])
    | _ =>
      have hatom : s.Atomic t := by simp [Atomic, hshape, TypeShape.isArray, TypeShape.isVariable]
      exact hr.unique (hatom.rests _) ▸ ht

/-! ## Composition

`Follows` relates the argument of the instantiation that does both at once to that of the
first one. What is shown for a type passes to its arguments by `Follows.substArg`, and what a
variable stands for follows by `Follows.argUpper`.
-/

variable {ρ ρ' σ : List (TypeId × TypeArg)} {N : Nat}

/-- An argument is what another one is instantiated to. -/
def Follows (s : TypeStore) (σ : List (TypeId × TypeArg)) (N : Nat) (a b : TypeArg) : Prop :=
  s.argNestsWithin N a ∧ Rests (substArg (substWithin σ N) σ a) s b

/-- The exact instance of an argument supplies a type when the argument does. -/
theorem Follows.supplies (hσ : s.Exact σ) (hs : s.Proper)
    {a b : TypeArg} (ha : s.Knows a.type) (h : s.Follows σ N a b) (hN : 0 < N) :
    (Supplies a → Supplies b ∧ s.nestsWithin N a.type ∧ Rests (substWithin σ N a.type) s b.type) ∧
      (¬ Supplies a → ¬ Supplies b) := by
  obtain ⟨m, rfl⟩ : ∃ m, N = m + 1 := ⟨N - 1, by omega⟩
  obtain ⟨hnests, h⟩ := h
  have hsettles := substWithin_settles (m + 1) hs.toWellFormed hσ.known ha
  rcases substArg_cases hsettles h with ⟨hbound, rfl⟩ | ⟨hexact, hvariable, hb⟩ | ⟨hbound, -, u, hu, rfl⟩
  · exact ⟨fun hsup => by rcases hsup.1 with hw | hw <;> simp [hbound] at hw, id⟩
  · refine ⟨fun _ => ⟨hσ.supplies hb, ?_, hσ.substWithin_variable m hvariable hb⟩, fun hnot => (hnot ⟨.inl hexact, ?_⟩).elim⟩
    · exact hnests.resolve_left (by simp [hexact])
    · exact isSome_of_shape (s := s) fun habsent => by simp [habsent, TypeShape.isVariable] at hvariable
  · refine ⟨fun hsup => ⟨⟨hsup.1, hσ.isSome_substWithin hs hsup.2 hu⟩, hnests.resolve_left hbound, hu⟩, ?_⟩
    rintro hnot ⟨hw, hsome⟩
    refine hnot ⟨hw, ?_⟩
    by_contra hnone
    have heq : a.type = .none := by simpa [TypeId.isSome] using hnone
    rw [heq] at hu
    exact hnone (heq ▸ hu.unique (atomic_none.rests _) ▸ hsome)

/-- A variable that is mapped to an argument is instantiated to what the instance of the
argument supplies. -/
theorem Follows.argUpper (hσ : s.Exact σ) (hs : s.Proper)
    {a b : TypeArg} (ha : s.Knows a.type) (hfollows : s.Follows σ N a b) (hN : 0 < N)
    {t r r' : TypeId} (ht : s.Knows t) {n : Nat} (h : Rests (argUpper a t) s r) (h' : Rests (argUpper b t) s r') :
    s.nestsWithin (n + 1 + N) r ∧ Rests (substWithin σ (n + 1 + N) r) s r' := by
  obtain ⟨hsome, hnone⟩ := hfollows.supplies hσ hs ha hN
  by_cases hsup : Supplies a
  · obtain ⟨hsup', hnests, hrests⟩ := hsome hsup
    rw [argUpper_of_supplies hsup] at h
    rw [argUpper_of_supplies hsup'] at h'
    rw [h.of_ret, h'.of_ret]
    have hmore : N ≤ n + 1 + N := by omega
    exact ⟨nestsWithin_mono hmore hnests, hs.substWithin_deeper hσ.known hmore hnests hrests⟩
  · rw [argUpper_of_not_supplies hsup] at h
    rw [argUpper_of_not_supplies (hnone hsup)] at h'
    obtain rfl := h.unique h'
    have hraw := hs.raw_erasureWithin boundLimit ht h
    refine ⟨?_, hraw.rests hs hσ.known _⟩
    obtain ⟨k, hk⟩ : ∃ k, n + 1 + N = k + 2 := ⟨n + N - 1, by omega⟩
    exact hk ▸ hraw.nestsWithin hs k

/-- Instantiating an array again instantiates its element again. -/
theorem Exact.substWithin_further (hσ : s.Exact σ) (hs : s.Proper)
    {n : Nat} {e e' r r' : TypeId} {d : UInt32} (hd : d ≠ 0)
    (hnests : s.nestsWithin n e) (he : Rests (substWithin σ n e) s e') (h : Rests (array e d) s r)
    (h' : Rests (array e' d) s r') : s.nestsWithin (n + 1) r ∧ Rests (substWithin σ (n + 1) r) s r' := by
  cases hshape : s.shape e with
  | bad =>
    have hatom : s.Atomic e := by simp [Atomic, hshape, TypeShape.isArray, TypeShape.isVariable]
    obtain rfl := he.unique (hatom.rests n)
    obtain rfl := h.unique (array_of_bad hd hshape)
    obtain rfl := h'.unique (array_of_bad hd hshape)
    exact ⟨hatom.nestsWithin, hatom.rests _⟩
  | array y k =>
    -- the dimensions add up, and the element of the instance is found one level higher than before
    have hr := (hs.array_of_array hd hshape).mp h
    have hsum := hs.dims_ne_zero hr
    obtain ⟨m, rfl⟩ := nestsWithin_pos hnests
    have hy := (nestsWithin_array hshape).mp hnests
    obtain ⟨y', hy', hk⟩ := (hs.substWithin_array hσ.known (hs.dims_ne_zero hshape) hshape).mp he
    refine ⟨(nestsWithin_array hr).mpr (nestsWithin_mono (Nat.le_succ m) hy), ?_⟩
    refine (hs.substWithin_array hσ.known hsum hr).mpr ⟨y', hs.substWithin_deeper hσ.known (Nat.le_succ m) hy hy', ?_⟩
    exact hs.array_array (hs.dims_ne_zero hshape) hd hsum hk h'
  | _ =>
    have hr := (hs.array_of_plain hd (by simp [hshape, TypeShape.isArray]) (by simp [isBad, hshape])).mp h
    exact ⟨(nestsWithin_array hr).mpr hnests, (hs.substWithin_array hσ.known hd hr).mpr ⟨e', he, h'⟩⟩

/-- Lists that stand in relations to one list stand in one to each other. -/
theorem forall₂_join {R : α → β → Prop} {S : α → γ → Prop} {T : β → γ → Prop} {l : List α} {bs : List β} {cs : List γ}
    (h : List.Forall₂ R l bs) (h' : List.Forall₂ S l cs) (hjoin : ∀ a ∈ l, ∀ b c, R a b → S a c → T b c) :
    List.Forall₂ T bs cs := by
  induction h generalizing cs with
  | nil =>
    cases h'
    exact .nil
  | cons hab _ ih =>
    cases h' with
    | cons hac h' => exact .cons (hjoin _ (by simp) _ _ hab hac) (ih h' fun a ha => hjoin a (by simp [ha]))

/-- More depth does not matter. -/
theorem Follows.deeper (hσ : s.Exact σ) (hs : s.Proper) {a b : TypeArg} (ha : s.Knows a.type) {M : Nat} (hM : N ≤ M)
    (h : s.Follows σ N a b) : s.Follows σ M a b := by
  have hsettles (k : Nat) := substWithin_settles k hs.toWellFormed hσ.known ha
  refine ⟨h.1.mono hM, substArg_deeper (hsettles N) (hsettles M) (fun hbound t ht => ?_) h.2⟩
  exact hs.substWithin_deeper hσ.known hM (h.1.resolve_left hbound) ht

/-- The instances of an argument follow each other when those of its type and of type
variables do. -/
theorem Follows.substArg (hσ : s.Exact σ) (hs : s.Proper) (hfollows : ∀ v, Option.Rel (s.Follows σ N) (ρ.lookup v) (ρ'.lookup v))
    {a b b' : TypeArg} {n M : Nat} (hM : N ≤ M) (hinner : ∀ τ, (∀ p ∈ τ, s.Knows p.2.type) → Settles (substWithin τ n a.type) s)
    (hρ : ∀ p ∈ ρ, s.Knows p.2.type) (hρ' : ∀ p ∈ ρ', s.Knows p.2.type)
    (htype : a.wildcard ≠ .unbounded → ∀ t t', Rests (substWithin ρ n a.type) s t → Rests (substWithin ρ' n a.type) s t' →
      s.nestsWithin M t ∧ Rests (substWithin σ M t) s t')
    (h : Rests (substArg (substWithin ρ n) ρ a) s b) (h' : Rests (substArg (substWithin ρ' n) ρ' a) s b') :
    s.Follows σ M b b' := by
  have hrel := hfollows a.type
  rcases substArg_cases (hinner ρ hρ) h with ⟨hbound, rfl⟩ | ⟨hexact, hvariable, hb⟩ | ⟨hbound, hfree, t, ht, rfl⟩
  · obtain rfl := h'.unique (substArg_unbounded hbound)
    exact ⟨.inl hbound, substArg_unbounded hbound⟩
  · rw [hb] at hrel
    cases hb' : ρ'.lookup a.type with
    | none =>
      rw [hb'] at hrel
      cases hrel
    | some c =>
      rw [hb'] at hrel
      obtain ⟨hrel⟩ := hrel
      obtain rfl := h'.unique (substArg_of_variable hexact hvariable hb')
      exact hrel.deeper hσ hs (hρ _ (mem_of_lookup hb)) hM
  · have hfree' : a.wildcard = .none → (s.shape a.type).isVariable → ρ'.lookup a.type = none := by
      intro hexact hvariable
      rw [hfree hexact hvariable] at hrel
      cases hb' : ρ'.lookup a.type with
      | none => rfl
      | some c =>
        rw [hb'] at hrel
        cases hrel
    obtain ⟨t', ht', rfl⟩ := (substArg_inner_iff hbound hfree' (hinner ρ' hρ')).mp h'
    obtain ⟨hnests, hrests⟩ := htype hbound t t' ht ht'
    obtain ⟨m, rfl⟩ := nestsWithin_pos hnests
    exact ⟨.inr hnests, hσ.substArg hbound hrests⟩

/-- A type variable does not occur where there is no type. -/
theorem not_mentions_none {v : TypeId} (hv : v.isSome) (n : Nat) : s.mentionsWithin v n .none = false := by
  have hne : TypeId.none ≠ v := by
    rintro rfl
    simp [TypeId.isSome] at hv
  cases n with
  | zero => simpa [mentionsWithin] using hne
  | succ n => simpa [mentionsWithin, shape] using hne

/-- A variable that one instantiation looks up, another one may instantiate further. It is
looked up by both of the instantiations that are compared, or by neither of them; in the
latter case the further one does not know it either. -/
theorem substWithin_compose_variable (hσ : s.Exact σ) (hs : s.Proper) (hN : 0 < N)
    (hfollows : ∀ v, Option.Rel (s.Follows σ N) (ρ.lookup v) (ρ'.lookup v)) (hρ : ∀ p ∈ ρ, s.Knows p.2.type) {n : Nat}
    {t r r' : TypeId} (ht : s.Knows t) (hvariable : (s.shape t).isVariable)
    (havoid : ∀ a, σ.lookup t = some a → ρ.lookup t = none → s.mentionsWithin t (n + 1) t = false)
    (h : Rests (substWithin ρ (n + 1) t) s r) (h' : Rests (substWithin ρ' (n + 1) t) s r') :
    s.nestsWithin (n + N + 1) r ∧ Rests (substWithin σ (n + N + 1) r) s r' := by
  rw [Rests, substWithin_variable n hvariable] at h h'
  have hrel := hfollows t
  cases ha : ρ.lookup t with
  | none =>
    cases hb : ρ'.lookup t with
    | some b =>
      rw [ha, hb] at hrel
      cases hrel
    | none =>
      rw [ha] at h
      rw [hb] at h'
      obtain rfl : t = r := congrArg Prod.fst h
      obtain rfl : t = r' := congrArg Prod.fst h'
      obtain ⟨slot, hshape⟩ : ∃ slot, s.shape t = .typeVar slot := by
        cases hshape : s.shape t <;> simp_all [TypeShape.isVariable]
      refine ⟨nestsWithin_atom (by simp [hshape, TypeShape.isArray]) (by simp [hshape]), ?_⟩
      rw [Rests, substWithin_variable _ hvariable]
      cases hc : σ.lookup t with
      | none => rfl
      | some c => simpa [mentionsWithin] using havoid c hc ha
  | some a =>
    cases hb : ρ'.lookup t with
    | none =>
      rw [ha, hb] at hrel
      cases hrel
    | some b =>
      rw [ha, hb] at hrel
      rw [ha] at h
      rw [hb] at h'
      obtain ⟨hrel⟩ := hrel
      have := hrel.argUpper hσ hs (hρ _ (mem_of_lookup ha)) hN ht (n := n) h h'
      rwa [Nat.add_right_comm] at this

/-- The second of two instantiations comes to the instantiation with what follows the
arguments of the first one, when the variables that are only instantiated the second time do
not occur in the type. By induction on the depth, and for each depth by the kind of the type:
a variable is looked up, an array passes to its element, and a parameterized type to its
arguments. -/
theorem substWithin_compose (hσ : s.Exact σ) (hs : s.Proper) (hN : 0 < N)
    (hfollows : ∀ v, Option.Rel (s.Follows σ N) (ρ.lookup v) (ρ'.lookup v)) (hρ : ∀ p ∈ ρ, s.Knows p.2.type)
    (hρ' : ∀ p ∈ ρ', s.Knows p.2.type) {n : Nat} {t r r' : TypeId} (ht : s.Knows t) (hn : s.nestsWithin n t)
    (havoid : ∀ v a, σ.lookup v = some a → ρ.lookup v = none → s.mentionsWithin v n t = false)
    (h : Rests (substWithin ρ n t) s r) (h' : Rests (substWithin ρ' n t) s r') :
    s.nestsWithin (n + N) r ∧ Rests (substWithin σ (n + N) r) s r' := by
  induction n generalizing t r r' with
  | zero => simp [TypeStore.nestsWithin] at hn
  | succ n ih =>
    rw [Nat.add_right_comm]
    cases hshape : s.shape t with
    | array e d =>
      have hd := hs.dims_ne_zero hshape
      obtain ⟨e₁, he₁, h⟩ := (hs.substWithin_array hρ hd hshape).mp h
      obtain ⟨e₂, he₂, h'⟩ := (hs.substWithin_array hρ' hd hshape).mp h'
      have havoid' (v : TypeId) (a : TypeArg) (hv : σ.lookup v = some a) (hfree : ρ.lookup v = none) :
          s.mentionsWithin v n e = false := by
        have hnot := havoid v a hv hfree
        simp only [mentionsWithin, hshape, Bool.or_eq_false_iff] at hnot
        exact hnot.2
      obtain ⟨hnests, hrests⟩ := ih (hs.knows_elem hshape) ((nestsWithin_array hshape).mp hn) havoid' he₁ he₂
      exact hσ.substWithin_further hs hd hnests hrests h h'
    | typeVar slot =>
      have hvariable : (s.shape t).isVariable := by simp [hshape, TypeShape.isVariable]
      exact substWithin_compose_variable hσ hs hN hfollows hρ ht hvariable (havoid t) h h'
    | applied base args =>
      obtain ⟨args₁, hargs₁, h⟩ := (hs.substWithin_applied hρ hshape).mp h
      obtain ⟨args₂, hargs₂, h'⟩ := (hs.substWithin_applied hρ' hshape).mp h'
      -- an argument without a bound is no type, and has nothing to instantiate
      have hall : List.Forall₂ (s.Follows σ (n + N)) args₁ args₂ := by
        refine forall₂_join hargs₁ hargs₂ fun a ha b c hb hc => ?_
        have hk := hs.knows_arg hshape ha
        refine Follows.substArg hσ hs hfollows (Nat.le_add_left N n) (fun τ hτ => substWithin_settles n hs.toWellFormed hτ hk) hρ hρ'
          (fun hbound u u' hu hu' => ?_) hb hc
        refine ih hk (((nestsWithin_applied hshape).mp hn a ha).resolve_left hbound) (fun v w hv hfree => ?_) hu hu'
        have hnot := havoid v w hv hfree
        simp only [mentionsWithin, hshape, Bool.or_eq_false_iff, List.any_eq_false] at hnot
        by_cases hsome : a.type.isSome
        · simpa [hsome] using hnot.2 a ha
        · have hnone : a.type = .none := by simpa [TypeId.isSome] using hsome
          exact hnone ▸ not_mentions_none (hσ.domain _ (mem_of_lookup hv)) n
      obtain ⟨hnests, hargs⟩ := (List.forall₂_and_left _ _).mp hall
      exact ⟨(nestsWithin_applied h).mpr hnests, (hs.substWithin_applied hσ.known h).mpr ⟨args₂, hargs, h'⟩⟩
    | _ =>
      have hatom : s.Atomic t := by simp [Atomic, hshape, TypeShape.isArray, TypeShape.isVariable]
      obtain rfl := h.unique (hatom.rests _)
      obtain rfl := h'.unique (hatom.rests _)
      exact ⟨hatom.nestsWithin, hatom.rests _⟩

/-! ## Instances

The relation between a type and its instance.
-/

/-- Nothing is instantiated without arguments. -/
theorem substWithin_nil (hs : s.Proper) (n : Nat) (t : TypeId) : Rests (substWithin [] n t) s t := by
  induction n generalizing t with
  | zero => rfl
  | succ n ih =>
    cases hshape : s.shape t with
    | array e d =>
      have hd := hs.dims_ne_zero hshape
      exact (hs.substWithin_array (by simp) hd hshape).mpr ⟨e, ih e, hs.array_rests hd hshape⟩
    | typeVar slot =>
      have hvariable : (s.shape t).isVariable := by simp [hshape, TypeShape.isVariable]
      rw [Rests, substWithin_variable n hvariable]
      rfl
    | applied base args =>
      refine (hs.substWithin_applied (by simp) hshape).mpr ⟨args, List.forall₂_same.mpr fun a _ => ?_, hshape⟩
      by_cases hbound : a.wildcard = .unbounded
      · exact substArg_unbounded hbound
      · rw [Rests, substArg_of_inner hbound (by simp)]
        exact (ih a.type).bind (.ret _)
    | _ => exact Atomic.rests (by simp [Atomic, hshape, TypeShape.isArray, TypeShape.isVariable]) _

/-- Instantiation follows arguments down to its depth. -/
theorem rests_subst_iff (hs : s.Proper) {t r : TypeId} {params : List TypeId} {args : List TypeArg} :
    Rests (subst t params args) s r ↔ Rests (substWithin (params.zip args) termDepth t) s r := by
  unfold subst
  split
  · rename_i hnone
    have hnil : params.zip args = [] := by
      rcases Bool.or_eq_true_iff.mp hnone with h | h <;> simp_all
    rw [hnil]
    have hself := substWithin_nil hs termDepth t
    exact ⟨fun h => h.of_ret ▸ hself, fun h => h.unique hself ▸ .ret t⟩
  · rfl

/-- The instance of a type that is no type variable is none, has the same class behind it, is
a class if the type is one, and has arguments only if the type has. So a search for a class
goes the same way through the supertypes of a class and through their instances. -/
theorem classOf_substWithin (hs : s.Proper) {map : List (TypeId × TypeArg)} (hmap : ∀ p ∈ map, s.Knows p.2.type) {n : Nat}
    {t r : TypeId} (hplain : ¬ (s.shape t).isVariable) (h : Rests (substWithin map n t) s r) :
    ¬ (s.shape r).isVariable ∧ s.classOf r = s.classOf t ∧ (s.shape r).isDeclared = (s.shape t).isDeclared ∧
      (s.argsOf t = [] → s.argsOf r = []) := by
  cases n with
  | zero =>
    obtain rfl : r = t := h.of_ret
    exact ⟨hplain, rfl, rfl, id⟩
  | succ n =>
    cases hshape : s.shape t with
    | array e d =>
      have hd := hs.dims_ne_zero hshape
      obtain ⟨e', -, h⟩ := (hs.substWithin_array hmap hd hshape).mp h
      rcases hs.shape_of_array hd h with hr | ⟨y, k, hr⟩ <;>
        simp [classOf, argsOf, hr, hshape, TypeShape.isVariable, TypeShape.isDeclared]
    | typeVar slot => simp [hshape, TypeShape.isVariable] at hplain
    | applied base args =>
      obtain ⟨args', hargs, h⟩ := (hs.substWithin_applied hmap hshape).mp h
      refine ⟨by simp [h, TypeShape.isVariable], by simp [classOf, h, hshape], by simp [h, TypeShape.isDeclared], ?_⟩
      simp only [argsOf, hshape, h]
      rintro rfl
      exact List.forall₂_nil_left_iff.mp hargs
    | _ =>
      have hatom : s.Atomic t := ⟨by simp [hshape, TypeShape.isArray], hplain, by simp [hshape]⟩
      obtain rfl := h.unique (hatom.rests _)
      exact ⟨hplain, rfl, congrArg _ hshape, id⟩

/-- A type is instantiated to another one, at a depth that reaches all of it. -/
def Instantiates (s : TypeStore) (σ : List (TypeId × TypeArg)) (t t' : TypeId) : Prop :=
  ∃ n, s.nestsWithin n t ∧ Rests (substWithin σ n t) s t'

end CallResolution.TypeStore
