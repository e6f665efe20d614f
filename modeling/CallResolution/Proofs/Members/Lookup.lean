import CallResolution.Proofs.Members.Signature
import CallResolution.Proofs.Types.Naming

/-!
# Names that are looked up

What a name denotes is decided by the first taken one of some qualified names.
`TypeStore.consulted` lists the qualified names that are tried until one is taken. A name
denotes in a later store what it denoted before, as long as no class was registered under one
of them.

Main statements: `Extends.lookupSimple` and `AddsNames.classNamed`.
-/

namespace CallResolution

namespace TypeStore

variable {s s' : TypeStore}

/-! ## Qualified names for a name

Which names the lookup tries, told beside the lookup itself.
-/

/-- The qualified names under which a simple name is looked up from inside a class, in order:
as a member of the class and of those around it, in the package, without a package, and in the
package that needs no import. -/
def candidates (s : TypeStore) (cls : TypeId) (name : String) : List String :=
  (s.enclosing cls).map (fun c => s.qualifiedName c ++ "." ++ name)
    ++ (if cls.isSome && s.packageOf cls ≠ "" then [s.packageOf cls ++ "." ++ name] else [])
    ++ [name, langPackage ++ "." ++ name]

/-- The type variable with a name of a class or of the classes around it. -/
def outerVariable? (s : TypeStore) (cls : TypeId) (name : String) : Option TypeId :=
  (s.enclosing cls).findSome? (s.classVariable? name)

/-- The first ones of some qualified names, up to one that is taken. Names behind that one are
not tried, so a class that is registered under them disturbs nothing. -/
def upToTaken (s : TypeStore) : List String → List String
  | [] => []
  | q :: qs => if (s.classNamed? q).isSome then [q] else q :: s.upToTaken qs

/-- The qualified names that are tried for a simple name. None is for a type variable, of the
callable or of a class. -/
def consultedSimple (s : TypeStore) (cls : TypeId) (own : List String) (name : String) : List String :=
  if name ∈ own ∨ (s.outerVariable? cls name).isSome then [] else s.upToTaken (s.candidates cls name)

/-- The qualified name that is tried for a member class of what the first part of a name
denotes. -/
def consultedMember (s : TypeStore) (cls : TypeId) (own : List String) (first : String) (rest : List String) : List String :=
  match s.lookupSimple? first { cls } with
  | some head =>
    if first ∉ own ∧ (s.shape head).isDeclared then [s.qualifiedName head ++ "." ++ ".".intercalate rest] else []
  | none => []

/-- The qualified names that are tried for a name, from inside a class and a callable with
type variables of its own. For a name with dots, the first part is looked up as a simple name,
and the rest as members of what it denotes. -/
def consulted (s : TypeStore) (cls : TypeId) (own : List String) (name : String) : List String :=
  match (name.toList.splitOn '.').map String.ofList with
  | [] | [_] => s.consultedSimple cls own name
  | first :: rest =>
    name :: if (s.classNamed? name).isSome then []
      else s.consultedSimple cls own first ++ s.consultedMember cls own first rest

/-- A simple name denotes a type variable, or the class with the first taken one of its
qualified names. -/
theorem lookupSimple?_eq (name : String) (sc : Scope) : s.lookupSimple? name sc =
    (sc.params.lookup name).or ((s.outerVariable? sc.cls name).or ((s.candidates sc.cls name).findSome? s.classNamed?)) := by
  have hpackage : (if sc.cls.isSome && s.packageOf sc.cls ≠ "" then [s.packageOf sc.cls ++ "." ++ name] else []).findSome?
      s.classNamed? = if sc.cls.isSome && s.packageOf sc.cls ≠ "" then s.classNamed? (s.packageOf sc.cls ++ "." ++ name)
        else none := by
    split <;> simp
  have hlast : [name, langPackage ++ "." ++ name].findSome? s.classNamed? =
      (s.classNamed? name).or (s.classNamed? (langPackage ++ "." ++ name)) := by
    simp only [List.findSome?_cons, List.findSome?_nil]
    cases s.classNamed? name <;> cases s.classNamed? (langPackage ++ "." ++ name) <;> rfl
  simp only [lookupSimple?, candidates, outerVariable?, Option.orElse_eq_orElse, Option.orElse_eq_or, List.findSome?_append,
    List.findSome?_map, hpackage, hlast, Option.or_assoc]
  rfl

/-! ## What names denote stays

Names are never taken away, so a lookup can only be disturbed by a new class under a name that
was tried and free.
-/

/-- The first taken one of some qualified names stays when those that were tried stand for
what they stood for. -/
theorem findSome?_classNamed (qs : List String) (h : ∀ q ∈ s.upToTaken qs, s'.classNamed? q = s.classNamed? q) :
    qs.findSome? s'.classNamed? = qs.findSome? s.classNamed? := by
  induction qs with
  | nil => rfl
  | cons q qs ih =>
    unfold upToTaken at h
    rw [List.findSome?_cons, List.findSome?_cons]
    cases hq : s.classNamed? q with
    | some t => simp [h q (by simp [hq]), hq]
    | none =>
      simp only [hq, Option.isSome_none, Bool.false_eq_true, if_false, List.mem_cons, forall_eq_or_imp] at h
      simp [h.1, ih h.2]

namespace Extends

variable (h : Extends s s') (hs : s.WellFormed) (hn : s.Nested)
include h hs hn

/-- The qualified names for a simple name stay. -/
theorem candidates {cls : TypeId} (hcls : s.Knows cls) (name : String) : s'.candidates cls name = s.candidates cls name := by
  have hmap : (s.enclosing cls).map (fun c => s'.qualifiedName c ++ "." ++ name) =
      (s.enclosing cls).map (fun c => s.qualifiedName c ++ "." ++ name) :=
    List.map_congr_left fun c hc => by rw [h.qualifiedName hs hn (hs.knows_enclosingChain _ hcls hc)]
  unfold TypeStore.candidates
  rw [h.enclosing hs hn hcls, h.packageOf hs hcls, hmap]

/-- The type variable with a name of a class or of the classes around it stays. -/
theorem outerVariable {cls : TypeId} (hcls : s.Knows cls) (name : String) :
    s'.outerVariable? cls name = s.outerVariable? cls name := by
  unfold outerVariable?
  rw [h.enclosing hs hn hcls]
  rw [← List.head?_filterMap, ← List.head?_filterMap]
  refine congrArg _ (List.filterMap_congr fun c hc => ?_)
  exact h.classVariable hs name (hs.knows_enclosingChain _ hcls hc)

/-- A simple name that is no type variable of the callable denotes what it denoted, as long as
the qualified names that were tried stand for what they stood for. -/
theorem lookupSimple {sc : Scope} (hcls : s.Knows sc.cls) {own : List String} {name : String}
    (hparam : sc.params.lookup name = none) (hown : name ∉ own)
    (hfree : ∀ q ∈ s.consultedSimple sc.cls own name, s'.classNamed? q = s.classNamed? q) :
    s'.lookupSimple? name sc = s.lookupSimple? name { cls := sc.cls } := by
  rw [lookupSimple?_eq, lookupSimple?_eq, hparam, h.outerVariable hs hn hcls, h.candidates hs hn hcls]
  cases hvar : s.outerVariable? sc.cls name with
  | some t => rfl
  | none =>
    have hsame : (s.candidates sc.cls name).findSome? s'.classNamed? = (s.candidates sc.cls name).findSome? s.classNamed? :=
      findSome?_classNamed _ (by simpa [consultedSimple, hown, hvar] using hfree)
    simpa using hsame

end Extends

/-- What a qualified name stands for stays, as long as no new class is registered under it. -/
theorem AddsNames.classNamed (h : s.AddsNames s') {q : String} (hfree : ∀ p ∈ s'.names, ¬ s.Knows p.2 → p.1 ≠ q) :
    s'.classNamed? q = s.classNamed? q := by
  obtain ⟨new, hnames, hnew⟩ := h
  unfold classNamed?
  rw [hnames, List.lookup_append]
  have hnone : new.lookup q = none := by
    refine List.lookup_eq_none_iff.mpr fun p hp => ?_
    have hmem : p ∈ s'.names := hnames ▸ List.mem_append_left _ hp
    simpa using (hfree p hmem (hnew p hp)).symm
  rw [hnone]
  rfl

end TypeStore

end CallResolution
