import CallResolution.Proofs.Members.Lookup
import CallResolution.Proofs.Types.Alike

/-!
# Signatures that are read twice

The text of a signature is read in two stores of which the later one has all of the earlier
one, and no class was registered meanwhile under a name that is looked up (`Outset.Free`).
Both readings go the same way: they fail with the same faults, and give alike types where they
do not fail.

A signature is processed when it is first needed, so its text may be read before or after
other calls were bound. The statements here compare the two, side by side and function by
function, in the order in which a text is read: names, type expressions, type variables with
their bounds, and the parts of a signature. What the readings make has other numbers, types
and type variables alike; `Alike` pairs them. A type variable of the text is paired with the
one at the same place in the other reading (`Own`), and a name is looked up among these first,
in both readings, so a class that is registered meanwhile matters for the other names only.

The condition is about names and not about classes: it is enough that no *new* class has a
name that is tried. The names that are tried for a simple name depend on the class in which it
stands, and a text is read in the same class both times.

Main statements: `resolveType_beside` for type expressions, and `ofText_beside` for whole
signatures.
-/

namespace CallResolution

open TypeStore
open List (Forall₂)

/-! ## Names in texts

The names that occur in a signature, read off its texts without reading types.
-/

mutual

/-- The names in a type expression. -/
def TypeExpr.names : TypeExpr → List String
  | .mk name args _ _ => name :: match args with
    | none => []
    | some as => argNames as

/-- The names in a type argument. -/
def TypeArgExpr.names : TypeArgExpr → List String
  | .exact t | .extends t | .super t => t.names
  | .unbounded => []

/-- The names in type arguments. -/
def argNames : List TypeArgExpr → List String
  | [] => []
  | a :: as => a.names ++ argNames as

end

theorem TypeExpr.mem_names (name : String) (args : Option (List TypeArgExpr)) (dims : Nat) (variadic : Bool) :
    name ∈ (TypeExpr.mk name args dims variadic).names := by
  unfold names
  exact List.mem_cons_self

theorem TypeExpr.mem_names_of_mem_args {n name : String} {as : List TypeArgExpr} (dims : Nat) (variadic : Bool)
    (h : n ∈ argNames as) : n ∈ (TypeExpr.mk name (some as) dims variadic).names := by
  simp [names, h]

/-- The names in the text of a type. A text that cannot be read has none: it is a fault in
both readings. -/
def namesOfText (src : String) : List String :=
  match TypeExpr.parse src with
  | .ok t => t.names
  | .error _ => []

/-- The names in the bounds of the declaration of a type parameter. -/
def namesOfParam (src : String) : List String :=
  match TypeExpr.parseParam src with
  | .ok decl => decl.bounds.flatMap TypeExpr.names
  | .error _ => []

/-- The type parameters that texts declare. -/
def declaredNames (srcs : List String) : List String :=
  srcs.filterMap fun src => (TypeExpr.parseParam src).toOption.map (·.name)

namespace SignatureText

/-- The names of the type variables that a signature declares. -/
def own (text : SignatureText) : List String :=
  declaredNames text.typeParams

/-- The names in a signature. -/
def names (text : SignatureText) : List String :=
  text.typeParams.flatMap namesOfParam ++ text.params.flatMap namesOfText ++ namesOfText text.returns
    ++ text.throws.flatMap namesOfText

end SignatureText

namespace Outset

variable {o : Outset} {p q : TypeStore × TypeStore} {cls : TypeId} {own : List String} {sc sc' : Scope}

/-! ## Names

How a name is looked up, on both sides.
-/

/-- No class was registered between two stores under a qualified name that is tried for a
name. The names that are tried are those up to the first one that is taken, so what is
registered behind that one does not matter. -/
def Free (o : Outset) (cls : TypeId) (own : List String) (name : String) : Prop :=
  ∀ n ∈ o.early.consulted cls own name, o.late.classNamed? n = o.early.classNamed? n

/-- Type variables of the text with the same place in it. -/
def Own (o : Outset) (p : TypeStore × TypeStore) (v w : TypeId) : Prop :=
  ∃ i, p.1.shape v = .typeVar (o.early.typeVars.size + i) ∧ p.2.shape w = .typeVar (o.late.typeVars.size + i)

theorem Own.alike {v w : TypeId} (h : o.Own p v w) : o.Alike p v w := by
  obtain ⟨i, hv, hw⟩ := h
  exact .own hv hw

theorem Own.grows {v w : TypeId} (h : o.Own p v w) (hleft : p.1.Grows q.1) (hright : p.2.Grows q.2) : o.Own q v w := by
  obtain ⟨i, hv, hw⟩ := h
  exact ⟨i, hleft.shape_eq hv (by simp), hright.shape_eq hw (by simp)⟩

/-- Two scopes in a class with the same type variables, of the given names. -/
structure Scopes (o : Outset) (p : TypeStore × TypeStore) (cls : TypeId) (own : List String) (sc sc' : Scope) : Prop where
  /-- The first store knows the class. -/
  known : o.early.Knows cls
  /-- It is the class of the first scope. -/
  left : sc.cls = cls
  /-- It is the class of the second scope. -/
  right : sc'.cls = cls
  /-- The type variables have the given names. -/
  own : ∀ name, name ∈ own ↔ name ∈ sc.params.map (·.1)
  /-- The type variables are paired. -/
  params : Forall₂ (fun x y => x.1 = y.1 ∧ o.Own p x.2 y.2) sc.params sc'.params

theorem Scopes.grows (h : o.Scopes p cls own sc sc') (hleft : p.1.Grows q.1) (hright : p.2.Grows q.2) :
    o.Scopes q cls own sc sc' :=
  ⟨h.known, h.left, h.right, h.own, h.params.imp fun _ _ hxy => ⟨hxy.1, hxy.2.grows hleft hright⟩⟩

/-- What two association lists with the same keys have under a key. -/
theorem lookup_forall₂ {α β : Type} {R : α → β → Prop} {l : List (String × α)} {l' : List (String × β)}
    (h : Forall₂ (fun x y => x.1 = y.1 ∧ R x.2 y.2) l l') (k : String) :
    (∃ a b, l.lookup k = some a ∧ l'.lookup k = some b ∧ R a b ∧ k ∈ l.map (·.1)) ∨
    (l.lookup k = none ∧ l'.lookup k = none ∧ k ∉ l.map (·.1)) := by
  induction h with
  | nil => exact .inr (by simp)
  | @cons x y l l' hxy _ ih =>
    obtain ⟨n, a⟩ := x
    obtain ⟨m, b⟩ := y
    obtain ⟨rfl, hab⟩ : n = m ∧ R a b := hxy
    by_cases hk : k = n
    · subst hk
      exact .inl ⟨a, b, by simp, by simp, hab, by simp⟩
    · have hk' : (k == n) = false := by simpa using hk
      simpa [List.lookup_cons, hk, hk'] using ih

/-- A simple name is a type variable of the text, or denotes in both stores what it denotes in
the first one. -/
theorem Scopes.lookupSimple (hsc : o.Scopes p cls own sc sc') (hp : o.Parallel p) (name : String)
    (hfree : ∀ n ∈ o.early.consultedSimple cls own name, o.late.classNamed? n = o.early.classNamed? n) :
    (∃ v w, p.1.lookupSimple? name sc = some v ∧ p.2.lookupSimple? name sc' = some w ∧ o.Own p v w ∧ name ∈ own) ∨
    (p.1.lookupSimple? name sc = o.early.lookupSimple? name { cls } ∧
      p.2.lookupSimple? name sc' = o.early.lookupSimple? name { cls } ∧ name ∉ own) := by
  rcases lookup_forall₂ hsc.params name with ⟨v, w, hv, hw, hown, hmem⟩ | ⟨hv, hw, hnot⟩
  · exact .inl ⟨v, w, by simp [lookupSimple?_eq, hv], by simp [lookupSimple?_eq, hw], hown, (hsc.own name).mpr hmem⟩
  · have hown : name ∉ own := fun h => hnot ((hsc.own name).mp h)
    refine .inr ⟨?_, ?_, hown⟩
    · have hcls := hsc.left
      subst hcls
      exact hp.leftExtends.lookupSimple o.wellFormed o.nested hsc.known hv hown fun n _ => hp.leftClass n
    · have hcls := hsc.right
      subst hcls
      refine hp.rightExtends.lookupSimple o.wellFormed o.nested hsc.known hw hown fun n hn => ?_
      rw [hp.rightClass, hfree n hn]

/-- What a name denotes in both stores is alike. A type variable of the text is found first on
both sides; any other name is tried among the classes, and these are the same as long as no
new one came before. -/
theorem Scopes.lookupName (hsc : o.Scopes p cls own sc sc') (hp : o.Parallel p) {name : String} (hfree : o.Free cls own name) :
    Option.Rel (o.Alike p) (p.1.lookupName? name sc) (p.2.lookupName? name sc') := by
  have simple {name : String}
      (hfree : ∀ n ∈ o.early.consultedSimple cls own name, o.late.classNamed? n = o.early.classNamed? n) :
      Option.Rel (o.Alike p) (p.1.lookupSimple? name sc) (p.2.lookupSimple? name sc') := by
    rcases hsc.lookupSimple hp name hfree with ⟨v, w, hv, hw, hown, -⟩ | ⟨hv, hw, -⟩
    · rw [hv, hw]
      exact .some hown.alike
    · rw [hv, hw]
      cases hfound : o.early.lookupSimple? name { cls } with
      | none => exact .none
      | some t => exact .some (.common (o.wellFormed.isBound_lookupSimple (by simp [KnowsScope]) hfound).knows)
  have named {n : String} (hn : o.late.classNamed? n = o.early.classNamed? n) :
      Option.Rel (o.Alike p) (p.1.classNamed? n) (p.2.classNamed? n) := by
    rw [hp.leftClass, hp.rightClass, hn]
    cases hfound : o.early.classNamed? n with
    | none => exact .none
    | some t => exact .some (.common (knows_of_isDeclared (o.wellFormed.isDeclared_of_classNamed hfound)))
  unfold Free consulted at hfree
  unfold lookupName?
  generalize (name.toList.splitOn '.').map String.ofList = parts at hfree
  rcases parts with _ | ⟨first, _ | ⟨second, rest⟩⟩
  · exact simple hfree
  · exact simple hfree
  · rw [hp.leftClass, hp.rightClass, hfree name (by simp)]
    cases hfound : o.early.classNamed? name with
    | some t => exact .some (.common (knows_of_isDeclared (o.wellFormed.isDeclared_of_classNamed hfound)))
    | none =>
      simp only [hfound, Option.isSome_none, Bool.false_eq_true, if_false] at hfree
      rcases hsc.lookupSimple hp first fun n hn => hfree n (by simp [hn]) with
        ⟨v, w, hv, hw, ⟨i, hv', hw'⟩, -⟩ | ⟨hv, hw, hown⟩
      · -- A type variable has no member classes.
        simp only [hv, hw, Option.bind_eq_bind, Option.bind_some, hv', hw', TypeShape.isDeclared, Bool.false_eq_true, if_false]
        exact .none
      · dsimp only
        rw [hv, hw]
        cases hhead : o.early.lookupSimple? first { cls } with
        | none => exact .none
        | some head =>
          have hknown := (o.wellFormed.isBound_lookupSimple (by simp [KnowsScope]) hhead).knows
          obtain ⟨hleft, hright⟩ := hp.shape_common hknown
          simp only [Option.bind_eq_bind, Option.bind_some, hleft, hright]
          split
          · rename_i hdecl
            rw [hp.leftExtends.qualifiedName o.wellFormed o.nested hknown,
              hp.rightExtends.qualifiedName o.wellFormed o.nested hknown]
            exact named (hfree _ (by simp [consultedMember, hhead, hown, hdecl]))
          · exact .none

/-! ## Type expressions

The readings of an expression take the same branches, since what they branch on is the same
for alike types: whether a name denotes anything, how many arguments a type takes, whether it
is an array.
-/

/-- The names of a type expression denote alike types. -/
theorem resolveName_beside (hsc : o.Scopes p cls own sc sc') {name : String} (hfree : o.Free cls own name) :
    TriesBoth o.pairs (resolveName sc name) (resolveName sc' name) p fun t u q => o.Alike q t u := by
  refine TriesBoth.of_sound fun hp => ?_
  unfold resolveName
  cases hprimitive : primitiveNamed? name with
  | some t => exact TriesBoth.ret (.common (o.wellFormed.denotes_primitiveNamed hprimitive).knows)
  | none =>
    refine TriesBoth.read ?_
    have hrel := hsc.lookupName hp hfree
    generalize p.1.lookupName? name sc = x, p.2.lookupName? name sc' = y at hrel
    cases hrel with
    | some halike => exact TriesBoth.ret halike
    | none => exact TriesBoth.throw _

/-- What is wrong with a number of arguments for a type. -/
def argsFault? (s : TypeStore) (name : String) (base : TypeId) (count : Nat) : Option TypeFault :=
  match s.classInfo? base with
  | some info =>
    if (s.shape base).isDeclared then
      if info.typeParams.length = count then none
      else some (.argCount (s.qualifiedName base) info.typeParams.length count)
    else some (.notGeneric name)
  | none => some (.notGeneric name)

/-- Checking arguments changes nothing. -/
theorem checkArgs_run (s : TypeStore) (name : String) (base : TypeId) (count : Nat) :
    (checkArgs name base count).run s = ((argsFault? s name base count).elim (.ok ()) .error, s) := by
  unfold checkArgs argsFault?
  rw [run_read]
  cases s.classInfo? base with
  | none => rfl
  | some info =>
    by_cases hdecl : (s.shape base).isDeclared
    · by_cases hcount : info.typeParams.length = count
      · simp [hdecl, hcount, pure_apply]
      · simp [hdecl, hcount, pure_apply]
    · simp [hdecl, pure_apply]

/-- Alike types take the same numbers of arguments. -/
theorem argsFault?_alike {t u : TypeId} (ht : o.Alike p t u) (hp : o.Parallel p) (name : String) (count : Nat) :
    argsFault? p.1 name t count = argsFault? p.2 name u count := by
  have notGeneric {s : TypeStore} {c : TypeId} (h : (s.shape c).isDeclared = false) :
      argsFault? s name c count = some (.notGeneric name) := by
    unfold argsFault?
    rw [h]
    cases s.classInfo? c <;> rfl
  rcases ht.declared_or with ⟨rfl, hknown⟩ | ⟨hleft, hright⟩
  · obtain ⟨hleft, hright⟩ := hp.shape_common hknown
    unfold argsFault?
    rw [hp.leftExtends.classInfo o.wellFormed hknown, hp.rightExtends.classInfo o.wellFormed hknown,
      hp.leftExtends.qualifiedName o.wellFormed o.nested hknown, hp.rightExtends.qualifiedName o.wellFormed o.nested hknown,
      hleft, hright]
  · rw [notGeneric hleft, notGeneric hright]

/-- What takes arguments is a class of the first store, which is the same on both sides. -/
theorem eq_of_argsFault? {t u : TypeId} (ht : o.Alike p t u) (hp : o.Parallel p) {name : String} {count : Nat}
    (h : argsFault? p.1 name t count = none) : u = t ∧ o.early.Knows t ∧ (o.early.shape t).isDeclared := by
  have hdecl : (p.1.shape t).isDeclared := by
    by_contra hnot
    unfold argsFault? at h
    cases hinfo : p.1.classInfo? t <;> simp [hinfo, hnot] at h
  rcases ht.declared_or with ⟨rfl, hknown⟩ | ⟨hnot, -⟩
  · rw [(hp.shape_common hknown).1] at hdecl
    exact ⟨rfl, hknown, hdecl⟩
  · simp [hdecl] at hnot

/-- Checking the arguments of alike types gives the same. -/
theorem checkArgs_beside {t u : TypeId} (ht : o.Alike p t u) (name : String) (count : Nat) :
    TriesBoth o.pairs (checkArgs name t count) (checkArgs name u count) p fun _ _ q =>
      q = p ∧ u = t ∧ o.early.Knows t ∧ (o.early.shape t).isDeclared := by
  intro hp
  simp only [beside, checkArgs_run]
  refine ⟨o.pairs.refl p, ?_⟩
  rw [← argsFault?_alike ht hp]
  cases hfault : argsFault? p.1 name t count with
  | none => exact ⟨trivial, eq_of_argsFault? ht hp hfault⟩
  | some f => rfl

/-- A type argument with alike bounds. -/
theorem boundedArg_beside (w : Wildcard) (e : TypeExpr) {t u : TypeId} (ht : o.Alike p t u) :
    TriesBoth o.pairs (boundedArg w e t) (boundedArg w e u) p fun a a' q => o.AlikeArgs q a a' := by
  refine TriesBoth.of_sound fun hp => TriesBoth.read ?_
  rw [ht.isReference hp]
  split
  · exact TriesBoth.ret ⟨rfl, ht⟩
  · exact TriesBoth.throw _

mutual

/-- A type expression denotes alike types. By recursion on the expression: its name denotes
alike types, these take the same numbers of arguments, and arrays and parameterized types of
alike types are alike. -/
theorem resolveType_beside {p : TypeStore × TypeStore} (hsc : o.Scopes p cls own sc sc') : (e : TypeExpr) →
    (∀ name ∈ e.names, o.Free cls own name) →
    TriesBoth o.pairs (resolveType sc e) (resolveType sc' e) p fun t u q => o.Alike q t u
  | .mk name args dims variadic => by
    intro hfree
    have dimensions {n : Nat} {t u : TypeId} {q : TypeStore × TypeStore} (ht : o.Alike q t u) :
        TriesBoth o.pairs (if 0 < n then liftM (array t n.toUInt32) else pure t)
          (if 0 < n then liftM (array u n.toUInt32) else pure u : ExceptT TypeFault TypeM TypeId) q
          fun t u q => o.Alike q t u := by
      split
      · exact TriesBoth.lifted (array_beside ht _)
      · exact TriesBoth.ret ht
    unfold resolveType
    dsimp only
    refine TriesBoth.ite (fun _ => (TriesBoth.throw _).stop) fun _ => ?_
    refine TriesBoth.ite (fun _ => (TriesBoth.throw _).stop) fun _ => ?_
    refine (resolveName_beside hsc (hfree name (TypeExpr.mem_names name args dims variadic))).bind fun t u q hq hl ht => ?_
    cases args with
    | none =>
      simp only [pure_bind]
      exact dimensions ht
    | some as =>
      refine (checkArgs_beside ht name as.length).bind fun _ _ q' _ _ h => ?_
      obtain ⟨rfl, rfl, hknown, hdecl⟩ := h
      refine (resolveArgs_beside (hsc.grows hl.2.1 hl.2.2) as fun n hn => hfree n (TypeExpr.mem_names_of_mem_args _ _ hn)).bind
        fun as' as'' q' _ _ has => ?_
      exact (TriesBoth.lifted (apply_beside hknown hdecl has)).bind fun t u q _ _ ht => dimensions ht

/-- Type arguments denote alike ones. -/
theorem resolveArgs_beside {p : TypeStore × TypeStore} (hsc : o.Scopes p cls own sc sc') : (as : List TypeArgExpr) →
    (∀ name ∈ argNames as, o.Free cls own name) →
    TriesBoth o.pairs (resolveArgs sc as) (resolveArgs sc' as) p fun as as' q => Forall₂ (o.AlikeArgs q) as as'
  | [] => by
    intro _
    unfold resolveArgs
    exact TriesBoth.ret .nil
  | a :: as => by
    intro hfree
    unfold resolveArgs
    refine (resolveArg_beside hsc a fun n hn => hfree n (by simp [argNames, hn])).bind fun x y q _ hl hxy => ?_
    refine (resolveArgs_beside (hsc.grows hl.2.1 hl.2.2) as fun n hn => hfree n (by simp [argNames, hn])).bind
      fun xs ys q' _ hl' hxys => TriesBoth.ret ?_
    exact .cons (hxy.grows hl'.2.1 hl'.2.2) hxys

/-- A type argument denotes alike ones. -/
theorem resolveArg_beside {p : TypeStore × TypeStore} (hsc : o.Scopes p cls own sc sc') : (a : TypeArgExpr) →
    (∀ name ∈ a.names, o.Free cls own name) →
    TriesBoth o.pairs (resolveArg sc a) (resolveArg sc' a) p fun a a' q => o.AlikeArgs q a a'
  | .unbounded => by
    intro _
    unfold resolveArg
    exact TriesBoth.ret ⟨rfl, .common o.wellFormed.knows_none⟩
  | .exact t => by
    intro hfree
    unfold resolveArg
    exact (resolveType_beside hsc t hfree).bind fun _ _ _ _ _ hb => boundedArg_beside .none t hb
  | .extends t => by
    intro hfree
    unfold resolveArg
    exact (resolveType_beside hsc t hfree).bind fun _ _ _ _ _ hb => boundedArg_beside .extends t hb
  | .super t => by
    intro hfree
    unfold resolveArg
    exact (resolveType_beside hsc t hfree).bind fun _ _ _ _ _ hb => boundedArg_beside .super t hb

end

/-- A text denotes alike types. -/
theorem typeOfText_beside (hsc : o.Scopes p cls own sc sc') {src : String}
    (hfree : ∀ name ∈ namesOfText src, o.Free cls own name) :
    TriesBoth o.pairs (typeOfText sc src) (typeOfText sc' src) p fun t u q => o.Alike q t u := by
  unfold typeOfText
  unfold namesOfText at hfree
  cases hparse : TypeExpr.parse src with
  | error f => exact TriesBoth.throw _
  | ok e =>
    rw [hparse] at hfree
    exact resolveType_beside hsc e hfree

/-! ## Type variables

Type variables are made in the order of the text, so those at the same place are partners.
-/

/-- Two type variables of the same name are paired. -/
theorem registerVariable_beside {v w : TypeVariable} (hname : v.name = w.name) (hv : v.bounds = []) (hw : w.bounds = []) :
    Works o.pairs (beside (registerVariable v) (registerVariable w)) p fun r q => o.Own q r.1 r.2 := by
  intro hp
  have hcount := hp.count
  obtain ⟨k, hk⟩ : ∃ k, p.1.typeVars.size = o.early.typeVars.size + k :=
    ⟨_, (Nat.add_sub_cancel' hp.leftSound.2.2).symm⟩
  have hk' : p.2.typeVars.size = o.late.typeVars.size + k := by omega
  have hleft : TypeStore.Step o.wellFormed.reading p.1 (registerVariable v p.1).2 := .fresh hv
  have hright : TypeStore.Step o.wellFormed_late.reading p.2 (registerVariable w p.2).2 := .fresh hw
  refine ⟨⟨fun _ => ⟨hp.left.tail hleft, hp.right.tail hright, hp.leftNames, hp.rightNames, ?_, fun i x y hx hy => ?_⟩,
    hleft.grows, hright.grows⟩, k, ?_, ?_⟩
  · simp only [beside, registerVariable_eq, Array.size_push]
    omega
  · change (p.1.typeVars.push v)[_]? = some x at hx
    change (p.2.typeVars.push w)[_]? = some y at hy
    rcases getElem?_push_cases hx with hx | ⟨hi, rfl⟩
    · rcases getElem?_push_cases hy with hy | ⟨hj, rfl⟩
      · obtain ⟨hnames, hbounds⟩ := hp.vars i x y hx hy
        exact ⟨hnames, hbounds.imp fun _ _ hb => hb.grows hleft.grows hright.grows⟩
      · have := (Array.getElem?_eq_some_iff.mp hx).1
        omega
    · rcases getElem?_push_cases hy with hy | ⟨hj, rfl⟩
      · have := (Array.getElem?_eq_some_iff.mp hy).1
        omega
      · exact ⟨hname, by rw [hv, hw]; exact .nil⟩
  · rw [← hk]
    exact shape_push hp.leftSound.1.pos rfl
  · rw [← hk']
    exact shape_push hp.rightSound.1.pos rfl

/-- Alike bounds of paired type variables are set. -/
theorem setBounds_beside {v w : TypeId} (hown : o.Own p v w) {bs bs' : List TypeId} (hbs : Forall₂ (o.Alike p) bs bs')
    (hdenotes : ∀ b ∈ bs, p.1.Denotes b) (hdenotes' : ∀ b ∈ bs', p.2.Denotes b) :
    Works o.pairs (beside (modify (·.setBounds v bs)) (modify (·.setBounds w bs'))) p fun _ _ => True := by
  obtain ⟨i, hv, hw⟩ := hown
  intro hp
  have hleft : TypeStore.Step o.wellFormed.reading p.1 (p.1.setBounds v bs) := .bounds hv (Nat.le_add_right _ _) hdenotes (.inl trivial)
  have hright : TypeStore.Step o.wellFormed_late.reading p.2 (p.2.setBounds w bs') := .bounds hw (Nat.le_add_right _ _) hdenotes' (.inl trivial)
  have heq : p.1.setBounds v bs =
      { p.1 with typeVars := p.1.typeVars.modify (o.early.typeVars.size + i) ({ · with bounds := bs }) } := by
    simp only [TypeStore.setBounds, hv]
  have heq' : p.2.setBounds w bs' =
      { p.2 with typeVars := p.2.typeVars.modify (o.late.typeVars.size + i) ({ · with bounds := bs' }) } := by
    simp only [TypeStore.setBounds, hw]
  refine ⟨⟨fun _ => ⟨hp.left.tail hleft, hp.right.tail hright, ?_, ?_, ?_, fun j x y hx hy => ?_⟩, hleft.grows, hright.grows⟩,
    trivial⟩
  · exact (congrArg TypeStore.names heq).trans hp.leftNames
  · exact (congrArg TypeStore.names heq').trans hp.rightNames
  · show (p.1.setBounds v bs).typeVars.size + _ = (p.2.setBounds w bs').typeVars.size + _
    rw [heq, heq', Array.size_modify, Array.size_modify]
    exact hp.count
  · have grown {c c' : TypeId} (hc : o.Alike p c c') : o.Alike (p.1.setBounds v bs, p.2.setBounds w bs') c c' :=
      hc.grows hleft.grows hright.grows
    change (p.1.setBounds v bs).typeVars[_]? = some x at hx
    change (p.2.setBounds w bs').typeVars[_]? = some y at hy
    rw [heq, Array.getElem?_modify] at hx
    rw [heq', Array.getElem?_modify] at hy
    by_cases hij : i = j
    · subst hij
      rw [if_pos rfl] at hx hy
      obtain ⟨x', hx', rfl⟩ := Option.map_eq_some_iff.mp hx
      obtain ⟨y', hy', rfl⟩ := Option.map_eq_some_iff.mp hy
      exact ⟨(hp.vars i x' y' hx' hy').1, hbs.imp fun _ _ => grown⟩
    · rw [if_neg (by omega)] at hx hy
      obtain ⟨hnames, hbounds⟩ := hp.vars j x y hx hy
      exact ⟨hnames, hbounds.imp fun _ _ => grown⟩

/-! ## Signatures

A signature is read in parts, each of which adds to a draft. `Drafts` is what both drafts have
in common after each part.
-/

/-- Two signatures that are being processed: the same faults so far, and alike types. -/
structure Drafts (o : Outset) (p : TypeStore × TypeStore) (cls : TypeId) (own : List String) (d d' : SignatureDraft) : Prop where
  /-- The faults are the same. -/
  faults : d.faults = d'.faults
  /-- The scopes have the same type variables. -/
  scope : o.Scopes p cls own d.scope d'.scope
  /-- The type variables are paired and have the same declarations. -/
  typeVars : Forall₂ (fun x y => x.2 = y.2 ∧ o.Own p x.1 y.1) d.typeVars d'.typeVars
  /-- The parameter types are alike. -/
  params : Forall₂ (o.Alike p) d.params d'.params
  /-- The result types are alike. -/
  returns : o.Alike p d.returns d'.returns
  /-- The exceptions are alike. -/
  throws : Forall₂ (o.Alike p) d.throws d'.throws

namespace Drafts

variable {d d' : SignatureDraft}

theorem grows (h : o.Drafts p cls own d d') (hleft : p.1.Grows q.1) (hright : p.2.Grows q.2) : o.Drafts q cls own d d' where
  faults := h.faults
  scope := h.scope.grows hleft hright
  typeVars := h.typeVars.imp fun _ _ hv => ⟨hv.1, hv.2.grows hleft hright⟩
  params := h.params.imp fun _ _ ht => ht.grows hleft hright
  returns := h.returns.grows hleft hright
  throws := h.throws.imp fun _ _ ht => ht.grows hleft hright

/-- The same fault is met on both sides. -/
theorem fault (h : o.Drafts p cls own d d') (src : String) (f : SignatureFault) :
    o.Drafts p cls own (d.fault src f) (d'.fault src f) :=
  ⟨congrArg (· ++ [(src, f)]) h.faults, h.scope, h.typeVars, h.params, h.returns, h.throws⟩

/-- The names of the type variables matter as a set. -/
theorem of_own (h : o.Drafts p cls own d d') {own' : List String} (hown : ∀ name, name ∈ own' ↔ name ∈ own) :
    o.Drafts p cls own' d d' :=
  ⟨h.faults, ⟨h.scope.known, h.scope.left, h.scope.right, fun name => (hown name).trans (h.scope.own name), h.scope.params⟩,
    h.typeVars, h.params, h.returns, h.throws⟩

/-- Each element of the first of two related lists. -/
theorem forall_left {α β : Type} {R : α → β → Prop} {l : List α} {l' : List β} (h : Forall₂ R l l') {P : α → Prop}
    (hP : ∀ a b, R a b → P a) : ∀ a ∈ l, P a := by
  induction h with
  | nil => simp
  | cons hab _ ih => simpa using ⟨hP _ _ hab, ih⟩

/-- Each element of the second of two related lists. -/
theorem forall_right {α β : Type} {R : α → β → Prop} {l : List α} {l' : List β} (h : Forall₂ R l l') {P : β → Prop}
    (hP : ∀ a b, R a b → P b) : ∀ b ∈ l', P b :=
  forall_left h.flip fun b a hab => hP a b hab

/-- The first store knows the scope of the first draft. -/
theorem leftScope (h : o.Drafts p cls own d d') : p.1.KnowsScope d.scope :=
  forall_left h.scope.params fun x y ⟨_, i, hx, _⟩ => by rw [hx]; rfl

/-- The second store knows the scope of the second draft. -/
theorem rightScope (h : o.Drafts p cls own d d') : p.2.KnowsScope d'.scope :=
  forall_right h.scope.params fun x y ⟨_, i, _, hy⟩ => by rw [hy]; rfl

end Drafts

end Outset

namespace SignatureDraft

open Outset

variable {o : Outset} {p q : TypeStore × TypeStore} {cls : TypeId} {own : List String} {d d' : SignatureDraft}

/-- The same type variable is declared on both sides. -/
theorem declareVariable_beside (hd : o.Drafts p cls own d d') (method : MethodId) (src : String) (index : Nat) :
    Works o.pairs (beside (d.declareVariable method src index) (d'.declareVariable method src index)) p fun r q =>
      o.Drafts q cls (declaredNames [src] ++ own) r.1 r.2 ∧
        ∀ x ∈ r.1.typeVars, x ∈ d.typeVars ∨ TypeExpr.parseParam src = .ok x.2 := by
  unfold declareVariable declaredNames
  cases hparse : TypeExpr.parseParam src with
  | error f =>
    refine Works.beside_ret ⟨?_, fun x hx => .inl hx⟩
    simpa [hparse, Except.toOption] using hd.fault src (.type (.malformed src f))
  | ok decl =>
    refine Works.beside_bind (registerVariable_beside ?_ ?_ ?_) fun v w q _ hl hown =>
      Works.beside_ret ⟨?_, fun x hx => ?_⟩
    · rfl
    · rfl
    · rfl
    · have hd' := hd.grows hl.2.1 hl.2.2
      refine ⟨hd'.faults, ⟨hd'.scope.known, hd'.scope.left, hd'.scope.right, fun name => ?_, ?_⟩, ?_, hd'.params, hd'.returns,
        hd'.throws⟩
      · have := hd'.scope.own name
        simp [hparse, Except.toOption, this]
      · exact .cons ⟨rfl, hown⟩ hd'.scope.params
      · exact List.rel_append hd'.typeVars (.cons ⟨rfl, hown⟩ .nil)
    · rcases List.mem_append.mp hx with hx | hx
      · exact .inl hx
      · rw [List.mem_singleton.mp hx]
        exact .inr rfl

/-- The same type variables are declared on both sides. -/
theorem declareVariables_beside (hd : o.Drafts p cls own d d') (method : MethodId) (index : Nat) (srcs : List String)
    (good : TypeParamExpr → Prop) (hgood : ∀ x ∈ d.typeVars, good x.2)
    (hsrcs : ∀ src ∈ srcs, ∀ decl, TypeExpr.parseParam src = .ok decl → good decl) :
    Works o.pairs (beside (declareVariables method d index srcs) (declareVariables method d' index srcs)) p fun r q =>
      o.Drafts q cls (declaredNames srcs ++ own) r.1 r.2 ∧ ∀ x ∈ r.1.typeVars, good x.2 := by
  induction srcs generalizing p d d' own index with
  | nil => exact Works.beside_ret ⟨hd, hgood⟩
  | cons src rest ih =>
    refine (declareVariable_beside hd method src index).beside_bind fun e e' q _ _ h => ?_
    obtain ⟨hdrafts, hvars⟩ := h
    refine (ih hdrafts (index + 1) (fun x hx => ?_) fun src' hsrc' => hsrcs src' (by simp [hsrc'])).mono
      fun r q' _ _ h' => ⟨h'.1.of_own fun name => ?_, h'.2⟩
    · rcases hvars x hx with hx | hx
      · exact hgood x hx
      · exact hsrcs src (by simp) x.2 hx
    · have hcons : declaredNames (src :: rest) = declaredNames [src] ++ declaredNames rest :=
        List.filterMap_append (l := [src])
      simp only [hcons, List.mem_append, or_assoc, or_left_comm]

/-- The bounds of a type variable are alike. -/
theorem resolveBounds_beside (hd : o.Drafts p cls own d d') (bs : List TypeExpr)
    (hfree : ∀ b ∈ bs, ∀ name ∈ b.names, o.Free cls own name) :
    Works o.pairs (beside (d.resolveBounds bs) (d'.resolveBounds bs)) p fun r q =>
      Forall₂ (o.Alike q) r.1.1 r.2.1 ∧ o.Drafts q cls own r.1.2 r.2.2 := by
  induction bs generalizing p d d' with
  | nil => exact Works.beside_ret ⟨.nil, hd⟩
  | cons b bs ih =>
    unfold resolveBounds
    have hrest : ∀ b ∈ bs, ∀ name ∈ b.names, o.Free cls own name := fun c hc => hfree c (by simp [hc])
    refine (resolveType_beside hd.scope b (hfree b (by simp))).handle (fun t u q _ hl ht => ?_) fun f q _ hl => ?_
    · refine (ih (hd.grows hl.2.1 hl.2.2) hrest).beside_bind fun r r' q' _ hl' h => Works.beside_ret ⟨?_, h.2⟩
      exact .cons (ht.grows hl'.2.1 hl'.2.2) h.1
    · exact ih ((hd.grows hl.2.1 hl.2.2).fault _ _) hrest

/-- The bounds of the type variables are set to alike types. All type variables of the text
are declared before, so a bound may name any of them, and denotes the partner of what it
denotes on the other side. -/
theorem setBounds_beside (hd : o.Drafts p cls own d d') (vs vs' : List (TypeId × TypeParamExpr))
    (hvs : Forall₂ (fun x y => x.2 = y.2 ∧ o.Own p x.1 y.1) vs vs')
    (hfree : ∀ x ∈ vs, ∀ b ∈ x.2.bounds, ∀ name ∈ b.names, o.Free cls own name) :
    Works o.pairs (beside (d.setBounds vs) (d'.setBounds vs')) p fun r q => o.Drafts q cls own r.1 r.2 := by
  induction vs generalizing p d d' vs' with
  | nil =>
    cases hvs
    exact Works.beside_ret hd
  | cons v vs ih =>
    cases hvs with
    | @cons _ w _ vs' hvw hvs =>
      obtain ⟨v, decl⟩ := v
      obtain ⟨w, decl'⟩ := w
      obtain ⟨rfl, hown⟩ : decl = decl' ∧ o.Own p v w := hvw
      unfold setBounds
      have hbounds := resolveBounds_beside hd decl.bounds (hfree (v, decl) (by simp))
      refine (hbounds.sides (resolveBounds_works hd.leftScope _) (resolveBounds_works hd.rightScope _)).beside_bind
        fun r r' q _ hl h => ?_
      obtain ⟨⟨hbs, hd₁⟩, ⟨hdenotes, -⟩, hdenotes', -⟩ := h
      refine (Outset.setBounds_beside (hown.grows hl.2.1 hl.2.2) hbs hdenotes hdenotes').beside_bind fun _ _ q' _ hl' _ => ?_
      refine ih (hd₁.grows hl'.2.1 hl'.2.2) _ (hvs.imp fun x y hxy => ⟨hxy.1, ?_⟩) fun x hx => hfree x (by simp [hx])
      exact (hxy.2.grows hl.2.1 hl.2.2).grows hl'.2.1 hl'.2.2

/-- A parameter type is processed. -/
theorem addParam_beside (hd : o.Drafts p cls own d d') {src : String} (isLast : Bool)
    (hfree : ∀ name ∈ namesOfText src, o.Free cls own name) :
    Works o.pairs (beside (d.addParam src isLast) (d'.addParam src isLast)) p fun r q => o.Drafts q cls own r.1 r.2 := by
  unfold addParam
  unfold namesOfText at hfree
  cases hparse : TypeExpr.parse src with
  | error f => exact Works.beside_ret (hd.fault _ _)
  | ok e =>
    rw [hparse] at hfree
    dsimp only
    split
    · exact Works.beside_ret (hd.fault _ _)
    · refine (resolveType_beside hd.scope e hfree).handle (fun t u q hq hl ht => ?_) fun f q _ hl => ?_
      · have hd₁ := hd.grows hl.2.1 hl.2.2
        have hvoid : t = .void ↔ u = .void := by
          refine ht.eq_iff hq (o.wellFormed.knows_predefined (by decide)) ?_
          rw [o.wellFormed.shape_void]
          rfl
        by_cases h : t = .void
        · simp only [if_pos h, if_pos (hvoid.mp h)]
          exact Works.beside_ret (hd₁.fault _ _)
        · simp only [if_neg h, if_neg fun hu => h (hvoid.mpr hu)]
          exact Works.beside_ret ⟨hd₁.faults, hd₁.scope, hd₁.typeVars, List.rel_append hd₁.params (.cons ht .nil), hd₁.returns,
            hd₁.throws⟩
      · exact Works.beside_ret ((hd.grows hl.2.1 hl.2.2).fault _ _)

/-- The parameter types are processed. -/
theorem addParams_beside (hd : o.Drafts p cls own d d') (srcs : List String)
    (hfree : ∀ src ∈ srcs, ∀ name ∈ namesOfText src, o.Free cls own name) :
    Works o.pairs (beside (d.addParams srcs) (d'.addParams srcs)) p fun r q => o.Drafts q cls own r.1 r.2 := by
  induction srcs generalizing p d d' with
  | nil => exact Works.beside_ret hd
  | cons src rest ih =>
    refine (addParam_beside hd rest.isEmpty (hfree src (by simp))).beside_bind fun e e' q _ _ hd₁ => ?_
    exact ih hd₁ fun src' hsrc' => hfree src' (by simp [hsrc'])

/-- The result type is processed. -/
theorem setReturns_beside (hd : o.Drafts p cls own d d') (kind : CallableKind) {src : String}
    (hfree : ∀ name ∈ namesOfText src, o.Free cls own name) :
    Works o.pairs (beside (d.setReturns kind src) (d'.setReturns kind src)) p fun r q => o.Drafts q cls own r.1 r.2 := by
  unfold setReturns
  split
  · exact Works.beside_ret hd
  · refine (typeOfText_beside hd.scope hfree).handle (fun t u q _ hl ht => ?_) fun f q _ hl => ?_
    · have hd₁ := hd.grows hl.2.1 hl.2.2
      exact Works.beside_ret ⟨hd₁.faults, hd₁.scope, hd₁.typeVars, hd₁.params, ht, hd₁.throws⟩
    · exact Works.beside_ret ((hd.grows hl.2.1 hl.2.2).fault _ _)

/-- An exception is processed. -/
theorem addThrown_beside (hd : o.Drafts p cls own d d') {src : String}
    (hfree : ∀ name ∈ namesOfText src, o.Free cls own name) :
    Works o.pairs (beside (d.addThrown src) (d'.addThrown src)) p fun r q => o.Drafts q cls own r.1 r.2 := by
  unfold addThrown
  refine (typeOfText_beside hd.scope hfree).handle (fun t u q hq hl ht => ?_) fun f q _ hl => ?_
  · have hd₁ := hd.grows hl.2.1 hl.2.2
    refine Works.beside_read ?_
    rw [ht.isSubtype_throwable hq]
    split
    · exact Works.beside_ret ⟨hd₁.faults, hd₁.scope, hd₁.typeVars, hd₁.params, hd₁.returns,
        List.rel_append hd₁.throws (.cons ht .nil)⟩
    · exact Works.beside_ret (hd₁.fault _ _)
  · exact Works.beside_ret ((hd.grows hl.2.1 hl.2.2).fault _ _)

/-- The text of a signature is read the same way in both stores: with the same faults, or to
alike types. This is what makes the moment at which a signature is processed no matter. -/
theorem ofText_beside (o : Outset) (id : MethodId) (kind : CallableKind) {owner : TypeId} (howner : o.early.Knows owner)
    (text : SignatureText) (hfree : ∀ name ∈ text.names, o.Free owner text.own name) :
    Works o.pairs (beside (ofText id kind owner text) (ofText id kind owner text)) (o.early, o.late) fun r q =>
      o.Drafts q owner text.own r.1 r.2 := by
  have hvoid : o.early.Knows .void := o.wellFormed.knows_predefined (by decide)
  have h₀ : o.Drafts (o.early, o.late) owner [] { scope := { cls := owner } } { scope := { cls := owner } } :=
    ⟨rfl, ⟨howner, rfl, rfl, by simp, .nil⟩, .nil, .nil, .common hvoid, .nil⟩
  simp only [SignatureText.names, List.mem_append, List.mem_flatMap] at hfree
  unfold ofText
  refine (declareVariables_beside h₀ id 0 text.typeParams
    (fun decl => ∀ b ∈ decl.bounds, ∀ name ∈ b.names, o.Free owner text.own name) (by simp)
    fun src hsrc decl hparse b hb name hname => hfree name (.inl (.inl (.inl ⟨src, hsrc, ?_⟩)))).beside_bind
    fun d d' q _ _ h => ?_
  · simpa [namesOfParam, hparse] using ⟨b, hb, hname⟩
  rw [List.append_nil] at h
  refine (setBounds_beside h.1 _ _ h.1.typeVars h.2).beside_bind fun d d' q _ _ hd => ?_
  refine (addParams_beside hd text.params fun src hsrc name hname =>
    hfree name (.inl (.inl (.inr ⟨src, hsrc, hname⟩)))).beside_bind fun d d' q _ _ hd => ?_
  refine (setReturns_beside hd kind fun name hname => hfree name (.inl (.inr hname))).beside_bind fun d d' q _ _ hd => ?_
  exact Works.beside_foldlM text.throws hd fun src hsrc d d' q _ _ hd =>
    addThrown_beside hd fun name hname => hfree name (.inr ⟨src, hsrc, hname⟩)

end SignatureDraft

end CallResolution
