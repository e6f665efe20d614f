import CallResolution.Members.Accessor
import CallResolution.Proofs.Members.Chains

/-!
# Additions one after another

Callables, the methods of enumerations, fields and accessors may be added to a universe in any
order, to any class, and while types are made in whatever way in between. `TableOp` lists what
may be done, and `performAll` does it and logs which callables were added to which class.

Each step adds to the chains of classes what it logs: a callable goes to the end of its chain,
an enumeration gets two of them, and fields and accessors leave all chains alone, although
accessors are numbered along with everything else. So after any number of steps the links of a
name go through the methods of that name, and come to an end there.

Main statements: `TableOp.chains_perform` (one step), `TableOp.chains_performAll` (a run), and
`overload_chains_faithful`, which says what a run means for the overloads and constructors of
a class.
-/

namespace CallResolution

/-- What may be done to the members of a universe. The arguments are arbitrary: an operation
may be about classes and callables that do not exist, and chains are in order all the same. -/
inductive TableOp where
  /-- Types are made, or anything else happens to them. -/
  | types (s : TypeStore)
  /-- A method or constructor is added to its class. -/
  | method (m : Method)
  /-- An enumeration gets the two methods that every one has. -/
  | enumSupport (t : TypeId)
  /-- A field is added to its class. -/
  | field (f : Field)
  /-- An accessor is asked for. -/
  | accessor (key : AccessorKey)

namespace Universe

variable {u u' : Universe} {log : List Addition}

/-! ## Accessors leave chains alone

An accessor is numbered like a declared callable and listed by its class, so it could break
the chains of its name; it joins none.
-/

/-- All universes, where chains are left alone. -/
def keepingChains : Evolution Universe where
  Sound _ := True
  Leads := SameChains
  refl := .refl
  trans := .trans
  sound _ h := h

/-- A callable is changed in something that is not declared. -/
theorem modifyMethod_sameChains {f : Method → Method} (hf : ∀ m : Method, m.SameDeclaration (f m)) (id : MethodId) :
    Works keepingChains (modifyMethod id f) u fun _ _ => True :=
  fun _ => ⟨.of_members rfl rfl (.modify _ _ hf), trivial⟩

/-- Processing a signature changes nothing that is declared. -/
theorem signature_sameChains (id : MethodId) : Works keepingChains (signature id) u fun _ _ => True := by
  refine Works.read ?_
  split
  · exact Works.ret trivial
  · split
    · exact Works.ret trivial
    · exact Works.ret trivial
    · exact Works.ret trivial
    · refine (modifyMethod_sameChains (fun _ => ?_) id).bind fun _ u₁ _ _ _ => ?_
      · exact ⟨rfl, rfl, rfl, rfl, rfl, rfl, rfl⟩
      refine Works.bind (P := fun _ _ => True) (fun _ => ⟨.of_members rfl rfl (.refl _), trivial⟩) fun d u₂ _ _ _ => ?_
      split
      · refine (modifyMethod_sameChains (fun _ => ?_) id).bind fun _ _ _ _ _ => Works.ret trivial
        exact ⟨rfl, rfl, rfl, rfl, rfl, rfl, rfl⟩
      · refine Works.bind (P := fun _ _ => True) (fun _ => ⟨.of_members rfl rfl (.refl _), trivial⟩) fun _ u₃ _ _ _ => ?_
        refine (modifyMethod_sameChains (fun _ => ?_) id).bind fun _ _ _ _ _ => Works.ret trivial
        exact ⟨rfl, rfl, rfl, rfl, rfl, rfl, rfl⟩

/-- A placeholder is a class, and has nothing to do with chains. -/
theorem placeholder_sameChains (t : TypeId) : Works keepingChains (placeholder t) u fun _ _ => True := by
  refine Works.read ?_
  dsimp only
  split
  · exact Works.ret trivial
  · exact fun _ => ⟨.of_members rfl rfl (.refl _), trivial⟩

/-- An accessor joins no chain, whatever it forwards to. -/
theorem accessor_sameChains (key : AccessorKey) : Works keepingChains (accessor key) u fun _ _ => True := by
  refine Works.read ?_
  split
  · exact Works.ret trivial
  · refine (signature_sameChains key.member).bind fun ok u₁ _ _ _ => ?_
    split
    · refine Works.read ?_
      dsimp only
      split
      · refine (placeholder_sameChains _).bind fun mark u₂ _ _ _ => ?_
        exact fun _ => ⟨sameChains_withAccessor u₂ key _, trivial⟩
      · exact fun _ => ⟨sameChains_withAccessor u₁ key _, trivial⟩
    · exact Works.ret trivial

end Universe

/-! ## Steps and runs

What each operation does to chains, and from it what any number of operations does.
-/

namespace TableOp

open Universe

variable {u : Universe} {log : List Addition}

/-- What becomes of a universe. -/
def perform (u : Universe) : TableOp → Universe
  | types s => { u with types := s }
  | method m => (addMethod m u).2
  | enumSupport t => (addEnumSupport t u).2
  | field f => (addField f u).2
  | accessor key => (Universe.accessor key u).2

/-- What it adds to the chains of classes. -/
def added (u : Universe) : TableOp → List Addition
  | method m => [u.addition m]
  | enumSupport t =>
    let (array, s) := TypeStore.array t 1 u.types
    additions { u with types := s } [enumValues t array, enumValueOf t]
  | types _ | field _ | accessor _ => []

/-- Does one thing after another, and logs what is added. -/
def performAll (u : Universe) : List TableOp → Universe × List Addition
  | [] => (u, [])
  | op :: ops =>
    let (u', log) := performAll (op.perform u) ops
    (u', op.added u ++ log)

/-- The chains of a universe go on to go through all that was added. One case for each
operation, of which the additions go to the end of a chain and the others leave all chains
alone. -/
theorem chains_perform (h : u.Chains log) (op : TableOp) : (op.perform u).Chains (log ++ op.added u) := by
  cases op with
  | types s =>
    have hmade : Chains { u with types := s } log := h.of_same (.of_members rfl rfl (.refl _))
    simpa [perform, added] using hmade
  | method m => exact h.addMethod m
  | enumSupport t =>
    have hmade : Chains { u with types := (TypeStore.array t 1 u.types).2 } log := h.of_same (.of_members rfl rfl (.refl _))
    exact hmade.addAll [enumValues t (TypeStore.array t 1 u.types).1, enumValueOf t]
  | field f => simpa [perform, added] using h.of_same (sameChains_addField f u)
  | accessor key => simpa [perform, added] using h.of_same (accessor_sameChains key trivial).1

/-- After any number of steps, chains go through what was added before and on the way. -/
theorem chains_performAll (h : u.Chains log) (ops : List TableOp) :
    (performAll u ops).1.Chains (log ++ (performAll u ops).2) := by
  induction ops generalizing u log with
  | nil => simpa [performAll] using h
  | cons op ops ih =>
    have hrest := ih (chains_perform h op)
    rw [List.append_assoc] at hrest
    exact hrest

end TableOp

namespace Universe

variable {u : Universe} {log : List Addition}

/-- The overloads and constructors of all classes are what a log says was added to them. Each
class knows the first and the last one of each chain, and following the links ends without a
bound. -/
structure Faithful (u : Universe) (log : List Addition) : Prop where
  /-- Each addition has a number of its own, in the order of additions. -/
  increasing : (log.map (·.id.index)).Pairwise (· < ·)
  /-- A number leads to the callable that was added, with the same declaration. -/
  stored : ∀ a ∈ log, ∃ m, u.method? a.id = some m ∧ (declaredAs a.method).SameDeclaration m
  /-- Following the links of a name comes to an end, without a bound. -/
  terminates : ∀ t name, u.seekOverloads? t name = some (u.overloads t name)
  /-- The overloads of a name are the methods that were added to the class under that name,
  apart from accessors. -/
  overloads : ∀ t name, u.overloads t name =
    (log.filter fun a => a.cls = u.types.classOf t ∧ ¬ a.method.isConstructor ∧ ¬ a.method.flags.isAccessor ∧
      a.method.name = name).map (·.id)
  /-- No overload is listed twice. -/
  overloads_nodup : ∀ t name, (u.overloads t name).Nodup
  /-- Each overload is linked to the next one, and nothing behind the last. -/
  overloads_linked : ∀ t name, u.Linked (u.overloads t name)
  /-- The constructors of a class are those that were added to it. -/
  constructors : ∀ t, u.constructors t = (log.filter fun a => a.cls = u.types.classOf t ∧ a.method.isConstructor).map (·.id)
  /-- No constructor is listed twice. -/
  constructors_nodup : ∀ t, (u.constructors t).Nodup
  /-- Each constructor is linked to the next one. -/
  constructors_linked : ∀ t, u.Linked (u.constructors t)

/-- What chains go through is what classes list. -/
theorem Chains.faithful (h : u.Chains log) : u.Faithful log where
  increasing := h.increasing
  stored := h.stored
  terminates := h.seekOverloads_eq
  overloads t name := by
    rw [h.overloads_eq, chainIn]
    refine congrArg _ (List.filter_congr fun a _ => ?_)
    simp [Addition.joins, Method.chain?_eq_overloads]
  overloads_nodup t name := h.overloads_eq t name ▸ h.nodup _ _
  overloads_linked t name := h.overloads_eq t name ▸ h.linked _ _
  constructors t := by
    rw [h.constructors_eq, chainIn]
    refine congrArg _ (List.filter_congr fun a _ => ?_)
    simp [Addition.joins, Method.chain?_eq_constructors]
  constructors_nodup t := h.constructors_eq t ▸ h.nodup _ _
  constructors_linked t := h.constructors_eq t ▸ h.linked _ _

end Universe

/-- Whatever is done to the members of a universe, in any order, for every class and name the
overloads come to an end and are the methods that were added to the class under that name, in
order and without repeats, each linked to the next, and the constructors are those that were
added. -/
theorem overload_chains_faithful (ops : List TableOp) :
    (TableOp.performAll .initial ops).1.Faithful (Universe.predefined ++ (TableOp.performAll .initial ops).2) :=
  (TableOp.chains_performAll Universe.initial_chains ops).faithful

/-- A method of another name and an accessor come between two methods of one name, which are
linked all the same. -/
example :
    let make (name : String) (flags : MethodFlags) : TableOp := .method { name, owner := .error, flags }
    let u := (TableOp.performAll .initial [make "f" {}, make "g" {}, make "f" { isAccessor := true }, make "f" {}]).1
    (u.overloads .error "f").map (·.index - Universe.initial.methods.size) = [1, 4] := by
  decide +kernel

end CallResolution
