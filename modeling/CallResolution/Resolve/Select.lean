import CallResolution.Resolve.Applicable

/-!
# Selection

The phases are tried in order, and the first one in which a candidate applies decides: the
most specific of the candidates that apply in it are selected.

One callable is more specific than another when what it offers to each argument converts to
what the other offers there. Of several callables those are kept that no other one beats.
-/

namespace CallResolution

/-! ## Most specific callables -/

/-- Whether for each of `argc` places the first formals offer a type that converts to what the
second ones offer. -/
def Formals.moreSpecific (s : TypeStore) (a b : Formals) (argc : Nat) : Bool :=
  Nat.all argc fun k _ =>
    match a.paramAt? k, b.paramAt? k with
    | some p, some q => s.subtypeConverts p q
    | _, _ => false

/-- Adds a candidate to the best ones so far: one that beats all of them replaces them, and
one that none of them beats joins them. -/
def addSpecific {α : Type} (beats : α → α → Bool) (best : List α) (c : α) : List α :=
  if best.all (beats c ·) then [c]
  else if best.any (beats · c) then best
  else best ++ [c]

/-- The best of the candidates, taken in order. Of two candidates that beat each other the
later one is kept. -/
def mostSpecific {α : Type} (beats : α → α → Bool) (cs : List α) : List α :=
  cs.foldl (addSpecific beats) []

/-- Adding a candidate leaves at least one. -/
theorem addSpecific_ne_nil {α : Type} (beats : α → α → Bool) (best : List α) (c : α) :
    addSpecific beats best c ≠ [] := by
  unfold addSpecific
  split
  · simp
  · split
    · rintro rfl
      simp_all
    · simp

/-! ## Candidates and phases -/

/-- A callable that competes for a call. -/
structure Candidate where
  /-- The callable. -/
  method : MethodId
  /-- Its parameters as declared, by which specificity is judged. -/
  declared : Formals
  /-- Its parameters as the call sees them, by which applicability is judged. -/
  formals : Formals
  deriving DecidableEq, Repr, Inhabited

namespace Candidate

/-- Whether a candidate applies in a phase. -/
def applies (s : TypeStore) (args : List TypeId) (ph : Phase) (c : Candidate) : Bool :=
  (c.formals.applicable s args ph).isSome

/-- Whether a candidate packs trailing arguments in a phase. -/
def packs (s : TypeStore) (args : List TypeId) (ph : Phase) (c : Candidate) : Bool :=
  c.formals.applicable s args ph = some true

/-- Whether a candidate is more specific than another one for a number of arguments. -/
def beats (s : TypeStore) (argc : Nat) (a b : Candidate) : Bool :=
  a.declared.moreSpecific s b.declared argc

end Candidate

/-- What the phases select. -/
structure Selection where
  /-- The first selected callable, which the call is bound to. -/
  first : MethodId
  /-- The other selected callables; when there are any the call is ambiguous. -/
  others : List MethodId
  /-- The phase. -/
  phase : Phase
  /-- Whether the first callable packs trailing arguments into an array. -/
  wrapped : Bool
  deriving DecidableEq, Repr, Inhabited

/-- The selection in a phase, none when nothing applies. -/
def selectIn (s : TypeStore) (cands : List Candidate) (args : List TypeId) (ph : Phase) : Option Selection :=
  match mostSpecific (Candidate.beats s args.length) (cands.filter (·.applies s args ph)) with
  | [] => none
  | c :: cs => some ⟨c.method, cs.map (·.method), ph, c.packs s args ph⟩

/-- The selection in the first phase in which a candidate applies. -/
def select (s : TypeStore) (cands : List Candidate) (args : List TypeId) (phases : List Phase) :
    Option Selection :=
  phases.findSome? (selectIn s cands args)

/-- The phases that are tried, each with the number of candidates that apply in it. -/
def tried (s : TypeStore) (cands : List Candidate) (args : List TypeId) : List Phase → List (Phase × Nat)
  | [] => []
  | ph :: phs =>
    let n := cands.countP (·.applies s args ph)
    (ph, n) :: if n = 0 then tried s cands args phs else []

end CallResolution
