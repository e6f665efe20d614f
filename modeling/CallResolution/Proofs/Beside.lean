import CallResolution.Proofs.Evolution
import Mathlib.Data.List.Forall2

/-!
# Two runs side by side

To compare what a program does in two states, it is run in both: `beside` runs two steps, each
on a state of its own, and what is shown of the pair is shown with `Works` along an evolution
of pairs. The rules follow the shape of programs, on both sides at once. Steps that may fail
have to fail together, with the same failure (`TriesBoth`).
-/

namespace CallResolution

variable {σ τ α α' β β' ε : Type}

/-- Two steps, each on a state of its own. The pair of the states is a state, so all that is
known of steps applies to the pair. -/
def beside (x : StateM σ α) (y : StateM τ β) : StateM (σ × τ) (α × β) :=
  fun p => (((x p.1).1, (y p.2).1), (x p.1).2, (y p.2).2)

namespace Works

variable {e : Evolution (σ × τ)} {p : σ × τ} {P : α × β → σ × τ → Prop} {R : α' × β' → σ × τ → Prop}

/-- Two values alone. -/
theorem beside_ret {a : α} {b : β} (h : P (a, b) p) : Works e (beside (pure a) (pure b)) p P :=
  fun _ => ⟨e.refl p, h⟩

/-- One step after another, on both sides. -/
theorem beside_bind {x : StateM σ α} {y : StateM τ β} {f : α → StateM σ α'} {g : β → StateM τ β'}
    (h : Works e (beside x y) p P)
    (hfg : ∀ a b q, e.Sound q → e.Leads p q → P (a, b) q → Works e (beside (f a) (g b)) q R) :
    Works e (beside (x >>= f) (y >>= g)) p R := by
  have hboth : Works e (beside x y >>= fun r => beside (f r.1) (g r.2)) p R :=
    h.bind fun r q hq hl hr => hfg r.1 r.2 q hq hl hr
  exact hboth

/-- Reading both states. -/
theorem beside_read {f : σ → StateM σ α} {g : τ → StateM τ β} (h : Works e (beside (f p.1) (g p.2)) p P) :
    Works e (beside (get >>= f) (get >>= g)) p P :=
  h

/-- A step for each element of a list, with values that are passed on. -/
theorem beside_foldlM {γ : Type} {f : α → γ → StateM σ α} {g : β → γ → StateM τ β} (l : List γ) {a : α} {b : β}
    (h : P (a, b) p)
    (hfg : ∀ c ∈ l, ∀ a b q, e.Sound q → e.Leads p q → P (a, b) q → Works e (beside (f a c) (g b c)) q P) :
    Works e (beside (l.foldlM f a) (l.foldlM g b)) p P := by
  induction l generalizing p a b with
  | nil => exact beside_ret h
  | cons c l ih =>
    rw [List.foldlM_cons, List.foldlM_cons]
    refine of_sound fun hp => (hfg c (by simp) a b p hp (e.refl p) h).beside_bind fun a' b' q hq hl hab => ?_
    exact ih hab fun c' hc' a b q' hq' hl' => hfg c' (by simp [hc']) a b q' hq' (e.trans hl hl')

/-- A step for each element of a list, with values that are related in pairs and stay so. -/
theorem beside_mapM {γ : Type} {f : γ → StateM σ α} {g : γ → StateM τ β} {Q : α → β → σ × τ → Prop} (l : List γ)
    (keep : ∀ a b q q', e.Leads q q' → Q a b q → Q a b q')
    (hfg : ∀ c ∈ l, ∀ q, e.Sound q → e.Leads p q → Works e (beside (f c) (g c)) q fun r q' => Q r.1 r.2 q') :
    Works e (beside (l.mapM f) (l.mapM g)) p fun r q => List.Forall₂ (Q · · q) r.1 r.2 := by
  induction l generalizing p with
  | nil =>
    rw [List.mapM_nil, List.mapM_nil]
    exact beside_ret .nil
  | cons c l ih =>
    rw [List.mapM_cons, List.mapM_cons]
    refine of_sound fun hp => (hfg c (by simp) p hp (e.refl p)).beside_bind fun a b q hq hl hab => ?_
    have hrest := ih fun c' hc' q' hq' hl' => hfg c' (by simp [hc']) q' hq' (e.trans hl hl')
    exact hrest.beside_bind fun as bs q' _ hl' has => beside_ret (.cons (keep _ _ _ _ hl' hab) has)

end Works

/-- A value alone leaves the state as it is. -/
theorem pure_apply {a : α} {s : σ} : (pure a : StateM σ α) s = (a, s) := rfl

/-- A step that may fail and starts by reading the state. -/
theorem run_read {f : σ → ExceptT ε (StateM σ) α} {s : σ} : (getThe σ >>= f).run s = (f s).run s := rfl

/-- Two outcomes that agree: both are values that are related, or both are the same failure.
-/
def Agree (P : α → β → Prop) : Except ε α × Except ε β → Prop
  | (.ok a, .ok b) => P a b
  | (.error f, .error g) => f = g
  | _ => False

/-- Two steps that may fail end alike: one property relates the values to the states they end
in. When one of them fails the other one does, with the same failure, and nothing is asked of
the states then. -/
def TriesBoth (e : Evolution (σ × τ)) (x : ExceptT ε (StateM σ) α) (y : ExceptT ε (StateM τ) β) (p : σ × τ)
    (P : α → β → σ × τ → Prop) : Prop :=
  Works e (beside x.run y.run) p fun r q => Agree (P · · q) r

namespace TriesBoth

variable {e : Evolution (σ × τ)} {p : σ × τ} {P : α → β → σ × τ → Prop} {R : α' → β' → σ × τ → Prop}
  {x : ExceptT ε (StateM σ) α} {y : ExceptT ε (StateM τ) β}

/-- Soundness of the start may be used. -/
theorem of_sound (h : e.Sound p → TriesBoth e x y p P) : TriesBoth e x y p P :=
  fun hp => h hp hp

/-- Two values alone. -/
theorem ret {a : α} {b : β} (h : P a b p) : TriesBoth e (pure a : ExceptT ε (StateM σ) α) (pure b) p P :=
  fun _ => ⟨e.refl p, h⟩

/-- The same failure on both sides. -/
theorem throw (f : ε) : TriesBoth e (throw f : ExceptT ε (StateM σ) α) (throw f : ExceptT ε (StateM τ) β) p P :=
  fun _ => ⟨e.refl p, rfl⟩

/-- What is done with two outcomes: both are values, or both are the same failure. -/
theorem handle {f : Except ε α → StateM σ α'} {g : Except ε β → StateM τ β'} {R : α' × β' → σ × τ → Prop}
    (h : TriesBoth e x y p P)
    (hok : ∀ a b q, e.Sound q → e.Leads p q → P a b q → Works e (beside (f (.ok a)) (g (.ok b))) q R)
    (herror : ∀ failure q, e.Sound q → e.Leads p q → Works e (beside (f (.error failure)) (g (.error failure))) q R) :
    Works e (beside (x.run >>= f) (y.run >>= g)) p R := by
  refine Works.beside_bind h fun r r' q hq hl hr => ?_
  cases r with
  | ok a =>
    cases r' with
    | ok b => exact hok a b q hq hl hr
    | error _ => exact hr.elim
  | error failure =>
    cases r' with
    | ok b => exact hr.elim
    | error failure' =>
      cases hr
      exact herror failure q hq hl

/-- One step after another, on both sides. -/
theorem bind {f : α → ExceptT ε (StateM σ) α'} {g : β → ExceptT ε (StateM τ) β'} (h : TriesBoth e x y p P)
    (hfg : ∀ a b q, e.Sound q → e.Leads p q → P a b q → TriesBoth e (f a) (g b) q R) :
    TriesBoth e (x >>= f) (y >>= g) p R := by
  unfold TriesBoth
  rw [ExceptT.run_bind, ExceptT.run_bind]
  exact h.handle hfg fun _ _ _ _ => Works.beside_ret rfl

/-- What comes after a failure on both sides does not matter. -/
theorem stop {f : α → ExceptT ε (StateM σ) α'} {g : β → ExceptT ε (StateM τ) β'}
    (h : TriesBoth e x y p fun _ _ _ => False) : TriesBoth e (x >>= f) (y >>= g) p R :=
  h.bind fun _ _ _ _ _ hfalse => hfalse.elim

/-- The same condition decides on both sides. -/
theorem ite {c : Prop} [Decidable c] {x' : ExceptT ε (StateM σ) α} {y' : ExceptT ε (StateM τ) β}
    (hpos : c → TriesBoth e x y p P) (hneg : ¬ c → TriesBoth e x' y' p P) :
    TriesBoth e (if c then x else x') (if c then y else y') p P := by
  split
  · exact hpos ‹_›
  · exact hneg ‹_›

/-- Two steps that cannot fail. -/
theorem lifted {x : StateM σ α} {y : StateM τ β} (h : Works e (beside x y) p fun r q => P r.1 r.2 q) :
    TriesBoth e (liftM x : ExceptT ε (StateM σ) α) (liftM y) p P :=
  Works.beside_bind h fun _ _ _ _ _ hr => Works.beside_ret hr

/-- Reading both states. -/
theorem read {f : σ → ExceptT ε (StateM σ) α} {g : τ → ExceptT ε (StateM τ) β} (h : TriesBoth e (f p.1) (g p.2) p P) :
    TriesBoth e (getThe σ >>= f) (getThe τ >>= g) p P :=
  h

end TriesBoth

end CallResolution
