/-!
# Evolving states

Everything that is built while a document is loaded and its calls are bound is a state that
only grows in a guarded way. An `Evolution` names the sound states and says which states a
sound one may lead to. `Works` is what is shown of a step: from a sound state it leads on
along the evolution, and its value has a property in the state it ends in. The rules below
follow the shape of programs, so that a statement about a function is put together from those
about the functions it calls.

For what a step never touches the state does not matter: `Leaves` says so of a step, and
`FailsClean` of a step that fails.
-/

namespace CallResolution

/-- Sound states, and the states that they lead to. -/
structure Evolution (σ : Type) where
  /-- The states that invariants hold of. -/
  Sound : σ → Prop
  /-- The states that may come after another one. -/
  Leads : σ → σ → Prop
  /-- Nothing has to happen. -/
  refl : ∀ s, Leads s s
  /-- What comes later comes after. -/
  trans : ∀ {s t u}, Leads s t → Leads t u → Leads s u
  /-- Sound states lead to sound states. -/
  sound : ∀ {s t}, Leads s t → Sound s → Sound t

/-- A step that starts by reading the state. -/
theorem get_bind_apply {σ α : Type} (k : σ → StateM σ α) (s : σ) : (get >>= k) s = k s s := rfl

/-- A step after one of which the outcome is known. -/
theorem bind_of_eq {σ α β : Type} {x : StateM σ α} {f : α → StateM σ β} {s t : σ} {a : α} (h : x s = (a, t)) :
    (x >>= f) s = f a t := by
  show f (x s).1 (x s).2 = f a t
  rw [h]

/-- All states, of which a part is left alone. -/
def leaving {σ β : Type} (part : σ → β) : Evolution σ where
  Sound _ := True
  Leads s t := part t = part s
  refl _ := rfl
  trans h h' := h'.trans h
  sound _ h := h

/-- From a sound state a step leads on, and ends in a value and a state that are related by a
property. Both are shown together, since the property often says where in the evolution the
state stands. -/
def Works {σ α : Type} (e : Evolution σ) (x : StateM σ α) (s : σ) (P : α → σ → Prop) : Prop :=
  e.Sound s → e.Leads s (x s).2 ∧ P (x s).1 (x s).2

/-- A step that may fail works: one property relates the value to the state it ends in,
another one the failure. A step that fails leads on as well, so what was done before it failed
is accounted for. -/
def Tries {σ ε α : Type} (e : Evolution σ) (x : ExceptT ε (StateM σ) α) (s : σ) (P : α → σ → Prop)
    (E : ε → σ → Prop) : Prop :=
  Works e x.run s fun
    | .ok a, t => P a t
    | .error f, t => E f t

namespace Works

variable {σ α β : Type} {e : Evolution σ} {x : StateM σ α} {s : σ} {P Q : α → σ → Prop}

/-- Soundness of the start may be used. -/
theorem of_sound (h : e.Sound s → Works e x s P) : Works e x s P :=
  fun hs => h hs hs

/-- A step that does the same from a state works the same. -/
theorem congr {y : StateM σ α} (h : x s = y s) (hy : Works e y s P) : Works e x s P := by
  unfold Works
  rw [h]
  exact hy

/-- A step that works still works for less. -/
theorem mono (h : Works e x s P) (hPQ : ∀ a t, e.Sound t → e.Leads s t → P a t → Q a t) :
    Works e x s Q := by
  intro hs
  obtain ⟨hl, hp⟩ := h hs
  exact ⟨hl, hPQ _ _ (e.sound hl hs) hl hp⟩

/-- A value alone. -/
theorem ret {a : α} (h : P a s) : Works e (pure a) s P :=
  fun _ => ⟨e.refl s, h⟩

/-- One step after another. The second one starts in a state that the first one leads to, of
which it is known that it is sound, and what the value has to do with it. -/
theorem bind {f : α → StateM σ β} {R : β → σ → Prop} (hx : Works e x s P)
    (hf : ∀ a t, e.Sound t → e.Leads s t → P a t → Works e (f a) t R) : Works e (x >>= f) s R := by
  intro hs
  obtain ⟨hl, hp⟩ := hx hs
  have ht := e.sound hl hs
  obtain ⟨hl', hr⟩ := hf _ _ ht hl hp ht
  exact ⟨e.trans hl hl', hr⟩

/-- One step after another, where the second one leads on from the start. -/
theorem through {f : α → StateM σ β} {R : β → σ → Prop} (hx : Works e x s P)
    (hf : ∀ a t, e.Sound t → e.Leads s t → P a t → e.Leads s (f a t).2 ∧ R (f a t).1 (f a t).2) :
    Works e (x >>= f) s R := by
  intro hs
  obtain ⟨hl, hp⟩ := hx hs
  exact hf _ _ (e.sound hl hs) hl hp

/-- What a step gives and where it ends is what it computes. -/
theorem self (h : Works e x s P) : Works e x s fun a t => P a t ∧ x s = (a, t) :=
  fun hs => ⟨(h hs).1, (h hs).2, rfl⟩

/-- What a step comes to may be shown in two parts. -/
theorem and (h : Works e x s P) (h' : Works e x s Q) : Works e x s fun a t => P a t ∧ Q a t :=
  fun hs => ⟨(h hs).1, (h hs).2, (h' hs).2⟩

/-- A step that works in one evolution works in a wider one, where it is known to move along
the first. -/
theorem widen {e' : Evolution σ} (sound : ∀ {s}, e'.Sound s → e.Sound s)
    (leads : ∀ {s t}, e.Leads s t → e'.Leads s t) (h : Works e x s P) :
    Works e' x s fun a t => P a t ∧ e.Leads s t :=
  fun hs => ⟨leads (h (sound hs)).1, (h (sound hs)).2, (h (sound hs)).1⟩

/-- Reading the state. -/
theorem read {f : σ → StateM σ β} {R : β → σ → Prop} (h : Works e (f s) s R) :
    Works e (get >>= f) s R :=
  h

/-- Changing the state in a way that leads on. -/
theorem change {f : σ → σ} {R : Unit → σ → Prop} (hl : e.Leads s (f s)) (h : R () (f s)) :
    Works e (modify f) s R :=
  fun _ => ⟨hl, h⟩

/-! ## Lists

Steps for the elements of a list, one after another. What is claimed of each element is
claimed in the state that its own step leaves, and has to stay so.
-/

variable {γ : Type}

/-- A step for each element of a list, with a property of values that later steps keep. -/
theorem mapM {f : γ → StateM σ α} (l : List γ)
    (keep : ∀ a t u, e.Leads t u → P a t → P a u)
    (hf : ∀ c ∈ l, ∀ t, e.Sound t → e.Leads s t → Works e (f c) t P) :
    Works e (l.mapM f) s fun as t => as.length = l.length ∧ ∀ a ∈ as, P a t := by
  induction l generalizing s with
  | nil =>
    simp only [List.mapM_nil]
    exact ret ⟨rfl, by simp⟩
  | cons c l ih =>
    rw [List.mapM_cons]
    refine of_sound fun hs => (hf c (by simp) s hs (e.refl s)).bind fun a t ht hl ha => ?_
    refine (ih fun c' hc' t' ht' hl' => ?_).bind fun as u _ hl' has => ret ?_
    · exact hf c' (by simp [hc']) t' ht' (e.trans hl hl')
    · refine ⟨by simp [has.1], fun b hb => ?_⟩
      rcases List.mem_cons.mp hb with rfl | hb
      · exact keep _ _ _ hl' ha
      · exact has.2 b hb

/-- A step for each element of a list, for the sake of the state. -/
theorem forM {f : γ → StateM σ PUnit} (l : List γ) {I : σ → Prop} (h : I s)
    (hf : ∀ c ∈ l, ∀ t, e.Sound t → e.Leads s t → I t → Works e (f c) t fun _ u => I u) :
    Works e (l.forM f) s fun _ t => I t := by
  induction l generalizing s with
  | nil => exact ret h
  | cons c l ih =>
    refine of_sound fun hs => (hf c (by simp) s hs (e.refl s) h).bind fun _ t ht hl ha => ?_
    exact ih ha fun c' hc' t' ht' hl' => hf c' (by simp [hc']) t' ht' (e.trans hl hl')

/-- A step for each element of a list, with a value that is passed on. -/
theorem foldlM {f : α → γ → StateM σ α} (l : List γ) {a : α} (h : P a s)
    (hf : ∀ c ∈ l, ∀ a t, e.Sound t → e.Leads s t → P a t → Works e (f a c) t P) :
    Works e (l.foldlM f a) s P := by
  induction l generalizing s a with
  | nil => exact ret h
  | cons c l ih =>
    rw [List.foldlM_cons]
    refine of_sound fun hs => (hf c (by simp) a s hs (e.refl s) h).bind fun a' t ht hl ha => ?_
    exact ih ha fun c' hc' b t' ht' hl' => hf c' (by simp [hc']) b t' ht' (e.trans hl hl')

/-- The first element of a list for which a step finds something. -/
theorem findSomeM? {f : γ → StateM σ (Option α)} (l : List γ)
    (hf : ∀ c ∈ l, ∀ t, e.Sound t → e.Leads s t → Works e (f c) t fun a u => ∀ b ∈ a, P b u) :
    Works e (l.findSomeM? f) s fun a t => ∀ b ∈ a, P b t := by
  induction l generalizing s with
  | nil => exact ret (by simp)
  | cons c l ih =>
    refine of_sound fun hs => (hf c (by simp) s hs (e.refl s)).bind fun a t ht hl ha => ?_
    cases a with
    | some b => exact ret ha
    | none => exact ih fun c' hc' t' ht' hl' => hf c' (by simp [hc']) t' ht' (e.trans hl hl')

end Works

namespace Tries

variable {σ ε α β : Type} {e : Evolution σ} {x : ExceptT ε (StateM σ) α} {s : σ} {P Q : α → σ → Prop}
  {E F : ε → σ → Prop}

/-- Soundness of the start may be used. -/
theorem of_sound (h : e.Sound s → Tries e x s P E) : Tries e x s P E :=
  fun hs => h hs hs

/-- A step that works still works for less. -/
theorem mono (h : Tries e x s P E) (hPQ : ∀ a t, e.Sound t → e.Leads s t → P a t → Q a t)
    (hEF : ∀ f t, e.Sound t → e.Leads s t → E f t → F f t) : Tries e x s Q F := by
  refine Works.mono h fun r t ht hl hr => ?_
  cases r with
  | ok a => exact hPQ a t ht hl hr
  | error f => exact hEF f t ht hl hr

/-- A value alone. -/
theorem ret {a : α} (h : P a s) : Tries e (pure a) s P E :=
  fun _ => ⟨e.refl s, h⟩

/-- A failure. -/
theorem throw {f : ε} (h : E f s) : Tries e (throw f : ExceptT ε (StateM σ) α) s P E :=
  fun _ => ⟨e.refl s, h⟩

/-- One step after another; a failure of the first one is the failure of both. -/
theorem bind {f : α → ExceptT ε (StateM σ) β} {R : β → σ → Prop} (hx : Tries e x s P E)
    (hf : ∀ a t, e.Sound t → e.Leads s t → P a t → Tries e (f a) t R E) : Tries e (x >>= f) s R E := by
  unfold Tries
  rw [ExceptT.run_bind]
  refine Works.bind hx fun r t ht hl hr => ?_
  cases r with
  | ok a => exact hf a t ht hl hr
  | error g => exact Works.ret hr

/-- What comes after a failure does not matter. -/
theorem stop {f : α → ExceptT ε (StateM σ) β} {R : β → σ → Prop} (hx : Tries e x s (fun _ _ => False) E) :
    Tries e (x >>= f) s R E :=
  hx.bind fun _ _ _ _ h => h.elim

/-- What a step gives and where it ends is what it computes. -/
theorem self (h : Tries e x s P E) : Tries e x s (fun a t => P a t ∧ x.run s = (.ok a, t)) E := by
  refine Works.mono (Works.self h) fun r t _ _ hr => ?_
  cases r with
  | ok a => exact hr
  | error f => exact hr.1

/-- What a step comes to may be shown in two parts. -/
theorem and (h : Tries e x s P E) (h' : Tries e x s Q F) :
    Tries e x s (fun a t => P a t ∧ Q a t) fun f t => E f t ∧ F f t := by
  refine Works.mono (Works.and h h') fun r t _ _ hr => ?_
  cases r with
  | ok a => exact hr
  | error f => exact hr

/-- A step that works in one evolution works in a wider one, where it is known to move along
the first. -/
theorem widen {e' : Evolution σ} (sound : ∀ {s}, e'.Sound s → e.Sound s)
    (leads : ∀ {s t}, e.Leads s t → e'.Leads s t) (h : Tries e x s P E) :
    Tries e' x s (fun a t => P a t ∧ e.Leads s t) (fun f t => E f t ∧ e.Leads s t) := by
  refine Works.mono (Works.widen sound leads h) fun r t _ _ hr => ?_
  cases r with
  | ok a => exact hr
  | error f => exact hr

/-- A step that cannot fail. -/
theorem lifted {y : StateM σ α} (hy : Works e y s P) : Tries e (ExceptT.lift y) s P E :=
  Works.bind hy fun _ _ _ _ ha => Works.ret ha

/-- A step that cannot fail, before one that may. -/
theorem lift {y : StateM σ α} {f : α → ExceptT ε (StateM σ) β} {R : β → σ → Prop} (hy : Works e y s P)
    (hf : ∀ a t, e.Sound t → e.Leads s t → P a t → Tries e (f a) t R E) :
    Tries e (ExceptT.lift y >>= f) s R E :=
  (lifted hy).bind hf

/-- Reading the state. -/
theorem read {f : σ → ExceptT ε (StateM σ) β} {R : β → σ → Prop} (h : Tries e (f s) s R E) :
    Tries e (get >>= f) s R E :=
  h

end Tries

/-! ## Steps that leave a part alone

A part of the state that a step leaves alone whatever state it starts in needs no evolution:
nothing has to be known of the start.
-/

section

variable {σ ε α β γ δ : Type} {part : σ → δ}

/-- A step leaves a part of every state alone. -/
def Leaves (part : σ → δ) (x : StateM σ α) : Prop :=
  ∀ s, part (x s).2 = part s

namespace Leaves

theorem ret (a : α) : Leaves part (pure a) :=
  fun _ => rfl

theorem bind {x : StateM σ α} {f : α → StateM σ β} (hx : Leaves part x) (hf : ∀ a, Leaves part (f a)) : Leaves part (x >>= f) :=
  fun s => (hf (x s).1 (x s).2).trans (hx s)

theorem read {f : σ → StateM σ β} (h : ∀ s, Leaves part (f s)) : Leaves part (get >>= f) :=
  fun s => h s s

theorem mapM {f : γ → StateM σ α} (l : List γ) (hf : ∀ c, Leaves part (f c)) : Leaves part (l.mapM f) := by
  induction l with
  | nil =>
    rw [List.mapM_nil]
    exact ret []
  | cons c l ih =>
    rw [List.mapM_cons]
    exact (hf c).bind fun _ => ih.bind fun _ => ret _

theorem forM {f : γ → StateM σ PUnit} (l : List γ) (hf : ∀ c, Leaves part (f c)) : Leaves part (l.forM f) := by
  induction l with
  | nil => exact ret ()
  | cons c l ih => exact (hf c).bind fun _ => ih

theorem foldlM {f : α → γ → StateM σ α} (l : List γ) (a : α) (hf : ∀ a c, Leaves part (f a c)) : Leaves part (l.foldlM f a) := by
  induction l generalizing a with
  | nil => exact ret a
  | cons c l ih =>
    rw [List.foldlM_cons]
    exact (hf a c).bind fun a => ih a

/-! A step that may fail leaves a part alone whether it fails or not.
-/

theorem fail (e : ε) : Leaves part (throw e : ExceptT ε (StateM σ) α).run :=
  fun _ => rfl

theorem stop (e : ε) {f : α → ExceptT ε (StateM σ) β} : Leaves part (throw e >>= f : ExceptT ε (StateM σ) β).run :=
  fun _ => rfl

theorem tryRead {f : σ → ExceptT ε (StateM σ) β} (h : ∀ s, Leaves part (f s).run) : Leaves part (get >>= f).run :=
  fun s => h s s

theorem tryBind {x : ExceptT ε (StateM σ) α} {f : α → ExceptT ε (StateM σ) β} (hx : Leaves part x.run)
    (hf : ∀ a, Leaves part (f a).run) : Leaves part (x >>= f).run := by
  rw [ExceptT.run_bind]
  refine hx.bind fun r => ?_
  cases r with
  | ok a => exact hf a
  | error e => exact ret _

theorem lifted {y : StateM σ α} (hy : Leaves part y) : Leaves part (ExceptT.lift y : ExceptT ε (StateM σ) α).run :=
  hy.bind fun _ => ret _

theorem lift {y : StateM σ α} {f : α → ExceptT ε (StateM σ) β} (hy : Leaves part y) (hf : ∀ a, Leaves part (f a).run) :
    Leaves part (ExceptT.lift y >>= f).run :=
  tryBind (lifted hy) hf

end Leaves

/-- A step never fails. -/
def Succeeds (x : ExceptT ε (StateM σ) α) : Prop :=
  ∀ s e, (x.run s).1 ≠ .error e

/-- A step that fails has left a part of the state alone. -/
def FailsClean (part : σ → δ) (x : ExceptT ε (StateM σ) α) : Prop :=
  ∀ s e, (x.run s).1 = .error e → part (x.run s).2 = part s

theorem Succeeds.ret (a : α) : Succeeds (pure a : ExceptT ε (StateM σ) α) :=
  fun _ _ h => nomatch h

/-- A step that cannot fail. -/
theorem Succeeds.lifted (y : StateM σ α) : Succeeds (ExceptT.lift y : ExceptT ε (StateM σ) α) :=
  fun _ _ h => nomatch h

/-- A step that cannot fail, before another one. -/
theorem Succeeds.lift {y : StateM σ α} {f : α → ExceptT ε (StateM σ) β} (hf : ∀ a, Succeeds (f a)) :
    Succeeds (ExceptT.lift y >>= f) :=
  fun s => hf (y s).1 (y s).2

namespace FailsClean

/-- What never fails. -/
theorem of_succeeds {x : ExceptT ε (StateM σ) α} (h : Succeeds x) : FailsClean part x :=
  fun s e he => absurd he (h s e)

/-- A failure alone. -/
theorem fail (e : ε) : FailsClean part (throw e : ExceptT ε (StateM σ) α) :=
  fun _ _ _ => rfl

/-- What leaves the part alone in any case, before another step. -/
theorem bind {x : ExceptT ε (StateM σ) α} {f : α → ExceptT ε (StateM σ) β} (hx : Leaves part x.run)
    (hf : ∀ a, FailsClean part (f a)) : FailsClean part (x >>= f) := by
  intro s e he
  obtain ⟨r, t, hrun⟩ : ∃ r t, x.run s = (r, t) := ⟨_, _, rfl⟩
  have hleft : part t = part s := by
    have h := hx s
    rwa [hrun] at h
  rw [ExceptT.run_bind, bind_of_eq hrun] at he ⊢
  cases r with
  | ok a => exact (hf a t e he).trans hleft
  | error e' => exact hleft

/-- Reading the state. -/
theorem read {f : σ → ExceptT ε (StateM σ) β} (h : ∀ s, FailsClean part (f s)) : FailsClean part (get >>= f) :=
  fun s => h s s

/-- What cannot fail and leaves the part alone, before another step. -/
theorem lift {y : StateM σ α} {f : α → ExceptT ε (StateM σ) β} (hy : Leaves part y) (hf : ∀ a, FailsClean part (f a)) :
    FailsClean part (ExceptT.lift y >>= f) :=
  fun s e he => (hf (y s).1 (y s).2 e he).trans (hy s)

end FailsClean

/-! What is left alone may be added to what is known of a step.
-/

variable {e : Evolution σ} {x : ExceptT ε (StateM σ) α} {s : σ} {P : α → σ → Prop} {E : ε → σ → Prop}

/-- What a step leaves alone is as it was, whether the step fails or not. -/
theorem Tries.leaving (h : Tries e x s P E) (hx : Leaves part x.run) :
    Tries e x s (fun a t => P a t ∧ part t = part s) fun f t => E f t ∧ part t = part s := by
  refine Tries.and h fun hs => ⟨(h hs).1, ?_⟩
  have hpart := hx s
  cases hr : (x.run s).1 <;> exact hpart

/-- What a step leaves alone when it fails is as it was. -/
theorem Tries.failing (h : Tries e x s P E) (hx : FailsClean part x) : Tries e x s P fun f t => E f t ∧ part t = part s := by
  intro hs
  obtain ⟨hl, hp⟩ := h hs
  refine ⟨hl, ?_⟩
  cases hr : (x.run s).1 with
  | ok a =>
    rw [hr] at hp
    exact hp
  | error f =>
    rw [hr] at hp
    exact ⟨hp, hx s f hr⟩

end

end CallResolution
