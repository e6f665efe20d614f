import CallResolution.Proofs.Members.Closure
import CallResolution.Proofs.Resolve.Waiting

/-!
# The stages of a run

A run goes through the sessions before its steps, and ends in one where the calls that still
wait were reported. `stage` numbers all of them, so that what holds along a run is said of
every stage, and of any two of them in order: a stage is reached from every earlier one
(`Fresh.stage_leads`), and what holds of the universe that was loaded and is kept by whatever
happens to it holds of every stage.

Member tables may also be asked for from outside, between the steps. `Interleaved` has all
sessions that a run leads to then, and `Fresh.interleaved` says that such a session is as good
as one of the run itself: a request makes tables and binds nothing.

Main statements: `Fresh.stage_leads`, `Fresh.stage_sites` and `Fresh.interleaved`.
-/

namespace CallResolution.Session

open Universe

variable {st : Session}

/-- The session before the `k`-th step of a run, and behind the last one the session that the
run ends in. For the steps themselves it is `before`; the end of the run is one stage more. -/
def stage (st : Session) (k : Nat) : Session :=
  if k ≤ st.program.steps.length then st.begun.before k else (run st).2

/-- The end of a run is reached from the session behind the last step. -/
theorem Fresh.close_leads (h : Fresh st) : running.Leads (st.begun.before st.program.steps.length) (run st).2 := by
  have hsound : running.Sound (st.begun.before st.program.steps.length) :=
    running.sound (h.begun.reached _).leads ⟨h.begun.wellFormed, h.begun.numbered⟩
  rw [run_eq]
  exact (close_works st.program hsound).1

/-- A stage is reached from every earlier one. What is kept along runs is thus kept from stage
to stage. -/
theorem Fresh.stage_leads (h : Fresh st) {i j : Nat} (hij : i ≤ j) : running.Leads (st.stage i) (st.stage j) := by
  unfold stage
  by_cases hi : i ≤ st.program.steps.length <;> by_cases hj : j ≤ st.program.steps.length
  · rw [if_pos hi, if_pos hj]
    exact h.begun.leads hij
  · rw [if_pos hi, if_neg hj]
    exact running.trans (h.begun.leads hi) h.close_leads
  · omega
  · rw [if_neg hi, if_neg hj]
    exact running.refl _

/-- A run starts with the universe that was loaded. -/
theorem stage_zero (st : Session) : st.stage 0 = st.begun :=
  if_pos (Nat.zero_le _)

/-- Every stage is well formed. -/
theorem Fresh.stage_sound (h : Fresh st) (k : Nat) : running.Sound (st.stage k) := by
  have hleads := h.stage_leads (Nat.zero_le k)
  rw [stage_zero] at hleads
  exact running.sound hleads ⟨h.begun.wellFormed, h.begun.numbered⟩

/-- No stage brings in a callable with a parameter of the bad type. -/
theorem Fresh.stage_genuine (h : Fresh st) (hloaded : st.world.Genuine) (k : Nat) : (st.stage k).world.Genuine := by
  have hleads := h.stage_leads (Nat.zero_le k)
  rw [stage_zero] at hleads
  exact hleads.2.world.genuine hloaded

/-- What classes list is in order at every stage. -/
theorem Fresh.stage_tidy (h : Fresh st) (hloaded : st.world.Tidy) (k : Nat) : (st.stage k).world.Tidy := by
  have hleads := h.stage_leads (Nat.zero_le k)
  rw [stage_zero] at hleads
  exact hleads.2.world.tidy hloaded

/-- No stage leaves a table half made. -/
theorem Fresh.stage_not_isMaking (h : Fresh st) (hloaded : ∀ cls, ¬ st.world.IsMaking cls) (k : Nat) (cls : TypeId) :
    ¬ (st.stage k).world.IsMaking cls := by
  have hleads := h.stage_leads (Nat.zero_le k)
  rw [stage_zero] at hleads
  exact fun hmaking => hloaded cls (hleads.2.world.making cls hmaking)

/-- Tables are as they should be at every stage, and no class declares a method that it did
not declare at the start. -/
theorem Fresh.stage_complete (h : Fresh st) (hloaded : st.world.Complete) (k : Nat) :
    (st.stage k).world.Complete ∧ ∀ cls, ((st.stage k).world.outline cls).1 = (st.world.outline cls).1 := by
  have hleads := h.stage_leads (Nat.zero_le k)
  rw [stage_zero] at hleads
  exact hleads.2.steps.complete hloaded

/-- What a run does populates the universe that was loaded. -/
theorem Fresh.stage_populated (h : Fresh st) (hloaded : st.begun.world.Populated) (k : Nat) : (st.stage k).world.Populated := by
  have hleads := h.stage_leads (Nat.zero_le k)
  rw [stage_zero] at hleads
  exact hloaded.moves hleads.2.moves

/-- What is recorded at the sites of a stage: what may have become of them, and what takes the
place of bound calls. Sites whose turn has not come have nothing recorded. -/
theorem Fresh.stage_sites (h : Fresh st) (hbodies : st.begun.world.SoundBodies) (k : Nat) {id : SiteId} {site : Site}
    (hsite : (st.stage k).program.site? id = some site) :
    site.result.Fits (st.stage k).world ∧ Lowers (st.stage k).world site.result := by
  have step (k : Nat) {site : Site} (hsite : (st.begun.before k).program.site? id = some site) :
      site.result.Fits (st.begun.before k).world ∧ Lowers (st.begun.before k).world site.result :=
    ⟨(h.begun.reached k).orderly.results id site hsite, (h.begun.supplies hbodies k).lowers id site hsite⟩
  unfold stage at hsite ⊢
  split at hsite
  · rename_i hk
    rw [if_pos hk]
    exact step k hsite
  · rename_i hk
    have hclose := h.close_leads
    have hsound := running.sound (h.begun.reached st.program.steps.length).leads ⟨h.begun.wellFormed, h.begun.numbered⟩
    rw [if_neg hk]
    rw [h.run_leads.2.1] at hsite
    obtain ⟨hfits, hlowers⟩ := step _ hsite
    exact ⟨hfits.keeps hclose.2.world, hlowers.moves hclose.2.moves hsound.1.world⟩

/-! ## Requests between the steps

A request is a move of the universe that binds nothing, so it fits between any two steps.
-/

/-- The sessions that so many steps of a program lead to, when anyone may ask for member
tables between them, in any order and as often as they like. -/
inductive Interleaved (st : Session) : Nat → Session → Prop
  /-- The session that the run starts in. -/
  | start : Interleaved st 0 st
  /-- The next step is taken. -/
  | step {k : Nat} {s : Session} {step : Step} (before : Interleaved st k s) (next : st.program.steps[k]? = some step) :
    Interleaved st (k + 1) (runStep step s).2
  /-- Someone asks for a member table. -/
  | request {k : Nat} {s : Session} {t : TypeId} (before : Interleaved st k s) (known : s.world.types.Knows t) :
    Interleaved st k { s with world := (memberTable t s.world).2 }

/-- Nobody need ask: the sessions before the steps are among them. -/
theorem interleaved_before (st : Session) {k : Nat} (hk : k ≤ st.program.steps.length) : st.Interleaved k (st.before k) := by
  induction k with
  | zero => exact .start
  | succ k ih =>
    have hnext : st.program.steps[k]? = some st.program.steps[k] := List.getElem?_eq_getElem hk
    rw [before_succ hnext]
    exact .step (ih (by omega)) hnext

/-- Requests for member tables between the steps leave everything in order. So a statement
about every session that was reached holds for sessions in which others have asked for tables.
-/
theorem Fresh.interleaved (h : Fresh st) {k : Nat} {s : Session} (hi : st.Interleaved k s) :
    Reached (st.program.steps.take k) st s := by
  induction hi with
  | start => exact h.reached 0
  | step _ next ih => exact ih.runStep h next
  | @request k s t _ known ih =>
    have hsound : running.Sound s := running.sound ih.leads ⟨h.wellFormed, h.numbered⟩
    have hresolving : Works (resolving 0) (onUniverse (memberTable t)) s fun _ _ => True :=
      (works_of_quietly (onUniverse_works (memberTable_works known))).mono fun _ _ _ _ _ => trivial
    have hleads : running.Leads s { s with world := (memberTable t s.world).2 } := (works_of_resolving hresolving hsound).1
    exact ⟨running.trans ih.leads hleads, ih.orderly.advance (.of_program rfl) hleads.2.toRuns fun _ hp => hp, ih.recorded⟩

end CallResolution.Session
