import CallResolution.Command.Execute
import CallResolution.Proofs.Run.Restored

/-!
# What a run says about errors

A file has errors when its bag holds one, and a command that binds the calls of documents
fails when a file has errors. The filter for repeats loses no error, because a repeat has the
severity of what it repeats (`hasError_passing`); the bag loses what is reported once it is
full. So an error is missed only behind as many other reports as the limit allows, whatever
the limit is.

Main statement: `kept_error_fails`. A warning that fills the bag hides the error behind it:
`filled_bag_hides_error`.
-/

namespace CallResolution

open Command Files Source Text

/-! ## Reports that are kept

An error passes the filter or repeats one that did; the bag takes what passes while there is
room.
-/

/-- Whether some of the diagnostics is an error. -/
def HasError (ds : List Diagnostic) : Prop :=
  ∃ d ∈ ds, d.severity.isError

instance (ds : List Diagnostic) : Decidable (HasError ds) :=
  inferInstanceAs (Decidable (∃ d ∈ ds, d.severity.isError))

@[simp] theorem hasError_nil : ¬ HasError [] := by
  simp [HasError]

@[simp] theorem hasError_cons (d : Diagnostic) (ds : List Diagnostic) :
    HasError (d :: ds) ↔ d.severity.isError ∨ HasError ds := by
  simp [HasError]

@[simp] theorem hasError_append (ds es : List Diagnostic) : HasError (ds ++ es) ↔ HasError ds ∨ HasError es := by
  simp [HasError, or_and_right, exists_or]

@[simp] theorem hasError_reverse (ds : List Diagnostic) : HasError ds.reverse ↔ HasError ds := by
  simp [HasError]

theorem Bag.hasErrors_iff (b : Bag) : b.hasErrors ↔ HasError b.items := by
  simp [Bag.hasErrors, HasError]

/-- A repeat is as severe as what it repeats. -/
theorem OnceFilter.hasError_pass (r : OnceFilter) (d : Diagnostic) :
    HasError (r.pass d).2.seen ↔ d.severity.isError ∨ HasError r.seen := by
  unfold pass
  split
  · rename_i hseen
    obtain ⟨d', hmem, hsame⟩ := List.any_eq_true.mp hseen
    have hseverity : d.severity = d'.severity := by
      simp only [sameReport, Bool.and_eq_true, decide_eq_true_eq] at hsame
      exact hsame.1.1.2
    constructor
    · exact .inr
    · rintro (herror | h)
      · exact ⟨d', hmem, by rwa [← hseverity]⟩
      · exact h
  · simp

/-- No error is lost to the filter for repeats. A repeat has the severity of what it repeats,
so an error that is dropped leaves another one behind. -/
theorem hasError_passing (ds : List Diagnostic) : HasError (passing ds) ↔ HasError ds := by
  have run (r : OnceFilter) :
      HasError (ds.foldl (fun (r : OnceFilter) d => (r.pass d).2) r).seen ↔ HasError r.seen ∨ HasError ds := by
    induction ds generalizing r with
    | nil => simp
    | cons d ds ih =>
      rw [List.foldl_cons, ih, r.hasError_pass]
      simp [or_comm, or_left_comm]
  simpa [passing] using run {}

/-- What is added to a bag in any case is no loss for the others. -/
theorem Bag.hasErrors_force (b : Bag) (d : Diagnostic) : (b.force d).hasErrors ↔ b.hasErrors ∨ d.severity.isError := by
  by_cases hfull : b.limit ≤ b.items.length <;> simp [Bag.hasErrors_iff, Bag.force, Bag.add, Bag.merge, hfull]

/-- The bag of a document holds an error when one is among the first reports that pass the
filter. -/
theorem Loaded.run_hasErrors (l : Loaded) (base : Options) (limit : Nat) :
    (l.run base limit).bag.hasErrors ↔
      HasError ((passing (l.run base limit).session.world.reports.toList).take limit) := by
  rw [Bag.hasErrors_iff]
  show HasError (collectReports limit _).2.items ↔ _
  rw [collectReports_items]
  rfl

/-! ## Results of files

What the result of a file says of errors is what its bag says.
-/

namespace RunPlan

variable {p : RunPlan} {f : File} {st : RunState} {result : FileResult} {loaded : Loaded} {run : FileRun}

/-- A result that did not come from the cache is that of a run of the document; the report of
the times is no error. -/
theorem resolveFile_fresh (hfresh : (resolveFile p f st).1.fresh? = some (loaded, run)) :
    run = loaded.run p.options (diagnosticLimit p.limit) ∧
      ((resolveFile p f st).1.hasErrors ↔ run.bag.hasErrors) := by
  obtain ⟨st₁, -, hresult, -⟩ := resolveFile_eq p f st
  rw [hresult] at hfresh ⊢
  cases hfound : p.cache? >>= fun c => c.get? p.formats.entry st₁.tree (p.key f) with
  | some e =>
    unfold resultFor at hfresh
    rw [get_bind_apply, hfound] at hfresh
    cases hfresh
  | none =>
    rw [resultFor_of_miss hfound] at hfresh ⊢
    cases hdoc : p.formats.load f with
    | error fault =>
      rw [hdoc] at hfresh
      cases hfresh
    | ok loaded' =>
      rw [hdoc] at hfresh
      cases hfresh
      refine ⟨rfl, ?_⟩
      show (if p.timings then Bag.force _ _ else _ : Bag).hasErrors ↔ _
      split
      · simp [Bag.hasErrors_force, timingDiagnostic, Severity.isError, Severity.error, Severity.info]
      · rfl

end RunPlan

/-- Each value of a sequence of steps comes from a step. -/
theorem exists_of_mem_mapM {σ α β : Type} {g : α → StateM σ β} {b : β} (l : List α) (st : σ) (h : b ∈ (l.mapM g st).1) :
    ∃ a ∈ l, ∃ st', b = (g a st').1 := by
  induction l generalizing st with
  | nil => cases h
  | cons a l ih =>
    rw [List.mapM_cons] at h
    rcases List.mem_cons.mp h with rfl | h
    · exact ⟨a, by simp, st, rfl⟩
    · obtain ⟨a', hmem, st', hb⟩ := ih _ h
      exact ⟨a', by simp [hmem], st', hb⟩

/-- Each result of a run is that of a file. -/
theorem exists_of_mem_results {p : RunPlan} {paths : List String} {st : RunState} {r : RunResult} {result : FileResult}
    (hrun : (resolveFiles p false paths st).1 = .ok r) (hresult : result ∈ r.results) :
    ∃ f st', result = (resolveFile p f st').1 := by
  have hload : ∃ st₁, (loadAndResolve p false paths st₁).1 = .ok r := ⟨_, hrun⟩
  obtain ⟨st₁, hload⟩ := hload
  unfold loadAndResolve at hload
  rw [get_bind_apply] at hload
  cases hfiles : loadAll st₁.tree { workDir := st₁.tree.workDir } paths with
  | error fault =>
    rw [hfiles] at hload
    cases hload
  | ok loaded =>
    rw [hfiles] at hload
    cases hload
    obtain ⟨f, -, st', hf⟩ := exists_of_mem_mapM _ _ hresult
    exact ⟨f, st', hf⟩

/-! ## The command

From the command line back to the results of its files: a command that goes well has prepared
a run, made it, and seen no errors.
-/

namespace Command

/-- A step that fails ends a sequence of steps. -/
theorem run_bind {α β : Type} (x : CommandM α) (k : α → CommandM β) (o : Output) :
    (x >>= k).run o = match x.run o with
      | (.ok a, o') => (k a).run o'
      | (.error fault, o') => (.error fault, o') := by
  unfold ExceptT.run
  simp only [bind, ExceptT.bind, ExceptT.mk, StateT.bind]
  cases x o with
  | mk r o' => cases r <;> rfl

/-- A sequence of steps that succeeds is one of steps that succeed. -/
theorem steps_of_run_bind {α β : Type} {x : CommandM α} {k : α → CommandM β} {b : β} {o o' : Output}
    (h : (x >>= k).run o = (.ok b, o')) : ∃ a o₁, x.run o = (.ok a, o₁) ∧ (k a).run o₁ = (.ok b, o') := by
  rw [run_bind] at h
  cases hx : x.run o with
  | mk r o₁ =>
    rw [hx] at h
    cases r with
    | ok a => exact ⟨a, o₁, rfl, h⟩
    | error e => cases h

/-- A command that goes well has seen no errors. -/
theorem conclude_ok {s : Surroundings} {l : Line} {job : Job} {outcome : Except RunFault RunResult} {metrics : Metrics}
    {tracing : Tracing} {o o' : Output} (h : (conclude s l job outcome metrics tracing).run o = (.ok (), o')) :
    ∃ r, outcome = .ok r ∧ ¬ r.hasErrors := by
  have failing (x : CommandM Unit) (f : CommandFault) (o : Output) :
      (x >>= fun _ => (throw f : CommandM Unit)).run o ≠ (.ok (), o') := by
    intro h
    obtain ⟨_, _, -, h⟩ := steps_of_run_bind h
    cases h
  cases outcome with
  | error f => exact absurd h (failing _ _ _)
  | ok r =>
    refine ⟨r, rfl, fun herrors => ?_⟩
    obtain ⟨_, o₁, -, h⟩ := steps_of_run_bind h
    simp only [herrors, if_true] at h
    split at h
    · obtain ⟨_, o₂, -, h⟩ := steps_of_run_bind h
      exact failing _ _ _ h
    · exact failing _ _ _ h

/-- What is handed on from a run is its outcome. -/
theorem runOver_ok {plan : RunPlan} {paths : List String} {tracing tracing' : Tracing} {metrics : Metrics}
    {outcome : Except RunFault RunResult} {o o' : Output}
    (h : (runOver plan paths tracing).run o = (.ok (outcome, metrics, tracing'), o')) :
    outcome = ((resolveFiles plan false paths).run { tree := o.tree }).1 := by
  obtain ⟨_, _, htree, h⟩ := steps_of_run_bind h
  cases htree
  obtain ⟨_, _, -, h⟩ := steps_of_run_bind h
  obtain ⟨_, _, -, h⟩ := steps_of_run_bind h
  cases h
  rfl

/-- A command that goes well prepares a run and makes it, and the run sees no errors. -/
theorem resolve_ok {s : Surroundings} {l : Line} {o o' : Output} (h : (resolve s l).run o = (.ok (), o')) :
    ∃ job o₁ r, (prepare s l).run o = (.ok job, o₁) ∧
      ((resolveFiles job.plan false job.paths).run { tree := o₁.tree }).1 = .ok r ∧ ¬ r.hasErrors := by
  obtain ⟨job, o₁, hjob, h⟩ := steps_of_run_bind h
  obtain ⟨⟨outcome, metrics, tracing⟩, o₂, hrun, h⟩ := steps_of_run_bind h
  obtain ⟨r, rfl, hr⟩ := conclude_ok h
  exact ⟨job, o₁, r, hjob, (runOver_ok hrun).symm, hr⟩

/-- A command line fails when its command does. -/
theorem execute_fails {s : Surroundings} {l : Line} {tree : Files.FileTree} {args : List String}
    (hline : s.commandLine args = .ok (.run .resolve l)) (h : ∀ o', (resolve s l).run { tree } ≠ (.ok (), o')) :
    (execute s tree args).1.isSome := by
  unfold execute
  have hperform : perform s (.run .resolve l) = resolve s l := rfl
  rw [hline]
  simp only [hperform]
  cases hrun : (resolve s l).run { tree } with
  | mk r o' =>
    cases r with
    | ok u => exact absurd hrun (h o')
    | error f => rfl

/-- An error that is kept makes the command fail, and none is lost while there is room: a file
that was run has errors exactly when one is among the first reports that pass the filter for
repeats, as many as the limit allows; that is when one was reported at all if there are no
more of them; and a file with errors makes the run have errors and the command fail. This is
so however the libraries read command lines, settings and documents and keep entries: they are
part of the surroundings, of which nothing is asked. -/
theorem kept_error_fails (s : Surroundings) (l : Line) (tree : FileTree) (job : Job) (o : Output) (r : RunResult)
    (result : FileResult) (loaded : Loaded) (run : FileRun) (hjob : (prepare s l).run { tree } = (.ok job, o))
    (hrun : ((resolveFiles job.plan false job.paths).run { tree := o.tree }).1 = .ok r)
    (hresult : result ∈ r.results) (hfresh : result.fresh? = some (loaded, run)) :
    let reports := run.session.world.reports.toList
    let limit := diagnosticLimit job.plan.limit
    run = loaded.run job.plan.options limit ∧
      (result.hasErrors ↔ HasError ((passing reports).take limit)) ∧
      ((passing reports).length ≤ limit → (result.hasErrors ↔ HasError reports)) ∧
      (result.hasErrors → r.hasErrors ∧ (∃ fault o', (resolve s l).run { tree } = (.error fault, o')) ∧
        ∀ args, s.commandLine args = .ok (.run .resolve l) → (execute s tree args).1.isSome) := by
  obtain ⟨f, st, rfl⟩ := exists_of_mem_results hrun hresult
  obtain ⟨hloaded, hbag⟩ := RunPlan.resolveFile_fresh hfresh
  have hkept : (resolveFile job.plan f st).1.hasErrors ↔
      HasError ((passing run.session.world.reports.toList).take (diagnosticLimit job.plan.limit)) := by
    rw [hbag, hloaded, Loaded.run_hasErrors]
  refine ⟨hloaded, hkept, fun hroom => ?_, fun herrors => ?_⟩
  · rw [hkept, List.take_of_length_le hroom, hasError_passing]
  · have hr : r.hasErrors := List.any_eq_true.mpr ⟨_, hresult, herrors⟩
    have hfails (o' : Output) : (resolve s l).run { tree } ≠ (.ok (), o') := by
      intro hok
      obtain ⟨job', o₁, r', hjob', hrun', hnone⟩ := resolve_ok hok
      cases hjob.symm.trans hjob'
      cases hrun.symm.trans hrun'
      exact hnone hr
    refine ⟨hr, ?_, fun args hline => execute_fails hline hfails⟩
    cases hend : (resolve s l).run { tree } with
    | mk outcome o' =>
      cases outcome with
      | ok u => exact absurd hend (hfails o')
      | error fault => exact ⟨fault, o', rfl⟩

/-! ## A warning in front of an error

One document, run with room for one report and with room for two.
-/

/-- The files of someone with one document, in which a warning about a variable that is
captured twice comes before the error that a method is not found. The warning is given while
the document is loaded. -/
def home : FileTree :=
  { workDir := "/home"
    entries := [(["home"], .directory), (["home", "a.yaml"], .file (bytesOf
      "classes: [\x7bname: p.A\x7d,\x7bname: p.A$1L,captures: [int x,int x]\x7d]\nprogram: [\x7bid: a,in: p.A,call: nope\x7d]"))] }

/-- The command line that asks for the calls of the document to be bound, with a limit. -/
def limited (limit : Int) : Line :=
  { flags := Verb.resolve.flags, given := [("max-diagnostics", .number limit)], args := ["a.yaml"] }

/-- What the command does for the document, taken apart: the job that is prepared, the result
of the run, and what came of the one file. -/
def homeRun (limit : Int) : Option (Job × Output × RunResult × FileResult × Loaded × FileRun) :=
  match (prepare { runId := "r" } (limited limit)).run { tree := home } with
  | (.ok job, o) =>
    match ((resolveFiles job.plan false job.paths).run { tree := o.tree }).1 with
    | .ok r =>
      match r.results with
      | [result] => result.fresh?.map fun (loaded, run) => (job, o, r, result, loaded, run)
      | _ => none
    | .error _ => none
  | (.error _, _) => none

theorem homeRun_spec {limit : Int} {job : Job} {o : Output} {r : RunResult} {result : FileResult} {loaded : Loaded}
    {run : FileRun} (h : homeRun limit = some (job, o, r, result, loaded, run)) :
    (prepare { runId := "r" } (limited limit)).run { tree := home } = (.ok job, o) ∧
      ((resolveFiles job.plan false job.paths).run { tree := o.tree }).1 = .ok r ∧ result ∈ r.results ∧
      result.fresh? = some (loaded, run) := by
  unfold homeRun at h
  split at h
  · rename_i job' o' hjob
    split at h
    · rename_i r' hrun
      split at h
      · rename_i result' hresults
        obtain ⟨⟨loaded', run'⟩, hfresh, heq⟩ := Option.map_eq_some_iff.mp h
        cases heq
        exact ⟨hjob, hrun, by simp [hresults], hfresh⟩
      · cases h
    · cases h
  · cases h

/-- With room for both reports the error makes the command fail. -/
theorem limited_two_fails : ∃ job o r result loaded run,
    (prepare { runId := "r" } (limited 2)).run { tree := home } = (.ok job, o) ∧
      ((resolveFiles job.plan false job.paths).run { tree := o.tree }).1 = .ok r ∧ result ∈ r.results ∧
      result.fresh? = some (loaded, run) ∧ HasError run.session.world.reports.toList ∧ result.hasErrors ∧ r.hasErrors ∧
      ∃ fault o', (resolve { runId := "r" } (limited 2)).run { tree := home } = (.error fault, o') := by
  have hruns : (homeRun 2).any fun (job, _, _, _, _, run) =>
      decide (HasError run.session.world.reports.toList) &&
        decide ((passing run.session.world.reports.toList).length ≤ diagnosticLimit job.plan.limit) := by
    decide +kernel
  obtain ⟨⟨job, o, r, result, loaded, run⟩, hrun, hreports⟩ := (Option.any_eq_true _ _).mp hruns
  simp only [Bool.and_eq_true, decide_eq_true_eq] at hreports
  obtain ⟨herror, hroom⟩ := hreports
  obtain ⟨hjob, hresolved, hresult, hfresh⟩ := homeRun_spec hrun
  obtain ⟨-, -, hall, hfails⟩ := kept_error_fails _ _ _ job o r result loaded run hjob hresolved hresult hfresh
  have herrors : result.hasErrors := (hall hroom).mpr herror
  obtain ⟨hr, hcommand, -⟩ := hfails herrors
  exact ⟨job, o, r, result, loaded, run, hjob, hresolved, hresult, hfresh, herror, herrors, hr, hcommand⟩

/-- A warning that fills the bag hides the error behind it: the error is reported, but the
file and the run have none, and the command goes well. With room for one report more it fails.
-/
theorem filled_bag_hides_error : ∃ job o r result loaded run,
    (prepare { runId := "r" } (limited 1)).run { tree := home } = (.ok job, o) ∧
      ((resolveFiles job.plan false job.paths).run { tree := o.tree }).1 = .ok r ∧ result ∈ r.results ∧
      result.fresh? = some (loaded, run) ∧ HasError run.session.world.reports.toList ∧ ¬ result.hasErrors ∧ ¬ r.hasErrors ∧
      ∃ o', (resolve { runId := "r" } (limited 1)).run { tree := home } = (.ok (), o') := by
  have hruns : (homeRun 1).any fun (_, _, r, result, _, run) =>
      decide (HasError run.session.world.reports.toList) && !result.hasErrors && !r.hasErrors := by
    decide +kernel
  obtain ⟨⟨job, o, r, result, loaded, run⟩, hrun, hverdict⟩ := (Option.any_eq_true _ _).mp hruns
  simp only [Bool.and_eq_true, decide_eq_true_eq, Bool.not_eq_true'] at hverdict
  obtain ⟨⟨herror, hresultOk⟩, hrunOk⟩ := hverdict
  obtain ⟨hjob, hresolved, hresult, hfresh⟩ := homeRun_spec hrun
  have hcommand : ((resolve { runId := "r" } (limited 1)).run { tree := home }).1.toOption.isSome := by
    decide +kernel
  refine ⟨job, o, r, result, loaded, run, hjob, hresolved, hresult, hfresh, herror, by simp [hresultOk], by simp [hrunOk], ?_⟩
  cases hend : (resolve { runId := "r" } (limited 1)).run { tree := home } with
  | mk outcome o' =>
    cases outcome with
    | ok u => exact ⟨o', rfl⟩
    | error fault =>
      rw [hend] at hcommand
      cases hcommand

end Command

end CallResolution
