import CallResolution.Diagnostic.Golden
import CallResolution.Proofs.Diagnostic.Repeats
import Mathlib.Data.List.Perm.Basic
import Mathlib.Data.String.Basic

/-!
# Golden lines

The lines for comparisons are sorted by everything they show, so lines that compare equal are
equal and a list of lines has one order only. Reports that come in another order, each with
its notes in another order, give the same lines and thus the same text.

Nothing that a line shows breaks it: labels and codes are fixed words and digits, line ends in
a message become spaces, and a shown path is made of the characters of the path and of the
directory of the run, slashes and dots. So the lines of the text are those that were written,
one for each place that is shown.

Main statement: `golden_of_reordered`.
-/

namespace CallResolution

open Source Text

/-! ## The order of lines

The order of lines is total and tells all of them apart, so sorting has one outcome.
-/

namespace GoldenLine

/-- What lines are sorted by. All that a line shows is in it, the message last. -/
def printKey (l : GoldenLine) : String ×ₗ Nat ×ₗ Nat ×ₗ String ×ₗ String ×ₗ String :=
  toLex (l.path, toLex (l.line, toLex (l.column, toLex (l.severity, toLex (l.code, l.message)))))

/-- Lines with one key are equal: the key is all that a line shows. -/
theorem printKey_inj {a b : GoldenLine} (h : a.printKey = b.printKey) : a = b := by
  cases a
  cases b
  simpa [printKey] using h

/-- One line is printed no later than another where its key is not the greater. -/
theorem printedBefore_iff {a b : GoldenLine} : a.printedBefore b ↔ a.printKey ≤ b.printKey := by
  rw [printedBefore]
  simp only [printKey, Prod.Lex.toLex_le_toLex]
  split_ifs <;> simp_all [-String.lt_iff_ltb]

theorem printedBefore_trans (a b c : GoldenLine) (hab : a.printedBefore b) (hbc : b.printedBefore c) : a.printedBefore c :=
  printedBefore_iff.mpr ((printedBefore_iff.mp hab).trans (printedBefore_iff.mp hbc))

theorem printedBefore_total (a b : GoldenLine) : a.printedBefore b || b.printedBefore a := by
  rw [Bool.or_eq_true, printedBefore_iff, printedBefore_iff]
  exact le_total _ _

/-- Sorting gives one list for all orders of some lines. -/
theorem mergeSort_eq_of_perm {ls ms : List GoldenLine} (h : ls.Perm ms) :
    ls.mergeSort printedBefore = ms.mergeSort printedBefore := by
  have hperm : (ls.mergeSort printedBefore).Perm (ms.mergeSort printedBefore) :=
    (List.mergeSort_perm ls _).trans (h.trans (List.mergeSort_perm ms _).symm)
  refine hperm.eq_of_pairwise (fun a b _ _ hab hba => ?_)
    (List.pairwise_mergeSort printedBefore_trans printedBefore_total ls)
    (List.pairwise_mergeSort printedBefore_trans printedBefore_total ms)
  exact printKey_inj (le_antisymm (printedBefore_iff.mp hab) (printedBefore_iff.mp hba))

end GoldenLine

/-! ## Reports in another order

A permutation of the reports permutes the lines.
-/

/-- The same reports in another order, each with its notes in another order. Two runs over the
same files may differ in this and in nothing else. -/
def Reordered (ds es : List Diagnostic) : Prop :=
  ∃ ms, ds.Perm ms ∧ List.Forall₂ (fun d e => ∃ notes, d.notes.Perm notes ∧ e = { d with notes }) ms es

variable {fs : FileSet} {notes skipBuiltin : Bool}

/-- A report with its notes in another order has the same lines. -/
theorem Diagnostic.goldenLines_perm (d : Diagnostic) {ns : List Note} (h : d.notes.Perm ns) :
    (d.goldenLines fs notes skipBuiltin).Perm ({ d with notes := ns }.goldenLines fs notes skipBuiltin) := by
  unfold goldenLines
  cases notes
  · exact .refl _
  · exact (h.filterMap _).append_left _

/-- Reordered reports have the same lines. -/
theorem Reordered.goldenLines_perm {ds es : List Diagnostic} (h : Reordered ds es) :
    (ds.flatMap (·.goldenLines fs notes skipBuiltin)).Perm (es.flatMap (·.goldenLines fs notes skipBuiltin)) := by
  obtain ⟨ms, hperm, hnotes⟩ := h
  refine (hperm.flatMap_right _).trans ?_
  clear hperm
  induction hnotes with
  | nil => exact .refl _
  | cons hd _ ih =>
    obtain ⟨ns, hns, rfl⟩ := hd
    exact (Diagnostic.goldenLines_perm _ hns).append ih

/-- Reordered reports are written as the same text. -/
theorem Reordered.formatLines_eq {ds es : List Diagnostic} (h : Reordered ds es) :
    formatLines fs notes skipBuiltin ds = formatLines fs notes skipBuiltin es := by
  unfold formatLines
  rw [GoldenLine.mergeSort_eq_of_perm h.goldenLines_perm]

/-! ## Characters of paths

Cleaning a path and seeing it from a directory drops components and puts slashes and dots
between and in front of those that are left. Any other character of what comes out was there
before.
-/

/-- A character of joined parts is the separator or stands in a part. -/
theorem mem_intercalate {α : Type} {sep a : α} {ls : List (List α)} (h : a ∈ [sep].intercalate ls) :
    a = sep ∨ ∃ l ∈ ls, a ∈ l := by
  induction ls with
  | nil => simp at h
  | cons l ls ih =>
    by_cases hls : ls = []
    · subst hls
      exact .inr ⟨l, by simp, by simpa using h⟩
    · rw [List.intercalate_cons_of_ne_nil hls, List.append_assoc, List.mem_append, List.mem_append] at h
      obtain h | h | h := h
      · exact .inr ⟨l, by simp, h⟩
      · exact .inl (List.mem_singleton.mp h)
      · exact (ih h).imp_right fun ⟨m, hm, ha⟩ => ⟨m, by simp [hm], ha⟩

/-- What stands in a part of joined parts stands in the whole. -/
theorem mem_intercalate_of_mem {α : Type} (sep : α) {a : α} {ls : List (List α)} {l : List α} (hl : l ∈ ls) (ha : a ∈ l) :
    a ∈ [sep].intercalate ls := by
  induction ls with
  | nil => simp at hl
  | cons m ls ih =>
    by_cases hls : ls = []
    · subst hls
      simpa [List.mem_singleton.mp hl] using ha
    · rw [List.intercalate_cons_of_ne_nil hls]
      obtain rfl | hl := List.mem_cons.mp hl
      · simp [ha]
      · simp [ih hl]

namespace Source.Path

variable {c : Char}

/-- A part of a path holds no character that the path does not hold. -/
theorem notMem_components {p q : String} (h : c ∉ p.toList) (hq : q ∈ components p) : c ∉ q.toList := by
  obtain ⟨l, hl, rfl⟩ := List.mem_map.mp hq
  rw [String.toList_ofList]
  intro hc
  have hmem := mem_intercalate_of_mem '/' hl hc
  rw [List.intercalate_splitOn] at hmem
  exact h hmem

/-- What is added is the component or two dots. -/
theorem mem_pushComponent {rooted : Bool} {done : List String} {r q : String} (h : q ∈ pushComponent rooted done r) :
    q ∈ done ∨ q = r ∨ q = ".." := by
  fun_cases pushComponent rooted done r <;> simp_all [pushComponent]
  tauto

/-- Cleaning keeps components of the path, and adds none but two dots. -/
theorem mem_cleanComponents {p q : String} (h : q ∈ cleanComponents p) : q ∈ components p ∨ q = ".." := by
  have hfold {rooted : Bool} {rs done : List String} (hq : q ∈ rs.foldl (pushComponent rooted) done) :
      q ∈ done ∨ q ∈ rs ∨ q = ".." := by
    induction rs generalizing done with
    | nil => exact .inl hq
    | cons r rs ih =>
      obtain hq | hq | hq := ih hq
      · exact (mem_pushComponent hq).imp_right fun h => h.imp_left fun (heq : q = r) => heq ▸ List.mem_cons_self
      · exact .inr (.inl (List.mem_cons_of_mem _ hq))
      · exact .inr (.inr hq)
  exact (hfold (List.mem_reverse.mp h)).resolve_left List.not_mem_nil

/-- A cleaned component holds no character that the path does not hold, unless it is a dot. -/
theorem notMem_cleanComponents (hdot : c ≠ '.') {p q : String} (h : c ∉ p.toList) (hq : q ∈ cleanComponents p) : c ∉ q.toList := by
  obtain hq | rfl := mem_cleanComponents hq
  · exact notMem_components h hq
  · simpa using hdot

/-- Written components hold no characters but theirs, slashes and dots. -/
theorem notMem_ofComponents (hslash : c ≠ '/') (hdot : c ≠ '.') {cs : List String} (h : ∀ q ∈ cs, c ∉ q.toList) (rooted : Bool) :
    c ∉ (ofComponents rooted cs).toList := by
  have hjoined : c ∉ ("/".intercalate cs).toList := by
    rw [String.toList_intercalate]
    intro hc
    obtain rfl | ⟨l, hl, hc⟩ := mem_intercalate hc
    · exact hslash rfl
    · obtain ⟨q, hq, rfl⟩ := List.mem_map.mp hl
      exact h q hq hc
  unfold ofComponents
  split_ifs
  · simpa [hslash] using hjoined
  · simpa using hdot
  · exact hjoined

variable (hslash : c ≠ '/') (hdot : c ≠ '.')
include hslash hdot

/-- A cleaned path holds no characters but those of the path, slashes and dots. -/
theorem notMem_clean {p : String} (h : c ∉ p.toList) : c ∉ (clean p).toList :=
  notMem_ofComponents hslash hdot (fun _ => notMem_cleanComponents hdot h) _

/-- A path seen from the root holds no characters but those of the path and of the directory,
slashes and dots. -/
theorem notMem_absolute {cwd p : String} (hcwd : c ∉ cwd.toList) (h : c ∉ p.toList) : c ∉ (absolute cwd p).toList := by
  unfold absolute join
  split_ifs
  · exact notMem_clean hslash hdot h
  · simp
  · exact notMem_clean hslash hdot h
  · exact notMem_clean hslash hdot hcwd
  · exact notMem_clean hslash hdot (by simp [hcwd, h, hslash])

omit hslash hdot in
/-- What lies below a list of components is a part of the list. -/
theorem subset_of_below? {front cs rest : List String} (h : below? front cs = some rest) : rest ⊆ cs := by
  fun_induction below? front cs with
  | case1 cs => simp_all
  | case2 => simp at h
  | case3 ps q cs ih => exact fun x hx => List.mem_cons_of_mem _ (ih h hx)
  | case4 => simp at h

/-- A path seen from a directory holds no characters but those of the path and of the
directory of the run, slashes and dots. -/
theorem notMem_relativeTo {cwd p base : String} (hcwd : c ∉ cwd.toList) (h : c ∉ p.toList) : c ∉ (relativeTo cwd p base).toList := by
  have htarget := notMem_absolute hslash hdot hcwd h
  unfold relativeTo
  simp only
  split
  · rename_i rest hrest
    exact notMem_ofComponents hslash hdot (fun q hq => notMem_cleanComponents hdot htarget (subset_of_below? hrest hq)) _
  · exact htarget

end Source.Path

/-! ## Line breaks

No part of a line holds a newline, if the paths that are shown do not.
-/

/-- No shown path holds a newline. The predefined universe is shown under its own name. A path
with a newline would break its line in two. -/
def Source.FileSet.PlainPaths (fs : FileSet) : Prop :=
  ∀ f ∈ fs.files, f.path ≠ builtinPath → '\n' ∉ (fs.shownPath f .relative).toList

/-- Where neither the directory of the run nor the path of a file holds a newline, no shown
path does. -/
theorem Source.FileSet.plainPaths (hdir : '\n' ∉ fs.workDir.toList) (hpaths : ∀ f ∈ fs.files, '\n' ∉ f.path.toList) :
    fs.PlainPaths := by
  intro f hf _
  have hslash : '\n' ≠ '/' := by decide
  have hdot : '\n' ≠ '.' := by decide
  unfold FileSet.shownPath File.shownPath
  exact Path.notMem_clean hslash hdot (Path.notMem_relativeTo hslash hdot hdir (hpaths f hf))

/-- Line ends become spaces. -/
theorem newline_notMem_spaceLineEnds (cs : List Char) : '\n' ∉ spaceLineEnds cs := by
  fun_induction spaceLineEnds cs with
  | case1 => exact List.not_mem_nil
  | case2 c h => simp
  | case3 c h =>
    obtain ⟨hc, -⟩ : c ≠ '\n' ∧ c ≠ '\r' := by simpa using h
    simpa using hc.symm
  | case4 c d rest h ih => simpa using ih
  | case5 c d rest h h' ih => simpa using ih
  | case6 c d rest h h' ih =>
    obtain ⟨hc, -⟩ : c ≠ '\n' ∧ c ≠ '\r' := by simpa using h'
    simpa using ⟨hc.symm, ih⟩

/-- Trimming leaves a part of the text. -/
theorem subset_trimBlanks (s : String) : (trimBlanks s).toList ⊆ s.toList := by
  rw [trimBlanks, String.toList_ofList, dropEndWhile]
  intro c hc
  have hc := (List.dropWhile_suffix _).subset (List.mem_reverse.mp hc)
  exact (List.dropWhile_suffix _).subset (List.mem_reverse.mp hc)

/-- A message is put on one line. -/
theorem newline_notMem_oneLine (message : String) : '\n' ∉ (oneLine message).toList := by
  intro h
  have hspaced := subset_trimBlanks _ h
  rw [String.toList_ofList] at hspaced
  exact newline_notMem_spaceLineEnds _ hspaced

/-- Dropping leading dots and slashes leaves a part of the path. -/
theorem subset_dropDotSlash (cs : List Char) : dropDotSlash cs ⊆ cs := by
  fun_induction dropDotSlash cs with
  | case1 rest ih => exact fun c hc => by simp [ih hc]
  | case2 => exact List.Subset.refl _

/-- The digits of a number hold no newline. -/
theorem newline_notMem_toDigits (n : Nat) : '\n' ∉ Nat.toDigits 10 n :=
  fun h => absurd (Nat.isDigit_of_mem_toDigits (by decide) (by decide) h) (by decide)

/-- The label of a severity holds no newline. -/
theorem Severity.newline_notMem_label (s : Severity) : '\n' ∉ s.label.toList := by
  unfold label
  split_ifs <;> decide

/-- The label of a note holds no newline. -/
theorem NoteKind.newline_notMem_label (k : NoteKind) : '\n' ∉ k.label.toList := by
  cases k <;> decide

/-- A shown place holds no newline. -/
theorem newline_notMem_goldenPlace (hplain : fs.PlainPaths) {s : Span} {place : String × Position}
    (h : goldenPlace? fs s = some place) : '\n' ∉ place.1.toList := by
  obtain ⟨f, hf, hplace⟩ := Option.bind_eq_some_iff.mp h
  have hmem : f ∈ fs.files := Array.mem_of_getElem? hf
  split at hplace
  · cases hplace
  · obtain rfl := Option.some.inj hplace
    dsimp only
    split_ifs with hbuiltin
    · rw [hbuiltin]
      decide
    · rw [String.toList_ofList]
      exact fun hc => hplain f hmem hbuiltin (subset_dropDotSlash _ hc)

/-- A line holds no newline. -/
theorem newline_notMem_text (hplain : fs.PlainPaths) {severity : String} (hseverity : '\n' ∉ severity.toList) {code : Code} {s : Span}
    {message : String} {l : GoldenLine} (h : goldenLine? fs skipBuiltin severity code s message = some l) : '\n' ∉ l.text.toList := by
  obtain ⟨⟨path, pos⟩, hplace, hline⟩ := Option.bind_eq_some_iff.mp h
  have hpath : '\n' ∉ path.toList := newline_notMem_goldenPlace hplain hplace
  have hcode : '\n' ∉ code.id.toList := fun h => absurd (Code.isAlphanum_of_mem_id h) (by decide)
  have hmessage := newline_notMem_oneLine message
  dsimp only at hline
  split_ifs at hline
  obtain rfl := Option.some.inj hline
  simp [GoldenLine.text, toString, newline_notMem_toDigits, hseverity, hcode, hpath, hmessage]

/-- The lines of reports hold no newline. -/
theorem newline_notMem_goldenLines (hplain : fs.PlainPaths) {d : Diagnostic} {l : GoldenLine}
    (hl : l ∈ d.goldenLines fs notes skipBuiltin) : '\n' ∉ l.text.toList := by
  obtain hl | hl := List.mem_append.mp hl
  · exact newline_notMem_text hplain d.severity.newline_notMem_label (Option.mem_toList.mp hl)
  · obtain ⟨-, hl⟩ := List.mem_ite_nil_right.mp hl
    obtain ⟨n, -, hl⟩ := List.mem_filterMap.mp hl
    exact newline_notMem_text hplain n.kind.newline_notMem_label hl

/-! ## The lines of a text

A text is cut back into the lines that it was joined from.
-/

/-- The lines of a text: what stands between its newlines. A blank text has none. -/
def textLines (text : String) : List (List Char) :=
  if text = "" then [] else text.toList.splitOn '\n'

/-- Texts that are not blank and hold no newline are the lines of what they are joined to. -/
theorem textLines_intercalate {ls : List String} (hplain : ∀ l ∈ ls, '\n' ∉ l.toList) (hblank : ∀ l ∈ ls, l ≠ "") :
    textLines ("\n".intercalate ls) = ls.map String.toList := by
  have hjoined : ("\n".intercalate ls).toList = ['\n'].intercalate (ls.map String.toList) := String.toList_intercalate
  unfold textLines
  by_cases hls : ls = []
  · simp [hls]
  · rw [if_neg, hjoined, List.splitOn_intercalate _ (by simpa using hplain) (by simpa using hls)]
    intro heq
    obtain ⟨l, hl⟩ := List.exists_mem_of_ne_nil ls hls
    obtain ⟨c, hc⟩ := List.exists_mem_of_ne_nil l.toList (by simpa using hblank l hl)
    have hmem := mem_intercalate_of_mem '\n' (List.mem_map_of_mem hl) hc
    rw [← hjoined, heq] at hmem
    simp at hmem

/-- A line is not blank. -/
theorem GoldenLine.text_ne_empty (l : GoldenLine) : l.text ≠ "" := by
  intro h
  have hspace : ' ' ∈ l.text.toList := by simp [text, toString]
  simp [h] at hspace

/-- The lines of what is written are those of the reports, in their order. -/
theorem textLines_formatLines (hplain : fs.PlainPaths) (ds : List Diagnostic) :
    textLines (formatLines fs notes skipBuiltin ds) =
      ((ds.flatMap (·.goldenLines fs notes skipBuiltin)).mergeSort GoldenLine.printedBefore).map (·.text.toList) := by
  unfold formatLines
  rw [textLines_intercalate, List.map_map]
  · rfl
  · intro t ht
    obtain ⟨l, hl, rfl⟩ := List.mem_map.mp ht
    obtain ⟨d, -, hl⟩ := List.mem_flatMap.mp (List.mem_mergeSort.mp hl)
    exact newline_notMem_goldenLines hplain hl
  · intro t ht
    obtain ⟨l, -, rfl⟩ := List.mem_map.mp ht
    exact l.text_ne_empty

/-! ## What is written

How many lines there are, and that the text does not depend on the order of the reports.
-/

/-- The places of a report: its own, and with notes also theirs. -/
def Diagnostic.places (notes : Bool) (d : Diagnostic) : List Span :=
  d.primary :: if notes then d.notes.map (·.span) else []

/-- A place is written: its file exists, it starts inside the file, and the file is not the
predefined universe where that is left out. -/
def Source.FileSet.writes (fs : FileSet) (skipBuiltin : Bool) (s : Span) : Bool :=
  (goldenPlace? fs s).any fun (path, _) => !(skipBuiltin && path = builtinPath)

/-- There is a line for a place that is written. -/
theorem isSome_goldenLine (severity : String) (code : Code) (s : Span) (message : String) :
    (goldenLine? fs skipBuiltin severity code s message).isSome = fs.writes skipBuiltin s := by
  unfold goldenLine? FileSet.writes
  cases goldenPlace? fs s with
  | none => rfl
  | some place =>
    simp only [Option.bind_eq_bind, Option.bind_some, Option.any_some]
    split_ifs with hskip <;> simp [hskip]

/-- There are as many lines as places that are written. -/
theorem length_goldenLines (ds : List Diagnostic) :
    (ds.flatMap (·.goldenLines fs notes skipBuiltin)).length = (ds.flatMap (·.places notes)).countP (fs.writes skipBuiltin) := by
  have hone (d : Diagnostic) :
      (d.goldenLines fs notes skipBuiltin).length = (d.places notes).countP (fs.writes skipBuiltin) := by
    have hprimary : (goldenLine? fs skipBuiltin d.severity.label d.code d.primary d.message).isSome = fs.writes skipBuiltin d.primary :=
      isSome_goldenLine _ _ _ _
    rw [Diagnostic.goldenLines, Diagnostic.places, List.length_append, List.countP_cons, ← hprimary, Nat.add_comm]
    congr 1
    · cases notes
      · rfl
      · simp only [if_true, List.length_filterMap_eq_countP, isSome_goldenLine, List.countP_map]
        rfl
    · cases goldenLine? fs skipBuiltin d.severity.label d.code d.primary d.message <;> rfl
  rw [List.length_flatMap, List.countP_flatMap]
  exact congrArg List.sum (List.map_congr_left fun d _ => hone d)

/-- What is written does not depend on the order of the reports, nor on the order of the notes
of each. Where no shown path holds a newline, as where neither the directory of the run nor
the path of a file does, it has one line for each place that is written. -/
theorem golden_of_reordered {ds es : List Diagnostic} (h : Reordered ds es) (fs : FileSet) (notes : Bool) :
    formatGolden fs notes ds = formatGolden fs notes es ∧
      formatListing fs notes ds = formatListing fs notes es ∧
      (fs.PlainPaths →
        (textLines (formatGolden fs notes ds)).length = (ds.flatMap (·.places notes)).countP (fs.writes true) ∧
        (textLines (formatListing fs notes ds)).length = (ds.flatMap (·.places notes)).countP (fs.writes false)) ∧
      ('\n' ∉ fs.workDir.toList → (∀ f ∈ fs.files, '\n' ∉ f.path.toList) → fs.PlainPaths) := by
  have hlines (hplain : fs.PlainPaths) (skipBuiltin : Bool) :
      (textLines (formatLines fs notes skipBuiltin ds)).length = (ds.flatMap (·.places notes)).countP (fs.writes skipBuiltin) := by
    rw [textLines_formatLines hplain, List.length_map, List.length_mergeSort, length_goldenLines]
  exact ⟨h.formatLines_eq, h.formatLines_eq, fun hplain => ⟨hlines hplain true, hlines hplain false⟩, FileSet.plainPaths⟩

/-- An error with two notes and a warning about the predefined universe, reported the other
way round and the notes too. The warning has a line in the listing only. -/
theorem golden_of_two_reports :
    let files : Array File := #[⟨0, "a.yaml", "x\ny\nz".toUTF8.toList, ⟨1⟩⟩, ⟨1, builtinPath, [], ⟨1⟩⟩]
    let fs : FileSet := { workDir := "/w", files }
    let n : Note := { span := ⟨0, 2, 3⟩, message := "one\r\ntwo" }
    let n' : Note := { span := ⟨0, 4, 5⟩, message := "three", kind := .candidate }
    let d : Diagnostic := { Diagnostic.error .methodNotFound ⟨0, 0, 1⟩ "no such\nmethod" with notes := [n, n'] }
    let e : Diagnostic := .warning ⟨3001⟩ ⟨1, 0, 0⟩ "w"
    let ds := [d, e]
    let es := [e, { d with notes := [n', n] }]
    Reordered ds es ∧ formatGolden fs true ds = formatGolden fs true es ∧
      (textLines (formatGolden fs true ds)).length = 3 ∧ (textLines (formatListing fs true ds)).length = 4 := by
  intro files fs n n' d e ds es
  have h : Reordered ds es :=
    ⟨[e, d], .swap _ _ _, .cons ⟨[], .refl _, rfl⟩ (.cons ⟨[n', n], .swap _ _ _, rfl⟩ .nil)⟩
  obtain ⟨hgolden, -, hcount, hplain⟩ := golden_of_reordered h fs true
  obtain ⟨hthree, hfour⟩ := hcount (hplain (by decide) (by decide))
  exact ⟨h, hgolden, hthree.trans (by decide +kernel), hfour.trans (by decide +kernel)⟩

end CallResolution
