import CallResolution.Proofs.Diagnostic.Lines
import CallResolution.Proofs.Source.Positions

/-!
# Previews of edits

A preview is made of the block of lines that an edit touches. It says what the edit does if
the block holds the edit and starts and ends where lines do. Then the file is the block with
something around it, and the edit changes the block only.

The bounds of the block come from the numbers of two lines, the edit from two offsets. What
joins them is the number of newlines in front of an offset, which gives the number of its line
and, by the order of the newlines, the place where that line starts. Numbers of lines are
words, and one line in one file has a number that fits no word: the last one behind 2³² - 1
newlines. What is edited there has no preview (`last_blank_line_not_previewed`).

Main statements: `previews_show_edits`, `previews_list_lines`.
-/

namespace CallResolution

open Source Text

/-- What an edit makes of the part of a file that starts at an offset. For the offset 0 and
the whole content it is what the edit makes of the file. -/
def Edit.applied (e : Edit) (offset : Nat) (part : Bytes) : Bytes :=
  part.take (e.span.start.toNat - offset) ++ bytesOf e.newText ++ part.drop (e.span.stop.toNat - offset)

/-- An edit inside a part of a text leaves what is around that part. -/
theorem Edit.applied_append {e : Edit} {a part b : Bytes} (hstart : a.length ≤ e.span.start.toNat)
    (hle : e.span.start.toNat ≤ e.span.stop.toNat) (hstop : e.span.stop.toNat ≤ a.length + part.length) :
    e.applied 0 (a ++ part ++ b) = a ++ e.applied a.length part ++ b := by
  have hfront : (a ++ part ++ b).take e.span.start.toNat = a ++ part.take (e.span.start.toNat - a.length) := by
    rw [List.append_assoc, List.take_append, List.take_of_length_le hstart, List.take_append_of_le_length (by omega)]
  have hback : (a ++ part ++ b).drop e.span.stop.toNat = part.drop (e.span.stop.toNat - a.length) ++ b := by
    rw [List.append_assoc, List.drop_append, List.drop_eq_nil_of_le (by omega), List.nil_append,
      List.drop_append_of_le_length (by omega)]
  unfold applied
  rw [Nat.sub_zero, Nat.sub_zero, hfront, hback]
  simp only [List.append_assoc]

namespace Source.File

variable {f : File} {e : Edit}

/-! ## Blocks of lines

The block starts at the start of a line and ends at the end of one. The one line whose number
does not fit a word is kept out by a condition on the end of the span, so that it can be
discussed on its own.
-/

/-- The number of a line is the number of newlines in front of it and one more, as a word. -/
theorem toNat_line_positionAt (f : File) (o : UInt32) :
    (f.positionAt o).line.toNat = (f.newlines.countP (· < o.toNat) + 1) % UInt32.size := by
  unfold positionAt
  dsimp only
  rw [Nat.toUInt32_eq, UInt32.toNat_ofNat']

/-- No line has a number behind that of the last one. -/
theorem line_positionAt_le (f : File) (o : UInt32) : (f.positionAt o).line.toNat ≤ f.newlines.length + 1 := by
  rw [toNat_line_positionAt]
  exact Nat.le_trans (Nat.mod_le _ _) (Nat.succ_le_succ List.countP_le_length)

/-- There are no more newlines in front of an offset than bytes. -/
theorem countP_newlines_le (f : File) (o : Nat) : f.newlines.countP (· < o) ≤ o :=
  Nat.le_trans (le_lineStart f.newlines_pairwise (fun _ => lt_of_mem_newlines) List.countP_le_length)
    (lineStart_countP_le f.newlines_pairwise o)

/-- In front of the place behind a newline, lines are ended. -/
theorem ended_take_newline {p : Nat} (h : p ∈ f.newlines) : Ended (f.content.take (p + 1)) := by
  obtain ⟨hlt, hp⟩ : ∃ hlt : p < f.content.length, f.content[p] = newline :=
    List.getElem?_eq_some_iff.mp (getElem?_of_mem_newlinesFrom h).2
  refine .inr ⟨f.content.take p, ?_⟩
  rw [← hp]
  exact List.take_append_getElem hlt

/-- The line after `k` newlines starts where they end. -/
theorem lineStartOffset_succ {k : Nat} (hk : k ≤ f.newlines.length) : f.lineStartOffset (k + 1) = lineStart f.newlines k := by
  cases k with
  | zero => rfl
  | succ m =>
    unfold lineStartOffset
    rw [if_neg (by omega), show m + 1 + 1 - 2 = m from rfl, List.getElem?_eq_getElem hk, lineStart_succ hk]

/-- In front of a line, lines are ended. -/
theorem ended_take_lineStartOffset {line : Nat} (hline : line ≤ f.newlines.length + 1) :
    Ended (f.content.take (f.lineStartOffset line)) := by
  cases line with
  | zero => exact .inl rfl
  | succ k =>
    have hk := Nat.le_of_succ_le_succ hline
    rw [lineStartOffset_succ hk]
    cases k with
    | zero => exact .inl rfl
    | succ m =>
      rw [lineStart_succ hk]
      exact ended_take_newline (List.getElem_mem hk)

/-- A line ends behind the offsets on it, or with the file. -/
theorem lt_lineStopOffset {o line : Nat} (h : f.newlines.countP (· < o) < line) :
    o < f.lineStopOffset line ∧ Ended (f.content.take (f.lineStopOffset line)) ∨ f.lineStopOffset line = f.content.length := by
  unfold lineStopOffset
  rw [if_neg (by omega)]
  split
  · rename_i n hn
    obtain ⟨hlt, rfl⟩ := List.getElem?_eq_some_iff.mp hn
    have hnot := mt (getElem_lt_iff (o := o) f.newlines_pairwise hlt).mp (by omega)
    exact .inl ⟨by omega, ended_take_newline (List.getElem_mem hlt)⟩
  · exact .inr rfl

/-- Lines start in the file. -/
theorem lineStartOffset_le {line : Nat} (hline : line ≤ f.newlines.length + 1) : f.lineStartOffset line ≤ f.content.length := by
  cases line with
  | zero => exact Nat.zero_le _
  | succ k =>
    have hk := Nat.le_of_succ_le_succ hline
    rw [lineStartOffset_succ hk]
    exact lineStart_le_length hk

/-- The block of touched lines lies in the file. -/
theorem touchedBlock_le (f : File) (s : Span) :
    (f.touchedBlock s).1 ≤ (f.touchedBlock s).2 ∧ (f.touchedBlock s).2 ≤ f.content.length := by
  have hstart := lineStartOffset_le (f.line_positionAt_le s.start)
  exact ⟨Nat.le_min.mpr ⟨Nat.le_max_right _ _, hstart⟩, Nat.min_le_right _ _⟩

/-- The block of touched lines starts where a line does. -/
theorem ended_take_touchedBlock (f : File) (s : Span) : Ended (f.content.take (f.touchedBlock s).1) :=
  ended_take_lineStartOffset (f.line_positionAt_le s.start)

/-- Where the line that a span ends on has a number that fits a word, the block of touched
lines ends behind the span and where a line does, or with the file. -/
theorem stop_lt_of_line {s : Span} (hline : f.newlines.countP (· < s.stop.toNat) + 1 < UInt32.size) :
    s.stop.toNat < (f.touchedBlock s).2 ∧ Ended (f.content.take (f.touchedBlock s).2) ∨ (f.touchedBlock s).2 = f.content.length := by
  have hstart := f.ended_take_touchedBlock s
  have hlast : f.newlines.countP (· < s.stop.toNat) < max (f.positionAt s.stop).line.toNat (f.positionAt s.start).line.toNat := by
    rw [toNat_line_positionAt f s.stop, Nat.mod_eq_of_lt hline]
    exact Nat.lt_of_lt_of_le (Nat.lt_succ_self _) (Nat.le_max_left _ _)
  unfold touchedBlock at hstart ⊢
  dsimp only at hstart ⊢
  generalize f.lineStartOffset (f.positionAt s.start).line.toNat = start at hstart ⊢
  rcases lt_lineStopOffset hlast with ⟨hlt, hended⟩ | hend
  · generalize f.lineStopOffset _ = stop at hlt hended ⊢
    have hmax : Ended (f.content.take (max stop start)) := by
      rcases Nat.le_total stop start with hle | hle
      · rwa [Nat.max_eq_right hle]
      · rwa [Nat.max_eq_left hle]
    by_cases hinside : max stop start ≤ f.content.length
    · rw [Nat.min_eq_left hinside]
      exact .inl ⟨Nat.lt_of_lt_of_le hlt (Nat.le_max_left _ _), hmax⟩
    · exact .inr (Nat.min_eq_right (Nat.le_of_not_le hinside))
  · rw [hend]
    exact .inr (Nat.min_eq_right (Nat.le_max_left _ _))

/-- The block of touched lines ends behind a span that it holds and where a line does, or with
the file. -/
theorem stop_lt_touchedBlock {s : Span} (hsize : f.content.length < UInt32.size) (hstop : s.stop.toNat ≤ (f.touchedBlock s).2) :
    s.stop.toNat < (f.touchedBlock s).2 ∧ Ended (f.content.take (f.touchedBlock s).2) ∨ (f.touchedBlock s).2 = f.content.length := by
  by_cases hline : f.newlines.countP (· < s.stop.toNat) + 1 < UInt32.size
  · exact stop_lt_of_line hline
  · -- Only the end of a file of nothing but newlines is on a line without a number.
    have hcount := f.countP_newlines_le s.stop.toNat
    have hend := (f.touchedBlock_le s).2
    exact .inr (by omega)

/-- Only the end of a file of nothing but newlines is on a line whose number fits no word. -/
theorem line_fits (f : File) {o : Nat} (hsize : f.content.length < UInt32.size) (ho : o ≤ f.content.length)
    (h : ¬ (f.content = List.replicate (UInt32.size - 1) newline ∧ o = f.content.length)) :
    f.newlines.countP (· < o) + 1 < UInt32.size := by
  have hbelow := f.countP_newlines_le o
  have hcount : f.newlines.countP (· < o) ≤ f.content.count newline := f.length_newlines ▸ List.countP_le_length
  by_contra hlarge
  have hlength : f.content.length = UInt32.size - 1 := by omega
  have hall : f.content.count newline = f.content.length :=
    Nat.le_antisymm List.count_le_length (by omega)
  exact h ⟨List.eq_replicate_iff.mpr ⟨hlength, fun b hb => (List.count_eq_length.mp hall b hb).symm⟩, by omega⟩

/-- The block of touched lines holds a span whose end is on a line with a number that fits a
word. -/
theorem touchedBlock_covers {s : Span} (hle : s.start.toNat ≤ s.stop.toNat) (hstop : s.stop.toNat ≤ f.content.length)
    (hline : f.newlines.countP (· < s.stop.toNat) + 1 < UInt32.size) :
    (f.touchedBlock s).1 ≤ s.start.toNat ∧ s.stop.toNat ≤ (f.touchedBlock s).2 := by
  constructor
  · have hcount : f.newlines.countP (· < s.start.toNat) ≤ f.newlines.countP (· < s.stop.toNat) :=
      List.countP_mono_left fun n _ hn => by
        rw [decide_eq_true_eq] at hn ⊢
        omega
    have hfirst : (f.touchedBlock s).1 = lineStart f.newlines (f.newlines.countP (· < s.start.toNat)) := by
      rw [← lineStartOffset_succ List.countP_le_length]
      unfold touchedBlock
      dsimp only
      rw [toNat_line_positionAt, Nat.mod_eq_of_lt (by omega)]
    rw [hfirst]
    exact lineStart_countP_le f.newlines_pairwise _
  · rcases stop_lt_of_line hline with ⟨hlt, -⟩ | hend
    · exact Nat.le_of_lt hlt
    · rwa [hend]

/-! ## What is previewed

When there is a preview, and what it lists.
-/

/-- The bytes of the lines that a span touches. The preview lists the lines of these, before
the edit. -/
def touched (f : File) (s : Span) : Bytes :=
  f.slice (f.touchedBlock s).1 (f.touchedBlock s).2

theorem length_touched (f : File) (s : Span) : (f.touched s).length = (f.touchedBlock s).2 - (f.touchedBlock s).1 := by
  have hstop := (f.touchedBlock_le s).2
  rw [touched, slice, List.length_take, List.length_drop]
  omega

/-- What an edit makes of the lines that it touches. -/
def retouched (f : File) (e : Edit) : Bytes :=
  e.applied (f.touchedBlock e.span).1 (f.touched e.span)

/-- The block of lines that an edit touches holds the edit. -/
structure BlockHolds (f : File) (e : Edit) : Prop where
  start_le : (f.touchedBlock e.span).1 ≤ e.span.start.toNat
  ordered : e.span.start.toNat ≤ e.span.stop.toNat
  le_stop : e.span.stop.toNat ≤ (f.touchedBlock e.span).2

/-- There is a preview of an edit that the block of touched lines holds. It lists the lines of
that block and what the edit makes of them. -/
theorem previewOf?_eq_some_iff {p : EditPreview} :
    f.previewOf? e = some p ↔ f.BlockHolds e ∧ p = ⟨blockLines (f.touched e.span), blockLines (f.retouched e)⟩ := by
  obtain ⟨hle, hstop⟩ := f.touchedBlock_le e.span
  have hlength := f.length_touched e.span
  have hafter : (f.touched e.span).take ((e.span.start.toNat : Int) - (f.touchedBlock e.span).1).toNat ++ bytesOf e.newText ++
      (f.touched e.span).drop ((e.span.stop.toNat : Int) - (f.touchedBlock e.span).1).toNat = f.retouched e := by
    simp only [retouched, Edit.applied, Int.toNat_sub]
  unfold previewOf?
  dsimp only
  rw [← touched, hafter]
  split
  · exact ⟨nofun, fun ⟨⟨_, _, _⟩, _⟩ => by omega⟩
  · split
    · exact ⟨nofun, fun ⟨⟨_, _, _⟩, _⟩ => by omega⟩
    · rw [Option.some.injEq]
      exact ⟨fun h => ⟨⟨by omega, by omega, by omega⟩, h.symm⟩, fun h => h.2.symm⟩

/-- A file is the block of lines that a span touches with what is around it. -/
theorem take_touched_drop (f : File) (s : Span) :
    f.content.take (f.touchedBlock s).1 ++ f.touched s ++ f.content.drop (f.touchedBlock s).2 = f.content := by
  rw [touched, take_append_slice f (f.touchedBlock_le s).1, List.take_append_drop]

/-- An edit of a file is an edit of the block of lines it touches. -/
theorem take_retouched_drop (h : f.BlockHolds e) :
    f.content.take (f.touchedBlock e.span).1 ++ f.retouched e ++ f.content.drop (f.touchedBlock e.span).2 = e.applied 0 f.content := by
  obtain ⟨hstart, hle, hstop⟩ := h
  obtain ⟨hblock, hend⟩ := f.touchedBlock_le e.span
  have hlength := f.length_touched e.span
  have hfront : (f.content.take (f.touchedBlock e.span).1).length = (f.touchedBlock e.span).1 := by
    rw [List.length_take]
    omega
  conv_rhs => rw [← f.take_touched_drop e.span]
  rw [Edit.applied_append (by omega) hle (by omega), hfront, retouched]

/-! ## Lines that an edit adds or removes

Counting lines in front of the block, in the block and behind it.
-/

/-- A block of touched lines and what an edit makes of it are both ended, or nothing follows.
-/
theorem ended_or_drop_eq_nil (hsize : f.content.length < UInt32.size) (h : f.BlockHolds e) :
    Ended (f.touched e.span) ∧ Ended (f.retouched e) ∨ f.content.drop (f.touchedBlock e.span).2 = [] := by
  obtain ⟨hblock, hinside⟩ := f.touchedBlock_le e.span
  rcases stop_lt_touchedBlock hsize h.le_stop with ⟨hlt, hended⟩ | hend
  · rw [← take_append_slice f hblock] at hended
    have htouched : Ended (f.touched e.span) := hended.of_append
    refine .inl ⟨htouched, ?_⟩
    -- The newline that ends the block is behind the edit.
    have hbehind : (f.touched e.span).drop (e.span.stop.toNat - (f.touchedBlock e.span).1) ≠ [] := by
      have hlength := f.length_touched e.span
      have hle := Nat.le_trans h.start_le h.ordered
      rw [ne_eq, List.drop_eq_nil_iff]
      omega
    rw [← List.take_append_drop (e.span.stop.toNat - (f.touchedBlock e.span).1) (f.touched e.span)] at htouched
    exact htouched.of_append.append_of_ne_nil hbehind _
  · exact .inr (List.drop_eq_nil_of_le (Nat.le_of_eq hend.symm))

/-- An edit adds to the lines of a file what it adds to those of the block it touches. -/
theorem lineCount_applied (hsize : f.content.length < UInt32.size) (h : f.BlockHolds e) :
    lineCount (e.applied 0 f.content) + lineCount (f.touched e.span) = lineCount f.content + lineCount (f.retouched e) := by
  have hfront := f.ended_take_touchedBlock e.span
  have hback := ended_or_drop_eq_nil hsize h
  have hbefore := lineCount_block hfront (hback.imp_left And.left)
  have hafter := lineCount_block hfront (hback.imp_left And.right)
  rw [take_touched_drop] at hbefore
  rw [take_retouched_drop h] at hafter
  omega

end Source.File

/-! ## Main statements

When an edit has a preview, what that shows, and how many lines it lists.
-/

/-- A place where a line starts, or the end of a text. A block between two such places
consists of whole lines. -/
def LineBoundary (s : Bytes) (i : Nat) : Prop :=
  Ended (s.take i) ∨ i = s.length

/-- The preview of an edit in a known file is that of the edit in the file. -/
theorem editPreview?_eq {fs : FileSet} {e : Edit} {f : File} (hf : fs.get? e.span.file = some f) :
    editPreview? fs e = f.previewOf? e := by
  unfold editPreview?
  rw [hf]
  rfl

/-- An edit in a file of fewer than 2³² bytes has a preview exactly when its span is a range
inside the file. The preview belongs to a block that holds the span and that starts and ends
where lines do: it lists the lines of the block as it is and as the edit leaves it, both
without newlines at the end, and the edited block with what is around the block is the edited
file.

There is one file whose last line has a number that fits no word, that of 2³² - 1 newlines and
nothing else. The first is not said of edits at its end. -/
theorem previews_show_edits (fs : FileSet) (e : Edit) (f : File) (hf : fs.get? e.span.file = some f)
    (hsize : f.content.length < UInt32.size) :
    (¬ (f.content = List.replicate (UInt32.size - 1) newline ∧ e.span.stop.toNat = f.content.length) →
      (editPreview? fs e = none ↔ ¬ (e.span.start ≤ e.span.stop ∧ e.span.stop.toNat ≤ f.content.length))) ∧
    ∀ p, editPreview? fs e = some p → ∃ start stop,
      start ≤ e.span.start.toNat ∧ e.span.start ≤ e.span.stop ∧ e.span.stop.toNat ≤ stop ∧ stop ≤ f.content.length ∧
      LineBoundary f.content start ∧ LineBoundary f.content stop ∧
      TrimmedLines (f.slice start stop) p.before ∧ TrimmedLines (e.applied start (f.slice start stop)) p.after ∧
      f.content.take start ++ e.applied start (f.slice start stop) ++ f.content.drop stop = e.applied 0 f.content := by
  rw [editPreview?_eq hf]
  constructor
  · intro hnumbered
    by_cases hrange : e.span.start ≤ e.span.stop ∧ e.span.stop.toNat ≤ f.content.length
    · have hle := UInt32.le_iff_toNat_le.mp hrange.1
      obtain ⟨hstart, hstop⟩ := File.touchedBlock_covers hle hrange.2 (f.line_fits hsize hrange.2 hnumbered)
      have hsome := File.previewOf?_eq_some_iff.mpr ⟨⟨hstart, hle, hstop⟩, rfl⟩
      simp [hsome, hrange]
    · refine iff_of_true (Option.eq_none_iff_forall_ne_some.mpr fun p hp => hrange ?_) hrange
      obtain ⟨⟨-, hle, hstop⟩, -⟩ := File.previewOf?_eq_some_iff.mp hp
      exact ⟨UInt32.le_iff_toNat_le.mpr hle, Nat.le_trans hstop (f.touchedBlock_le e.span).2⟩
  · intro p hp
    obtain ⟨h, rfl⟩ := File.previewOf?_eq_some_iff.mp hp
    refine ⟨_, _, h.start_le, UInt32.le_iff_toNat_le.mpr h.ordered, h.le_stop, (f.touchedBlock_le e.span).2,
      .inl (f.ended_take_touchedBlock e.span), ?_, trimmedLines_iff.mpr rfl, trimmedLines_iff.mpr rfl, File.take_retouched_drop h⟩
    exact (File.stop_lt_touchedBlock hsize h.le_stop).imp_left And.right

/-- A file of three lines. -/
def threeLines : File :=
  ⟨0, "a", [97, 10, 98, 99, 10, 100], .fromMemory⟩

/-- A set of that file. -/
def threeLinesSet : FileSet :=
  { workDir := "/", files := #[threeLines] }

/-- An edit that makes two lines of the second one. -/
def secondLineEdit : Edit :=
  ⟨⟨0, 3, 4⟩, "x\ny"⟩

/-- The preview of an edit on the second of three lines lists that line and the two that the
edit makes of it. -/
theorem second_line_previewed :
    threeLinesSet.get? secondLineEdit.span.file = some threeLines ∧
    threeLines.content.length < UInt32.size ∧
    editPreview? threeLinesSet secondLineEdit ≠ none ∧
    ∃ start stop, start ≤ 3 ∧ 4 ≤ stop ∧ LineBoundary threeLines.content start ∧ LineBoundary threeLines.content stop ∧
      TrimmedLines (threeLines.slice start stop) [[98, 99]] ∧
      TrimmedLines (secondLineEdit.applied start (threeLines.slice start stop)) [[98, 120], [121]] := by
  obtain ⟨hfails, hshows⟩ := previews_show_edits threeLinesSet secondLineEdit threeLines rfl (by decide)
  refine ⟨rfl, by decide, fun h => (hfails fun hall => absurd hall.2 (by decide)).mp h (by decide), ?_⟩
  obtain ⟨start, stop, hstart, -, hstop, -, hfirst, hlast, hbefore, hafter, -⟩ :=
    hshows ⟨[[98, 99]], [[98, 120], [121]]⟩ (by decide +kernel)
  exact ⟨start, stop, hstart, hstop, hfirst, hlast, hbefore, hafter⟩

/-- A file of as many newlines as a file may have bytes. The number of its last line is 2³².
-/
def blankLines : File :=
  ⟨0, "a", List.replicate 4294967295 newline, .fromMemory⟩

/-- A set of that file. -/
def blankLinesSet : FileSet :=
  { workDir := "/", files := #[blankLines] }

/-- The last line of 2³² has the number 0, so an edit that inserts a text there has no
preview, although its span is a range inside the file. -/
theorem last_blank_line_not_previewed :
    blankLines.content.length = 4294967295 ∧
    editPreview? blankLinesSet ⟨⟨0, 4294967295, 4294967295⟩, "x"⟩ = none := by
  have hlength : blankLines.content.length = 4294967295 := List.length_replicate
  have hcount : blankLines.newlines.length = 4294967295 := by
    rw [File.length_newlines]
    exact List.count_replicate_self
  refine ⟨hlength, ?_⟩
  rw [editPreview?_eq (f := blankLines) rfl, Option.eq_none_iff_forall_ne_some]
  intro p hp
  obtain ⟨⟨-, -, hstop⟩, -⟩ := File.previewOf?_eq_some_iff.mp hp
  have hall : blankLines.newlines.countP (· < (4294967295 : UInt32).toNat) = 4294967295 := by
    rw [← hcount]
    refine List.countP_eq_length.mpr fun n hn => decide_eq_true ?_
    exact Nat.lt_of_lt_of_eq (File.lt_of_mem_newlines hn) hlength
  have hline : (blankLines.positionAt 4294967295).line.toNat = 0 := by
    rw [File.toNat_line_positionAt, hall]
    rfl
  have hblock : blankLines.touchedBlock ⟨0, 4294967295, 4294967295⟩ = (0, 0) := by
    unfold File.touchedBlock
    dsimp only
    rw [hline]
    simp [File.lineStartOffset, File.lineStopOffset]
  rw [hblock] at hstop
  exact absurd hstop (by decide)
/-- A preview lists as many lines as there are in the block of touched lines, before and after
the edit, exactly where the block does not end in two newlines. Where it does so neither
before nor after the edit, as many lines are added to the list as the edit adds to the file.
-/
theorem previews_list_lines (fs : FileSet) (e : Edit) (f : File) (p : EditPreview) (hf : fs.get? e.span.file = some f)
    (hsize : f.content.length < UInt32.size) (hp : editPreview? fs e = some p) :
    (p.before.length = lineCount (f.touched e.span) ↔ ¬ [newline, newline] <:+ f.touched e.span) ∧
    (p.after.length = lineCount (f.retouched e) ↔ ¬ [newline, newline] <:+ f.retouched e) ∧
    (¬ [newline, newline] <:+ f.touched e.span → ¬ [newline, newline] <:+ f.retouched e →
      (p.after.length : Int) - p.before.length = lineCount (e.applied 0 f.content) - lineCount f.content) := by
  rw [editPreview?_eq hf] at hp
  obtain ⟨h, rfl⟩ := File.previewOf?_eq_some_iff.mp hp
  have hbefore := length_blockLines_eq_iff (f.touched e.span)
  have hafter := length_blockLines_eq_iff (f.retouched e)
  refine ⟨hbefore, hafter, fun hb ha => ?_⟩
  have hlines := File.lineCount_applied hsize h
  rw [hbefore.mpr hb, hafter.mpr ha]
  omega

/-- The preview of an edit on the second of three lines lists one line more after the edit,
and the edit adds one to the file. -/
theorem second_line_counted :
    threeLinesSet.get? secondLineEdit.span.file = some threeLines ∧
    threeLines.content.length < UInt32.size ∧
    editPreview? threeLinesSet secondLineEdit = some ⟨[[98, 99]], [[98, 120], [121]]⟩ ∧
    1 = lineCount (threeLines.touched secondLineEdit.span) ∧
    (2 : Int) - 1 = lineCount (secondLineEdit.applied 0 threeLines.content) - lineCount threeLines.content := by
  have hpreview : editPreview? threeLinesSet secondLineEdit = some ⟨[[98, 99]], [[98, 120], [121]]⟩ := by decide +kernel
  obtain ⟨hbefore, -, hlines⟩ := previews_list_lines threeLinesSet secondLineEdit threeLines _ rfl (by decide) hpreview
  exact ⟨rfl, by decide, hpreview, hbefore.mpr (by decide), hlines (by decide) (by decide +kernel)⟩

/-- Of the three lines that an edit makes of one, two are blank and missing from the preview.
-/
theorem blank_lines_not_listed :
    editPreview? threeLinesSet ⟨⟨0, 1, 1⟩, "\n\n"⟩ = some ⟨[[97]], [[97]]⟩ ∧
    lineCount (threeLines.touched ⟨0, 1, 1⟩) = 1 ∧
    lineCount (threeLines.retouched ⟨⟨0, 1, 1⟩, "\n\n"⟩) = 3 :=
  ⟨by decide +kernel, by decide, by decide +kernel⟩

end CallResolution
