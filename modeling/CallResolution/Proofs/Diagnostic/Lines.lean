import CallResolution.Diagnostic.Preview
import Mathlib.Data.List.Basic
import Mathlib.Data.List.DropRight
import Mathlib.Tactic.Common

/-!
# Lines of a block

A preview cuts a block of text into lines after it has dropped the newlines at the end of the
block. What it lists is thus known from the block: lines without newlines that make up the
block, less those newlines, when a newline is put between any two of them
(`trimmedLines_iff`).

Counted the other way round, each newline ends a line, and what stands behind the last one is
another line. Of the newlines that are dropped only the first ended a line that is listed, so
every further one is a blank line that is missing from the list (`length_blockLines`).
-/

namespace CallResolution

open Source Text

/-! ## Cutting at newlines

A text has one line more than newlines, the last one of which may be blank.
-/

/-- There always is a first line. -/
theorem splitLines_ne_nil (s : Bytes) : splitLines s ≠ [] := by
  fun_cases splitLines s <;> simp

/-- No line holds a newline. -/
theorem newline_notMem_of_mem_splitLines {s l : Bytes} (h : l ∈ splitLines s) : newline ∉ l := by
  induction s generalizing l with
  | nil => simp_all [splitLines]
  | cons b s ih =>
    rw [splitLines] at h
    split at h
    · rcases List.mem_cons.mp h with rfl | h
      · exact List.not_mem_nil
      · exact ih h
    · rename_i hb
      split at h
      · exact absurd ‹_› (splitLines_ne_nil s)
      · rename_i first rest hlines
        rcases List.mem_cons.mp h with rfl | h
        · have := ih (hlines ▸ List.mem_cons_self)
          simp [this, Ne.symm hb]
        · exact ih (hlines ▸ List.mem_cons_of_mem _ h)

/-- There is one line more than there are newlines. -/
theorem length_splitLines (s : Bytes) : (splitLines s).length = s.count newline + 1 := by
  induction s with
  | nil => rfl
  | cons b s ih =>
    rw [splitLines]
    split
    · rename_i hb
      simp [hb, ih]
    · rename_i hb
      rw [List.count_cons_of_ne hb, ← ih]
      cases h : splitLines s with
      | nil => exact absurd h (splitLines_ne_nil s)
      | cons l ls => rfl

/-- Cutting at newlines is splitting a list at an element. -/
theorem splitLines_eq_splitOn (s : Bytes) : splitLines s = s.splitOn newline := by
  induction s with
  | nil => rfl
  | cons b s ih =>
    rw [List.splitOn_eq_splitOnP, List.splitOnP_cons_eq_if_modifyHead, ← List.splitOn_eq_splitOnP, ← ih, splitLines]
    simp only [beq_iff_eq]
    split
    · rfl
    · cases h : splitLines s with
      | nil => exact absurd h (splitLines_ne_nil s)
      | cons l ls => rfl

/-! ## Newlines at the end

How many newlines a text ends in, and what is left of it without them.
-/

/-- The number of newlines that a text ends in. -/
def endNewlines (s : Bytes) : Nat :=
  (s.rtakeWhile (· = newline)).length

/-- A text is what is left of it without the newlines at its end, and those newlines. -/
theorem rdropWhile_append_newlines (s : Bytes) :
    s.rdropWhile (· = newline) ++ List.replicate (endNewlines s) newline = s := by
  have hall : s.rtakeWhile (· = newline) = List.replicate (endNewlines s) newline :=
    List.eq_replicate_of_mem fun b hb => by simpa using List.mem_rtakeWhile_imp hb
  rw [← hall, List.rdropWhile_append_rtakeWhile]

/-- What is left of a text without the newlines at its end does not end in one. -/
theorem not_newline_suffix_rdropWhile (s : Bytes) : ¬ [newline] <:+ s.rdropWhile (· = newline) := by
  rintro ⟨t, ht⟩
  have hagain := List.rdropWhile_idempotent (· = newline) s
  rw [← ht, List.rdropWhile_concat_pos _ _ _ (by simp)] at hagain
  have hle := (List.rdropWhile_prefix (· = newline) (l := t)).length_le
  rw [hagain, List.length_append, List.length_singleton] at hle
  omega

/-- Newlines behind a text that does not end in one are dropped, and nothing else is. -/
theorem rdropWhile_append_replicate {t : Bytes} (ht : ¬ [newline] <:+ t) (n : Nat) :
    (t ++ List.replicate n newline).rdropWhile (· = newline) = t := by
  induction n with
  | zero =>
    rw [List.replicate_zero, List.append_nil, List.rdropWhile_eq_self_iff]
    intro hne hlast
    exact ht ⟨t.dropLast, by rw [← of_decide_eq_true hlast, List.dropLast_append_getLast]⟩
  | succ n ih => rw [List.replicate_succ', ← List.append_assoc, List.rdropWhile_concat_pos _ _ _ (by simp), ih]

/-! ## The lines that are listed

What is listed is determined by the block, and determines it up to the newlines at its end.
-/

/-- Lines that make up a block, less the newlines at its end, when a newline is put between
any two of them. A blank block has no lines, any other one has some. It says what is listed
without saying how it is found. -/
structure TrimmedLines (block : Bytes) (ls : List Bytes) : Prop where
  /-- No line holds a newline. -/
  plain : ∀ l ∈ ls, newline ∉ l
  /-- Behind the lines there are only newlines. -/
  joined : ∃ n, block = [newline].intercalate ls ++ List.replicate n newline
  /-- All newlines at the end are left out. -/
  trimmed : ¬ [newline] <:+ [newline].intercalate ls
  /-- Only what is blank has no lines. -/
  blank : ls = [] ↔ block = []

/-- The lines that are listed for a block that is not blank. -/
theorem blockLines_of_ne_nil {block : Bytes} (h : block ≠ []) :
    blockLines block = splitLines (block.rdropWhile (· = newline)) := by
  rw [blockLines, if_neg (by simpa using h)]
  rfl

/-- A block has just one list of lines, and that is what is listed. -/
theorem trimmedLines_iff {block : Bytes} {ls : List Bytes} : TrimmedLines block ls ↔ ls = blockLines block := by
  by_cases hblank : block = []
  · subst hblank
    refine ⟨fun h => h.blank.mpr rfl, ?_⟩
    rintro rfl
    exact ⟨by simp [blockLines], ⟨0, rfl⟩, by simp [blockLines], by simp [blockLines]⟩
  rw [blockLines_of_ne_nil hblank]
  constructor
  · intro h
    obtain ⟨n, hn⟩ := h.joined
    rw [hn, rdropWhile_append_replicate h.trimmed, splitLines_eq_splitOn,
      List.splitOn_intercalate newline h.plain (mt h.blank.mp hblank)]
  · rintro rfl
    have hjoined : [newline].intercalate (splitLines (block.rdropWhile (· = newline))) = block.rdropWhile (· = newline) := by
      rw [splitLines_eq_splitOn, List.intercalate_splitOn]
    refine ⟨fun l => newline_notMem_of_mem_splitLines, ⟨endNewlines block, ?_⟩, ?_, ?_⟩
    · rw [hjoined, rdropWhile_append_newlines]
    · rw [hjoined]
      exact not_newline_suffix_rdropWhile block
    · simp [splitLines_ne_nil, hblank]

/-! ## Counting lines

What is listed is compared with the number of lines that the newlines of a text end.
-/

/-- Whether nothing stands behind the last newline of a text. A text that ends so may be
followed by another one without joining two lines. -/
def Ended (s : Bytes) : Prop :=
  s = [] ∨ [newline] <:+ s

instance (s : Bytes) : Decidable (Ended s) :=
  inferInstanceAs (Decidable (_ ∨ _))

/-- The number of lines of a text: each newline ends one, and what stands behind the last
newline is another. A blank text has none. -/
def lineCount (s : Bytes) : Nat :=
  s.count newline + if Ended s then 0 else 1

/-- What stands behind a part of a text ends as the text does. -/
theorem Ended.of_append {s t : Bytes} (h : Ended (s ++ t)) : Ended t := by
  by_cases ht : t = []
  · exact .inl ht
  · refine .inr (List.suffix_of_suffix_length_le (h.resolve_left (by simp [ht])) (List.suffix_append s t) ?_)
    exact List.length_pos_iff.mpr ht

/-- A text ends as what is behind a part of it does, unless that is blank. -/
theorem Ended.append_of_ne_nil {t : Bytes} (ht : Ended t) (hne : t ≠ []) (s : Bytes) : Ended (s ++ t) :=
  .inr ((ht.resolve_left hne).trans (List.suffix_append s t))

/-- Where a part of a text is ended, the lines of the text are those of the part and those of
the rest. -/
theorem lineCount_append {s : Bytes} (hs : Ended s) (t : Bytes) : lineCount (s ++ t) = lineCount s + lineCount t := by
  have hiff : Ended (s ++ t) ↔ Ended t := by
    refine ⟨Ended.of_append, fun ht => ?_⟩
    by_cases hne : t = []
    · rwa [hne, List.append_nil]
    · exact ht.append_of_ne_nil hne s
  simp only [lineCount, List.count_append, hiff, if_pos hs]
  omega

/-- The lines of a text with a block in it. -/
theorem lineCount_block {a block b : Bytes} (ha : Ended a) (hblock : Ended block ∨ b = []) :
    lineCount (a ++ block ++ b) = lineCount a + lineCount block + lineCount b := by
  rcases hblock with hblock | rfl
  · rw [List.append_assoc, lineCount_append ha, lineCount_append hblock, Nat.add_assoc]
  · rw [List.append_nil, lineCount_append ha]
    rfl

/-- A text ends in as many newlines as there are at its end, and not in more. -/
theorem replicate_suffix_iff {s : Bytes} {k : Nat} : List.replicate k newline <:+ s ↔ k ≤ endNewlines s := by
  have hs := rdropWhile_append_newlines s
  constructor
  · rintro ⟨t, ht⟩
    by_contra hlt
    -- Otherwise one more newline would stand in front of those at the end.
    obtain ⟨m, hm⟩ := Nat.exists_eq_add_of_lt (Nat.lt_of_not_le hlt)
    refine not_newline_suffix_rdropWhile s ⟨t ++ List.replicate m newline, ?_⟩
    rw [← hs, show k = m + 1 + endNewlines s by omega, List.replicate_add, ← List.append_assoc] at ht
    rw [List.append_assoc, ← List.replicate_succ', List.append_cancel_right ht]
  · intro hle
    rw [← hs, ← Nat.sub_add_cancel hle, List.replicate_add, ← List.append_assoc]
    exact List.suffix_append _ _

theorem ended_iff {s : Bytes} (h : s ≠ []) : Ended s ↔ 1 ≤ endNewlines s := by
  rw [← replicate_suffix_iff, List.replicate_one]
  exact or_iff_right h

/-- Each newline at the end of a block but the first is a line that is not listed. So the
number of lines of a preview is known from the block. -/
theorem length_blockLines (block : Bytes) : (blockLines block).length + (endNewlines block - 1) = lineCount block := by
  by_cases hblank : block = []
  · subst hblank
    rfl
  · have hcount : block.count newline = (block.rdropWhile (· = newline)).count newline + endNewlines block := by
      conv_lhs => rw [← rdropWhile_append_newlines block]
      rw [List.count_append, List.count_replicate_self]
    rw [blockLines_of_ne_nil hblank, length_splitLines, lineCount, hcount]
    simp only [ended_iff hblank]
    split <;> omega

/-- A block loses no line exactly when it does not end in two newlines. -/
theorem length_blockLines_eq_iff (block : Bytes) :
    (blockLines block).length = lineCount block ↔ ¬ [newline, newline] <:+ block := by
  have hlost := length_blockLines block
  have htwo := replicate_suffix_iff (s := block) (k := 2)
  rw [show [newline, newline] = List.replicate 2 newline from rfl, htwo]
  omega

end CallResolution
