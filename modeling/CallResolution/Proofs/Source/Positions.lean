import CallResolution.Source.File
import Mathlib.Data.List.Basic
import Mathlib.Tactic.Common

/-!
# Offsets and positions

The offsets of the newlines rise, and so divide the offsets of a file into lines: the line
after `k` newlines reaches from `lineStart newlines k` up to the next newline, or to the end
of the file. An offset lies on the line for which it is not in front of that start nor behind
that end, so counting the newlines in front of it finds the line (`countP_lt_eq`), and what is
added to the start of the line is what was taken from it.

Columns are words. The one column that does not fit is that of the end of a file of 2³² - 1
bytes that is a single line: it wraps around to 0, and the end of the file and its position
are not inverse (`longLine_column_wraps`).

A span is made at a position by adding the column to the start of the line, and the length to
that. Both sums are words, too, and are cut off at the end of the file only after they have
wrapped around. So no end of a span lies behind the file, but a length that takes the sum to
2³² or further puts the end of the span in front of its start, and a column that does so puts
a position behind the end of the file back into it.

Main statements: `positions_inverse_to_offsets` and `spanAt_within_file`.
-/

namespace CallResolution.Source

open Text

/-! ## The offsets of newlines

They are collected from the front, so they rise, and there is a newline at each of them.
-/

/-- There are as many offsets as newlines. -/
theorem length_newlinesFrom (i : Nat) (s : Bytes) : (newlinesFrom i s).length = s.count newline := by
  induction s generalizing i with
  | nil => rfl
  | cons b s ih =>
    rw [newlinesFrom, List.count_cons]
    by_cases hb : b = newline
    · simp [hb, ih]
    · simp [hb, ih]

/-- At the offset of a newline there is one. -/
theorem getElem?_of_mem_newlinesFrom {i p : Nat} {s : Bytes} (h : p ∈ newlinesFrom i s) : i ≤ p ∧ s[p - i]? = some newline := by
  induction s generalizing i with
  | nil => simp [newlinesFrom] at h
  | cons b s ih =>
    have later (h : p ∈ newlinesFrom (i + 1) s) : i ≤ p ∧ (b :: s)[p - i]? = some newline := by
      obtain ⟨hle, hp⟩ := ih h
      have hsub : p - i = p - (i + 1) + 1 := by omega
      exact ⟨by omega, by rw [hsub, List.getElem?_cons_succ, hp]⟩
    rw [newlinesFrom] at h
    split at h
    · rename_i hb
      rcases List.mem_cons.mp h with rfl | h
      · simp [hb]
      · exact later h
    · exact later h

/-- The offsets rise. -/
theorem newlinesFrom_pairwise (i : Nat) (s : Bytes) : (newlinesFrom i s).Pairwise (· < ·) := by
  induction s generalizing i with
  | nil => exact .nil
  | cons b s ih =>
    rw [newlinesFrom]
    split
    · exact .cons (fun p hp => (getElem?_of_mem_newlinesFrom hp).1) (ih _)
    · exact ih _

/-! ## Lines between rising offsets

About any list of rising offsets. The line of an offset is found by counting the newlines in
front of it.
-/

section Lines

variable {ns : List Nat} {size k o : Nat}

/-- The offset at which the line after `k` newlines ends: the next newline, or the end of the
file. The newline itself belongs to the line that it ends. -/
def lineEnd (ns : List Nat) (size k : Nat) : Nat :=
  ns.getD k size

theorem lineEnd_of_lt (hk : k < ns.length) : lineEnd ns size k = ns[k] := by
  simp [lineEnd, hk]

theorem lineEnd_of_le (hk : ns.length ≤ k) : lineEnd ns size k = size := by
  simp [lineEnd, hk]

/-- A line starts just behind the newline that ends the line before it. -/
theorem lineStart_succ (hk : k < ns.length) : lineStart ns (k + 1) = ns[k] + 1 := by
  simp [lineStart, hk]

/-- A line does not end in front of its start. -/
theorem lineStart_le_lineEnd (rising : ns.Pairwise (· < ·)) (inside : ∀ p ∈ ns, p < size) (hk : k ≤ ns.length) :
    lineStart ns k ≤ lineEnd ns size k := by
  cases k with
  | zero => exact Nat.zero_le _
  | succ m =>
    rw [lineStart_succ hk]
    by_cases hlast : m + 1 < ns.length
    · rw [lineEnd_of_lt hlast]
      exact List.pairwise_iff_getElem.mp rising m (m + 1) hk hlast (Nat.lt_succ_self m)
    · rw [lineEnd_of_le (Nat.le_of_not_lt hlast)]
      exact inside _ (List.getElem_mem hk)

/-- No line ends behind the end of the file. -/
theorem lineEnd_le (inside : ∀ p ∈ ns, p < size) (k : Nat) : lineEnd ns size k ≤ size := by
  by_cases hk : k < ns.length
  · rw [lineEnd_of_lt hk]
    exact Nat.le_of_lt (inside _ (List.getElem_mem hk))
  · exact Nat.le_of_eq (lineEnd_of_le (Nat.le_of_not_lt hk))

/-- Each line takes at least its newline. -/
theorem le_lineStart (rising : ns.Pairwise (· < ·)) (inside : ∀ p ∈ ns, p < size) (hk : k ≤ ns.length) : k ≤ lineStart ns k := by
  induction k with
  | zero => exact Nat.zero_le _
  | succ m ih =>
    have hfits := lineStart_le_lineEnd rising inside (Nat.le_of_succ_le hk)
    rw [lineEnd_of_lt hk] at hfits
    rw [lineStart_succ hk]
    exact Nat.succ_le_succ (Nat.le_trans (ih (Nat.le_of_succ_le hk)) hfits)

/-- The newlines in front of an offset are those that counting them counts. -/
theorem getElem_lt_iff (rising : ns.Pairwise (· < ·)) (hk : k < ns.length) : ns[k] < o ↔ k < ns.countP (· < o) := by
  induction ns generalizing k with
  | nil => exact absurd hk (Nat.not_lt_zero k)
  | cons a ns ih =>
    obtain ⟨hbehind, hrising⟩ := List.pairwise_cons.mp rising
    by_cases hlt : a < o
    · rw [List.countP_cons_of_pos (by simpa using hlt)]
      cases k with
      | zero => simp [hlt]
      | succ m => simpa using ih hrising (Nat.lt_of_succ_lt_succ hk)
    · -- No later newline is in front of the offset, either.
      have hnone : (a :: ns).countP (· < o) = 0 := by
        refine List.countP_eq_zero.mpr fun p hp => ?_
        rw [decide_eq_true_eq]
        rcases List.mem_cons.mp hp with rfl | hp
        · exact hlt
        · exact fun hpo => hlt (Nat.lt_trans (hbehind p hp) hpo)
      rw [hnone]
      have hmem := List.getElem_mem hk
      have := List.countP_eq_zero.mp hnone _ hmem
      simpa using this

/-- An offset does not lie in front of the line that counting the newlines finds. -/
theorem lineStart_countP_le (rising : ns.Pairwise (· < ·)) (o : Nat) : lineStart ns (ns.countP (· < o)) ≤ o := by
  cases hk : ns.countP (· < o) with
  | zero => exact Nat.zero_le _
  | succ m =>
    have hm : m < ns.length := Nat.lt_of_lt_of_le (by omega) (List.countP_le_length (p := (· < o)))
    rw [lineStart_succ hm]
    exact (getElem_lt_iff rising hm).mpr (by omega)

/-- Counting the newlines in front of an offset finds the line that it lies on. An offset
between the start and the end of a line lies on no other one. -/
theorem countP_lt_eq (rising : ns.Pairwise (· < ·)) (hk : k ≤ ns.length) (hstart : lineStart ns k ≤ o)
    (hend : o ≤ lineEnd ns size k) : ns.countP (· < o) = k := by
  refine Nat.le_antisymm (Nat.le_of_not_lt fun hlt => ?_) (Nat.le_of_not_lt fun hlt => ?_)
  · have hlast : k < ns.length := Nat.lt_of_lt_of_le hlt List.countP_le_length
    rw [lineEnd_of_lt hlast] at hend
    exact Nat.not_lt.mpr hend ((getElem_lt_iff rising hlast).mpr hlt)
  · cases k with
    | zero => exact Nat.not_lt_zero _ hlt
    | succ m =>
      rw [lineStart_succ hk] at hstart
      have := (getElem_lt_iff rising hk).mp hstart
      omega

end Lines

/-! ## Offsets of a file

The offsets of a file of fewer than 2³² bytes fit words, and so does the number of its
newlines.
-/

namespace File

variable {f : File}

theorem newlines_pairwise (f : File) : f.newlines.Pairwise (· < ·) :=
  newlinesFrom_pairwise 0 f.content

/-- The newlines lie in the file. -/
theorem lt_of_mem_newlines {p : Nat} (h : p ∈ f.newlines) : p < f.content.length :=
  (List.getElem?_eq_some_iff.mp (getElem?_of_mem_newlinesFrom h).2).1

theorem length_newlines (f : File) : f.newlines.length = f.content.count newline :=
  length_newlinesFrom 0 f.content

theorem length_newlines_le (f : File) : f.newlines.length ≤ f.content.length :=
  f.length_newlines ▸ List.count_le_length

/-- The lines of a file start in the file. -/
theorem lineStart_le_length {k : Nat} (hk : k ≤ f.newlines.length) : lineStart f.newlines k ≤ f.content.length :=
  Nat.le_trans (lineStart_le_lineEnd f.newlines_pairwise (fun _ => lt_of_mem_newlines) hk)
    (lineEnd_le (fun _ => lt_of_mem_newlines) k)

theorem toNat_size (hsize : f.content.length < UInt32.size) : f.size.toNat = f.content.length := by
  rw [size, Nat.toUInt32_eq, UInt32.toNat_ofNat', Nat.mod_eq_of_lt hsize]

theorem getElem_newlines {k : Nat} (hk : k < f.newlines.length) :
    ∃ h : f.newlines[k] < f.content.length, f.content[f.newlines[k]] = newline :=
  List.getElem?_eq_some_iff.mp (getElem?_of_mem_newlinesFrom (List.getElem_mem hk)).2

/-- The line after `k` newlines. -/
theorem line_eq (hsize : f.content.length < UInt32.size) {k : Nat} (hk : k ≤ f.newlines.length) :
    f.line (k + 1).toUInt32 = f.slice (lineStart f.newlines k) (lineEnd f.newlines f.content.length k) := by
  have hcount := f.length_newlines_le
  unfold line
  rw [Nat.toUInt32_eq, UInt32.toNat_ofNat']
  by_cases hwraps : k + 1 < UInt32.size
  · rw [Nat.mod_eq_of_lt hwraps, if_neg (by omega)]
    rfl
  · -- Then there are nothing but newlines, and the last line is blank.
    have hk' : k + 1 = UInt32.size := by omega
    rw [hk', Nat.mod_self, if_pos (.inl rfl), slice, List.drop_eq_nil_of_le, List.take_nil]
    have := le_lineStart f.newlines_pairwise (fun _ => lt_of_mem_newlines) hk
    omega

/-! ## From offsets to positions and back

Inside a line both directions are an addition and a subtraction. What has to be seen is that
the words do not wrap, and where they do.
-/

/-- The column before a column, and none before the first one. -/
theorem toNat_columnBefore (c : UInt32) : (if 1 < c then c - 1 else 0).toNat = c.toNat - 1 := by
  split
  · rename_i hc
    exact UInt32.toNat_sub_of_le _ _ (UInt32.le_of_lt hc)
  · rename_i hc
    have hle : c.toNat ≤ 1 := Nat.le_of_not_lt fun h => hc (UInt32.lt_iff_toNat_lt.mpr h)
    rw [UInt32.toNat_zero]
    omega

/-- A start of a line is a word. -/
theorem toNat_lineStart {k n : Nat} (h : lineStart f.newlines k ≤ n) (hn : n < UInt32.size) :
    (lineStart f.newlines k).toUInt32.toNat = lineStart f.newlines k := by
  rw [Nat.toUInt32_eq, UInt32.toNat_ofNat', Nat.mod_eq_of_lt (Nat.lt_of_le_of_lt h hn)]

/-- The offset of a position in the file. -/
theorem toNat_offsetAt (hsize : f.content.length < UInt32.size) {p : Position} {k : Nat} (hk : k ≤ f.newlines.length)
    (hl : p.line.toNat = k + 1) (hfits : lineStart f.newlines k + (p.col.toNat - 1) ≤ f.content.length) :
    (f.offsetAt p).toNat = lineStart f.newlines k + (p.col.toNat - 1) := by
  have hstart := toNat_lineStart (f := f) (k := k) (Nat.le_of_add_right_le hfits) hsize
  have hoff : ((lineStart f.newlines k).toUInt32 + (if 1 < p.col then p.col - 1 else 0)).toNat =
      lineStart f.newlines k + (p.col.toNat - 1) := by
    rw [UInt32.toNat_add, hstart, toNat_columnBefore]
    exact Nat.mod_eq_of_lt (Nat.lt_of_le_of_lt hfits hsize)
  have hinside : ¬ f.size < (lineStart f.newlines k).toUInt32 + (if 1 < p.col then p.col - 1 else 0) := by
    rw [UInt32.lt_iff_toNat_lt, hoff, toNat_size hsize]
    exact Nat.not_lt.mpr hfits
  have hline : 1 ≤ k + 1 ∧ k + 1 ≤ f.newlines.length + 1 := ⟨Nat.succ_pos k, Nat.succ_le_succ hk⟩
  unfold offsetAt
  dsimp only
  rw [hl, Nat.add_sub_cancel, if_pos hline, if_neg hinside, hoff]

/-- The column of an offset, as a word. -/
theorem toNat_column {o : UInt32} {k : Nat} (hstart : lineStart f.newlines k ≤ o.toNat) :
    (o - (lineStart f.newlines k).toUInt32 + 1).toNat = (o.toNat - lineStart f.newlines k + 1) % UInt32.size := by
  have hword := toNat_lineStart hstart o.toNat_lt
  have hle : (lineStart f.newlines k).toUInt32 ≤ o := by rwa [UInt32.le_iff_toNat_le, hword]
  rw [UInt32.toNat_add, UInt32.toNat_sub_of_le _ _ hle, hword, UInt32.toNat_one]

/-- The position of an offset that lies on the line after `k` newlines. -/
theorem positionAt_of_line {l c o : UInt32} {k : Nat} (hk : k ≤ f.newlines.length) (hl : l.toNat = k + 1)
    (hc : c.toNat = o.toNat - lineStart f.newlines k + 1) (hstart : lineStart f.newlines k ≤ o.toNat)
    (hend : o.toNat ≤ lineEnd f.newlines f.content.length k) : f.positionAt o = ⟨l, c⟩ := by
  have hcount := countP_lt_eq f.newlines_pairwise hk hstart hend
  unfold positionAt
  dsimp only
  rw [hcount]
  congr 1
  · refine UInt32.toNat_inj.mp ?_
    rw [Nat.toUInt32_eq, UInt32.toNat_ofNat', ← hl, Nat.mod_eq_of_lt l.toNat_lt]
  · refine UInt32.toNat_inj.mp ?_
    rw [toNat_column hstart, ← hc, Nat.mod_eq_of_lt c.toNat_lt]

/-- A file without newlines is one line, whose columns are words: behind as many bytes as
there are words, they start again at 0. -/
theorem positionAt_of_one_line (h : newline ∉ f.content) (o : UInt32) : f.positionAt o = ⟨1, o + 1⟩ := by
  have hnone : f.newlines = [] := by
    rw [List.eq_nil_iff_length_eq_zero, f.length_newlines]
    exact List.count_eq_zero.mpr h
  unfold positionAt
  simp [hnone, lineStart]

/-- The position of an offset stands for that offset, unless its column does not fit a word.
-/
theorem offsetAt_positionAt (hsize : f.content.length < UInt32.size) {o : UInt32} (ho : o.toNat ≤ f.content.length)
    (hcolumn : newline ∈ f.content ∨ o.toNat + 1 < UInt32.size) : f.offsetAt (f.positionAt o) = o := by
  have hstart := lineStart_countP_le f.newlines_pairwise o.toNat
  have hk : f.newlines.countP (· < o.toNat) ≤ f.newlines.length := List.countP_le_length
  have hposition : f.positionAt o = ⟨(f.newlines.countP (· < o.toNat) + 1).toUInt32,
    o - (lineStart f.newlines (f.newlines.countP (· < o.toNat))).toUInt32 + 1⟩ := rfl
  generalize hcount : f.newlines.countP (· < o.toNat) = k at hstart hk hposition
  have hlines := le_lineStart f.newlines_pairwise (fun _ => lt_of_mem_newlines) hk
  have hl : (f.positionAt o).line.toNat = (k + 1) % UInt32.size := by
    rw [hposition, Nat.toUInt32_eq, UInt32.toNat_ofNat']
  have hlast := o.toNat_lt
  by_cases hwraps : k + 1 < UInt32.size
  · rw [Nat.mod_eq_of_lt hwraps] at hl
    have hc : (f.positionAt o).col.toNat = o.toNat - lineStart f.newlines k + 1 := by
      rw [hposition, toNat_column hstart, Nat.mod_eq_of_lt]
      rcases hcolumn with hnewline | hfits
      · -- At the last possible offset, which has all newlines in front of it, the line is not the first one.
        obtain ⟨p, hp⟩ := List.exists_mem_of_length_pos (f.length_newlines ▸ List.count_pos_iff.mpr hnewline)
        by_cases hend : p < o.toNat
        · have hpos : 0 < k := hcount ▸ List.countP_pos_iff.mpr ⟨p, hp, decide_eq_true hend⟩
          simp only [UInt32.size] at hlast ⊢
          omega
        · have := lt_of_mem_newlines hp
          omega
      · omega
    have hoff : lineStart f.newlines k + ((f.positionAt o).col.toNat - 1) = o.toNat := by omega
    exact UInt32.toNat_inj.mp ((toNat_offsetAt hsize hk hl (hoff ▸ ho)).trans hoff)
  · -- There are nothing but newlines, and the offset is the end of the file. No line has the number 0, so that is what it means.
    have hwrapped : k + 1 = UInt32.size := by
      simp only [UInt32.size] at hwraps hlast ⊢
      omega
    have hend : f.size = o := by
      refine UInt32.toNat_inj.mp ?_
      rw [toNat_size hsize]
      omega
    rw [hwrapped, Nat.mod_self] at hl
    have hnone : ¬ (1 ≤ 0 ∧ 0 ≤ f.newlines.length + 1) := by omega
    unfold offsetAt
    dsimp only
    rw [hl, if_neg hnone, hend, ite_self]

/-- The offset of a position on a line of the file has that position. -/
theorem positionAt_offsetAt (hsize : f.content.length < UInt32.size) {p : Position} {k : Nat} (hk : k ≤ f.newlines.length)
    (hl : p.line.toNat = k + 1) (hpos : 1 ≤ p.col.toNat)
    (hfits : lineStart f.newlines k + p.col.toNat ≤ lineEnd f.newlines f.content.length k + 1) : f.positionAt (f.offsetAt p) = p := by
  have hend : lineEnd f.newlines f.content.length k ≤ f.content.length := lineEnd_le (fun _ => lt_of_mem_newlines) k
  have hoff := toNat_offsetAt hsize hk hl (by omega)
  exact positionAt_of_line hk hl (by omega) (by omega) (by omega)

/-- The length of the line after `k` newlines. -/
theorem length_line (hsize : f.content.length < UInt32.size) {k : Nat} (hk : k ≤ f.newlines.length) :
    lineStart f.newlines k + (f.line (k + 1).toUInt32).length = lineEnd f.newlines f.content.length k := by
  have hstart := lineStart_le_lineEnd f.newlines_pairwise (fun _ => lt_of_mem_newlines) hk
  have hend : lineEnd f.newlines f.content.length k ≤ f.content.length := lineEnd_le (fun _ => lt_of_mem_newlines) k
  rw [line_eq hsize hk, slice, List.length_take, List.length_drop]
  omega

/-! ## The lines of a file

The lines are the parts between newlines, so the content is what they are joined to.
-/

/-- Lists between which one separator stands are the first ones, each with a separator behind
it, and the last one. -/
theorem intercalate_concat {α : Type} (sep : List α) (ls : List (List α)) (l : List α) :
    sep.intercalate (ls ++ [l]) = ls.flatMap (· ++ sep) ++ l := by
  induction ls with
  | nil => simp
  | cons a ls ih =>
    rw [List.cons_append, List.intercalate_cons_of_ne_nil (by simp), ih, List.flatMap_cons]
    simp only [List.append_assoc]

/-- A part of a file follows what is in front of it. -/
theorem take_append_slice (f : File) {start stop : Nat} (h : start ≤ stop) :
    f.content.take start ++ f.slice start stop = f.content.take stop := by
  rw [slice, ← List.take_add, Nat.add_sub_cancel' h]

/-- The first lines of a file, each with its newline, are what is in front of the next line.
-/
theorem flatMap_lines (hsize : f.content.length < UInt32.size) {k : Nat} (hk : k ≤ f.newlines.length) :
    ((List.range k).map fun i => f.line (i + 1).toUInt32).flatMap (· ++ [newline]) = f.content.take (lineStart f.newlines k) := by
  induction k with
  | zero => rfl
  | succ m ih =>
    have hm := Nat.le_of_succ_le hk
    obtain ⟨hlt, hnewline⟩ := getElem_newlines hk
    have hline := lineStart_le_lineEnd f.newlines_pairwise (fun _ => lt_of_mem_newlines) hm
    rw [lineEnd_of_lt hk] at hline
    have hnext : f.content.take f.newlines[m] ++ [newline] = f.content.take (f.newlines[m] + 1) := by
      rw [← hnewline]
      exact List.take_append_getElem hlt
    rw [List.range_succ, List.map_append, List.flatMap_append, ih hm, List.map_singleton, List.flatMap_singleton, line_eq hsize hm,
      lineEnd_of_lt hk, ← List.append_assoc, take_append_slice f hline, lineStart_succ hk, hnext]

/-- The lines of a file with newlines between them are its content. -/
theorem intercalate_lines (hsize : f.content.length < UInt32.size) :
    [newline].intercalate ((List.range (f.content.count newline + 1)).map fun i => f.line (i + 1).toUInt32) = f.content := by
  have hlast := lineStart_le_lineEnd f.newlines_pairwise (fun _ => lt_of_mem_newlines) (Nat.le_refl f.newlines.length)
  rw [← length_newlines, List.range_succ, List.map_append, List.map_singleton, intercalate_concat,
    flatMap_lines hsize (Nat.le_refl _), line_eq hsize (Nat.le_refl _), take_append_slice f hlast, lineEnd_of_le (Nat.le_refl _),
    List.take_length]

/-! ## Spans at positions

Both ends of a span are sums that are cut off behind.
-/

/-- The offset that a position stands for, before it is cut off at the end of the file. A line
that the file does not have stands for the end of the file. The sum is one of natural numbers,
so it does not wrap. -/
def exactOffset (f : File) (p : Position) : Nat :=
  if 1 ≤ p.line.toNat ∧ p.line.toNat ≤ f.newlines.length + 1 then
    lineStart f.newlines (p.line.toNat - 1) + (p.col.toNat - 1)
  else f.content.length

/-- The lesser of two words. -/
theorem toNat_cutOff (a b : UInt32) : (if a < b then a else b).toNat = min b.toNat a.toNat := by
  split
  · rename_i h
    exact (Nat.min_eq_right (Nat.le_of_lt (UInt32.lt_iff_toNat_lt.mp h))).symm
  · rename_i h
    exact (Nat.min_eq_left (Nat.le_of_not_lt fun hlt => h (UInt32.lt_iff_toNat_lt.mpr hlt))).symm

/-- An offset is cut off after the sum has wrapped around. -/
theorem toNat_offsetAt_wrapped (hsize : f.content.length < UInt32.size) (p : Position) :
    (f.offsetAt p).toNat = min (f.exactOffset p % UInt32.size) f.content.length := by
  unfold offsetAt exactOffset
  dsimp only
  rw [toNat_cutOff, toNat_size hsize]
  congr 1
  split
  · rename_i hline
    have hstart := lineStart_le_length (f := f) (k := p.line.toNat - 1) (by omega)
    rw [UInt32.toNat_add, toNat_lineStart hstart hsize, toNat_columnBefore]
  · rw [toNat_size hsize, Nat.mod_eq_of_lt hsize]

/-- The end of a span is cut off after the sum has wrapped around. -/
theorem toNat_stop_spanAt (hsize : f.content.length < UInt32.size) (p : Position) (n : UInt32) :
    (f.spanAt p n).stop.toNat = min (((f.offsetAt p).toNat + n.toNat) % UInt32.size) f.content.length := by
  unfold spanAt
  dsimp only
  rw [toNat_cutOff, toNat_size hsize, UInt32.toNat_add]

/-- A sum of two words is in front of the first of them exactly when it wraps around. -/
theorem le_wrapped_iff {a b : Nat} (ha : a < UInt32.size) (hb : b < UInt32.size) :
    a ≤ (a + b) % UInt32.size ↔ a + b < UInt32.size := by
  by_cases hfits : a + b < UInt32.size
  · simp [Nat.mod_eq_of_lt hfits, hfits]
  · have hwrapped : (a + b) % UInt32.size = a + b - UInt32.size := by
      rw [Nat.mod_eq_sub_mod (Nat.le_of_not_lt hfits), Nat.mod_eq_of_lt (by omega)]
    rw [hwrapped]
    omega

end File

/-! ## Main statements

What holds of all files that can be added to a set, and the two ends of the range at which it
does not.
-/

/-- In a file of fewer than 2³² bytes, a span that is made at the position where another span
starts starts there, too, and a span that is made at a position of the file starts at that
position: the lines are those that the newlines divide the file into, the columns go from 1 to
one behind the line. The lines with newlines between them are the content.

The first is said of starts with a column that fits a word. All have one but the end of a file
of 2³² - 1 bytes without a newline, whose column would be 2³². -/
theorem positions_inverse_to_offsets (f : File) (hsize : f.content.length < UInt32.size) :
    (∀ (s : Span) (n : UInt32), s.start.toNat ≤ f.content.length → newline ∈ f.content ∨ s.start.toNat + 1 < UInt32.size →
      (f.spanAt (f.positionsOf s).1 n).start = s.start) ∧
    (∀ (p : Position) (n : UInt32), 1 ≤ p.line → p.line.toNat ≤ f.content.count newline + 1 →
      1 ≤ p.col → p.col.toNat ≤ (f.line p.line).length + 1 → (f.positionsOf (f.spanAt p n)).1 = p) ∧
    [newline].intercalate ((List.range (f.content.count newline + 1)).map fun i => f.line (i + 1).toUInt32) = f.content := by
  refine ⟨fun s n => f.offsetAt_positionAt hsize, fun p n hfirst hlast hpos hfits => ?_, f.intercalate_lines hsize⟩
  rw [UInt32.le_iff_toNat_le, UInt32.toNat_one] at hfirst hpos
  obtain ⟨k, hl⟩ := Nat.exists_eq_add_of_le' hfirst
  have hk : k ≤ f.newlines.length := by
    rw [f.length_newlines]
    omega
  have hline : p.line = (k + 1).toUInt32 := by
    refine UInt32.toNat_inj.mp ?_
    rw [Nat.toUInt32_eq, UInt32.toNat_ofNat', ← hl, Nat.mod_eq_of_lt p.line.toNat_lt]
  rw [hline] at hfits
  have hlength := f.length_line hsize hk
  exact f.positionAt_offsetAt hsize hk hl hpos (by omega)

/-- The last line of three, of which the second one is blank. -/
theorem positions_inverse_on_last_line :
    (File.mk 0 "a" [97, 10, 10, 98, 99] .fromMemory).content.length < UInt32.size ∧
    newline ∈ (File.mk 0 "a" [97, 10, 10, 98, 99] .fromMemory).content ∧
    (File.mk 0 "a" [97, 10, 10, 98, 99] .fromMemory).positionsOf ⟨0, 3, 5⟩ = (⟨3, 1⟩, ⟨3, 3⟩) ∧
    ((File.mk 0 "a" [97, 10, 10, 98, 99] .fromMemory).spanAt ⟨3, 1⟩ 2).start = 3 ∧
    ((File.mk 0 "a" [97, 10, 10, 98, 99] .fromMemory).positionsOf
      ((File.mk 0 "a" [97, 10, 10, 98, 99] .fromMemory).spanAt ⟨3, 3⟩ 0)).1 = ⟨3, 3⟩ := by
  have inverse := positions_inverse_to_offsets (File.mk 0 "a" [97, 10, 10, 98, 99] .fromMemory) (by decide)
  refine ⟨by decide, by decide, by decide, ?_, ?_⟩
  · exact inverse.1 ⟨0, 3, 5⟩ 2 (by decide) (.inl (by decide))
  · exact inverse.2.1 ⟨3, 3⟩ 0 (by decide) (by decide) (by decide) (by decide)

/-- A file of as many bytes as a file may have, on one line. It is the only length at which a
column does not fit a word. -/
def longLine : File :=
  ⟨0, "a", List.replicate 4294967295 97, .fromMemory⟩

/-- The column of the end of a line of 2³² - 1 bytes is 0, and a span that is made there
starts at the start of the line. -/
theorem longLine_column_wraps :
    longLine.content.length = 4294967295 ∧
    (longLine.positionsOf ⟨0, 4294967295, 4294967295⟩).1 = ⟨1, 0⟩ ∧ (longLine.spanAt ⟨1, 0⟩ 0).start = 0 := by
  have hnone : newline ∉ longLine.content := fun hmem => absurd (List.eq_of_mem_replicate hmem) (by decide)
  have hlength : longLine.content.length = 4294967295 := List.length_replicate
  have hstart : (longLine.offsetAt ⟨1, 0⟩).toNat = lineStart longLine.newlines 0 + ((0 : UInt32).toNat - 1) :=
    File.toNat_offsetAt (by rw [hlength]; decide) (Nat.zero_le _) rfl (by simp [lineStart])
  refine ⟨hlength, File.positionAt_of_one_line hnone _, UInt32.toNat_inj.mp ?_⟩
  rw [File.spanAt, hstart]
  rfl

/-- In a file of fewer than 2³² bytes, both ends of a span lie in the file, whatever the line,
the column and the length it is made from; the end is not in front of the start exactly when
adding the length does not wrap around; and the span is the empty one at the end of the file
exactly when the offset of the position has not wrapped back into the file, and adding the
length to the size of the file does not wrap around, either. -/
theorem spanAt_within_file (f : File) (hsize : f.content.length < UInt32.size) (p : Position) (n : UInt32) :
    (f.spanAt p n).file = f.id ∧
    (f.spanAt p n).start ≤ f.size ∧ (f.spanAt p n).stop ≤ f.size ∧
    ((f.spanAt p n).start ≤ (f.spanAt p n).stop ↔ (f.spanAt p n).start.toNat + n.toNat < UInt32.size) ∧
    (f.spanAt p n = ⟨f.id, f.size, f.size⟩ ↔
      f.content.length ≤ f.exactOffset p % UInt32.size ∧ f.content.length + n.toNat < UInt32.size) := by
  have hstart : (f.spanAt p n).start.toNat = _ := File.toNat_offsetAt_wrapped hsize p
  have hstop : (f.spanAt p n).stop.toNat = min (((f.spanAt p n).start.toNat + n.toNat) % UInt32.size) f.content.length :=
    File.toNat_stop_spanAt hsize p n
  have hinside : (f.spanAt p n).start.toNat ≤ f.content.length := hstart ▸ Nat.min_le_right _ _
  have hn := n.toNat_lt
  refine ⟨rfl, ?_, ?_, ?_, ?_⟩
  · rwa [UInt32.le_iff_toNat_le, File.toNat_size hsize]
  · rw [UInt32.le_iff_toNat_le, File.toNat_size hsize, hstop]
    exact Nat.min_le_right _ _
  · rw [UInt32.le_iff_toNat_le, hstop, Nat.le_min, File.le_wrapped_iff (Nat.lt_of_le_of_lt hinside hsize) hn]
    exact and_iff_left hinside
  · have hends : f.spanAt p n = ⟨f.id, f.size, f.size⟩ ↔
        (f.spanAt p n).start.toNat = f.content.length ∧ (f.spanAt p n).stop.toNat = f.content.length := by
      rw [← File.toNat_size hsize, UInt32.toNat_inj, UInt32.toNat_inj]
      have hparts : f.spanAt p n = ⟨f.id, (f.spanAt p n).start, (f.spanAt p n).stop⟩ := rfl
      exact ⟨fun h => by simp [h], fun ⟨hs, ht⟩ => by rw [hparts, hs, ht]⟩
    rw [hends, ← File.le_wrapped_iff hsize hn]
    constructor
    · rintro ⟨hs, ht⟩
      rw [hs] at hstop
      omega
    · rintro ⟨hs, ht⟩
      have hend : (f.spanAt p n).start.toNat = f.content.length := hstart.trans (Nat.min_eq_right hs)
      rw [hend, Nat.min_eq_right ht] at hstop
      exact ⟨hend, hstop⟩

/-- A position behind the second of two lines. -/
theorem spanAt_behind_second_line :
    (File.mk 0 "a" [97, 10, 98] .fromMemory).content.length < UInt32.size ∧
    (File.mk 0 "a" [97, 10, 98] .fromMemory).exactOffset ⟨2, 7⟩ = 8 ∧
    (File.mk 0 "a" [97, 10, 98] .fromMemory).spanAt ⟨2, 7⟩ 4 = ⟨0, 3, 3⟩ := by
  obtain ⟨-, -, -, -, hend⟩ := spanAt_within_file (File.mk 0 "a" [97, 10, 98] .fromMemory) (by decide) ⟨2, 7⟩ 4
  exact ⟨by decide, by decide, hend.mpr ⟨by decide, by decide⟩⟩

/-- A length that wraps around ends a span in front of its start, and a column that does so
takes a position behind the end of the file back to its start. -/
theorem spanAt_wraps_around :
    (File.mk 0 "a" [97, 98] .fromMemory).spanAt ⟨1, 2⟩ 4294967295 = ⟨0, 1, 0⟩ ∧
    (File.mk 0 "a" [97, 10, 98] .fromMemory).content.length <
      (File.mk 0 "a" [97, 10, 98] .fromMemory).exactOffset ⟨2, 4294967295⟩ ∧
    (File.mk 0 "a" [97, 10, 98] .fromMemory).spanAt ⟨2, 4294967295⟩ 1 = ⟨0, 0, 1⟩ := by
  decide

end CallResolution.Source
