import CallResolution.Diagnostic.Bag
import CallResolution.Proofs.Text.Separators
import Mathlib.Data.List.Nodup
import Mathlib.Data.Prod.Lex
import Mathlib.Order.OrderDual

/-!
# Repeated reports

A bag that is sorted and then freed of repeats keeps, for each code identifier and place, the
worst of its reports.

Two reports are repeats when a text agrees, the listing is sorted by numbers, and codes
outside the ranges in use share one identifier. So repeats need not stand side by side in the
listing. What carries the proof is that dropping repeats keeps exactly the first report of
each text, whatever stands between, so that it is enough to see what the sort brings to the
front. The sort is stable, so among reports that compare equal this is the one reported first.

Main statement: `sort_dedup_keeps_worst`.
-/

namespace CallResolution

open Source Text

/-! ## Places and codes as texts

The text by which repeats are found is put together from the identifier of a code and a place,
and both can be told from it.
-/

/-- The digits of a code's number are digits, the padding included. -/
theorem Code.isDigit_of_mem_fourDigits {n : Nat} {d : Char} (hd : d ∈ (fourDigits n).toList) : d.isDigit := by
  rw [fourDigits, String.toList_append, String.toList_ofList, List.mem_append] at hd
  obtain hd | hd := hd
  · rw [List.eq_of_mem_replicate hd]
    rfl
  · exact isDigit_of_mem_toString hd

/-- The identifier of a code is made of letters and digits. -/
theorem Code.isAlphanum_of_mem_id {c : Code} {d : Char} (hd : d ∈ c.id.toList) : d.isAlphanum := by
  have hword {w : String} (hw : w.toList.all Char.isAlphanum) (hd : d ∈ w.toList) : d.isAlphanum :=
    List.all_eq_true.mp hw d hd
  have hnumbered {w : String} (hw : w.toList.all Char.isAlphanum) (hd : d ∈ (w ++ fourDigits c.number.toNat).toList) :
      d.isAlphanum := by
    rw [String.toList_append, List.mem_append] at hd
    exact hd.elim (hword hw) fun hd => by simp [Char.isAlphanum, isDigit_of_mem_fourDigits hd]
  dsimp only [id] at hd
  split_ifs at hd
  · exact hnumbered (by decide) hd
  · exact hnumbered (by decide) hd
  · exact hnumbered (by decide) hd
  · exact hnumbered (by decide) hd
  · exact hword (by decide) hd

/-- The identifier of a code holds no colon. -/
theorem Code.colon_notMem_id (c : Code) : ':' ∉ c.id.toList :=
  fun h => absurd (isAlphanum_of_mem_id h) (by decide)

/-- The characters of a place's text: three numbers with two separators that are no digits. -/
theorem Source.Span.toList_text (s : Span) :
    s.text.toList = (toString s.file).toList ++ ':' :: ((toString s.start.toNat).toList ++ '-' :: (toString s.stop.toNat).toList) := by
  simp [Span.text, toString]

/-- A place can be told from its text. -/
theorem Source.Span.text_inj {s t : Span} (h : s.text = t.text) : s = t := by
  have hchars := congrArg String.toList h
  rw [toList_text, toList_text] at hchars
  obtain ⟨hfile, hrest⟩ := toString_append_inj (by decide) hchars
  obtain ⟨hstart, hrest⟩ := toString_append_inj (by decide) hrest
  have hstop := toString_inj hrest
  cases s
  cases t
  simp_all [UInt32.toNat_inj]

/-- The characters of the text by which repeats are found. -/
theorem Diagnostic.toList_repeatKey (d : Diagnostic) : d.repeatKey.toList = d.code.id.toList ++ ':' :: d.primary.text.toList := by
  simp [repeatKey, toString]

/-- Two reports are repeats of each other where the identifiers of their codes and their
places agree. -/
theorem Diagnostic.repeatKey_eq_iff {d e : Diagnostic} :
    d.repeatKey = e.repeatKey ↔ d.code.id = e.code.id ∧ d.primary = e.primary := by
  refine ⟨fun h => ?_, fun ⟨hid, hplace⟩ => by rw [repeatKey, repeatKey, hid, hplace]⟩
  have hchars := congrArg String.toList h
  rw [toList_repeatKey, toList_repeatKey] at hchars
  have hid (c : Code) : ∀ a ∈ c.id.toList, a != ':' := fun a ha => bne_iff_ne.mpr fun h => c.colon_notMem_id (h ▸ ha)
  obtain ⟨hid, hplace⟩ := append_cons_inj (hid d.code) (hid e.code) (by decide) hchars
  exact ⟨String.toList_inj.mp hid, Span.text_inj (String.toList_inj.mp hplace)⟩

/-! ## The order of a listing

The order is that of five numbers, one after another. Reports with the same numbers compare
equal, whatever else they say.
-/

theorem Severity.rank_inj {s t : Severity} : s.rank = t.rank ↔ s = t := by
  cases s
  cases t
  simp

namespace Diagnostic

/-- What a listing is sorted by: file, start, end, falling severity and code. Of two reports
at one place the worse one comes first, and of two that are as bad the one with the lesser
code. -/
def listingKey (d : Diagnostic) : Nat ×ₗ Nat ×ₗ Nat ×ₗ Natᵒᵈ ×ₗ Nat :=
  toLex (d.primary.file, toLex (d.primary.start.toNat, toLex (d.primary.stop.toNat,
    toLex (OrderDual.toDual d.severity.rank.toNat, d.code.number.toNat))))

theorem listingKey_le_iff {d e : Diagnostic} : d.listingKey ≤ e.listingKey ↔
    d.primary.file < e.primary.file ∨ d.primary.file = e.primary.file ∧
      (d.primary.start < e.primary.start ∨ d.primary.start = e.primary.start ∧
        (d.primary.stop < e.primary.stop ∨ d.primary.stop = e.primary.stop ∧
          (e.severity.rank < d.severity.rank ∨ d.severity = e.severity ∧ d.code.number ≤ e.code.number))) := by
  simp only [listingKey, Prod.Lex.toLex_le_toLex, OrderDual.toDual_lt_toDual, OrderDual.toDual_inj, UInt32.toNat_inj,
    UInt8.toNat_inj, Severity.rank_inj, ← UInt32.lt_iff_toNat_lt, ← UInt8.lt_iff_toNat_lt, ← UInt16.le_iff_toNat_le]

/-- One report is listed no later than another where its key is not the greater. -/
theorem listedBefore_iff {d e : Diagnostic} : d.listedBefore e ↔ d.listingKey ≤ e.listingKey := by
  rw [listingKey_le_iff, listedBefore]
  split_ifs <;> simp_all

theorem listedBefore_trans (d e f : Diagnostic) (hde : d.listedBefore e) (hef : e.listedBefore f) : d.listedBefore f :=
  listedBefore_iff.mpr ((listedBefore_iff.mp hde).trans (listedBefore_iff.mp hef))

theorem listedBefore_total (d e : Diagnostic) : d.listedBefore e || e.listedBefore d := by
  rw [Bool.or_eq_true, listedBefore_iff, listedBefore_iff]
  exact le_total _ _

/-- Of two reports of one place the one listed first is no milder, and its code no greater
where they are equally severe. -/
theorem severity_le_of_listingKey_le {d e : Diagnostic} (hplace : d.primary = e.primary) (h : d.listingKey ≤ e.listingKey) :
    e.severity.rank ≤ d.severity.rank ∧ (e.severity = d.severity → d.code.number ≤ e.code.number) := by
  simp only [listingKey_le_iff, hplace, UInt32.lt_irrefl, Nat.lt_irrefl, false_or, true_and] at h
  obtain hworse | ⟨hsame, hcode⟩ := h
  · refine ⟨UInt8.le_of_lt hworse, fun hsame => ?_⟩
    simp [hsame] at hworse
  · exact ⟨by simp [hsame], fun _ => hcode⟩

/-- Two reports have one key where they agree in place, severity and code. -/
theorem listingKey_congr {d e : Diagnostic} (hplace : d.primary = e.primary) (hseverity : d.severity = e.severity)
    (hcode : d.code = e.code) : d.listingKey = e.listingKey := by
  rw [listingKey, listingKey, hplace, hseverity, hcode]

end Diagnostic

/-! ## Stable sorting

Elements that compare equal keep their order, so the first of a kind stays in front of the
others.
-/

/-- Where the sort has no say among the elements of one kind, the first of them stays the
first. -/
theorem find?_mergeSort {α : Type} {le : α → α → Bool} (htrans : ∀ a b c, le a b → le b c → le a c)
    (htotal : ∀ a b, le a b || le b a) {p : α → Bool} (hp : ∀ a b, p a → p b → le a b) (l : List α) :
    (l.mergeSort le).find? p = l.find? p := by
  -- What satisfies `p` is in order already, so that a stable sort leaves it as it stands.
  have hsorted : (l.filter p).Pairwise (le · ·) :=
    List.pairwise_of_forall_mem_list fun a ha b hb => hp a b (List.mem_filter.mp ha).2 (List.mem_filter.mp hb).2
  have hsub : (l.filter p).Sublist ((l.mergeSort le).filter p) := by
    simpa using (List.sublist_mergeSort htrans htotal hsorted List.filter_sublist).filter p
  have hlength := ((List.mergeSort_perm l le).filter p).length_eq
  rw [← List.head?_filter, ← List.head?_filter, hsub.eq_of_length hlength.symm]

/-- The first element of a kind is also the first of every narrower kind it belongs to. -/
theorem find?_of_imp {α : Type} {p q : α → Bool} {l : List α} {a : α} (hpq : ∀ b, p b → q b) (ha : p a) (h : l.find? q = some a) :
    l.find? p = some a := by
  rw [List.find?_eq_some_iff_append] at h ⊢
  obtain ⟨-, front, rest, rfl, hfront⟩ := h
  refine ⟨ha, front, rest, rfl, fun b hb => ?_⟩
  have hq := hfront b hb
  rw [Bool.not_eq_true'] at hq ⊢
  exact Bool.eq_false_iff.mpr fun hpb => by simp [hpq b hpb] at hq

/-! ## Dropping repeats

About any list and any key: the first element of each key is kept.
-/

namespace Bag

/-- What is kept is the first report of its text. -/
theorem mem_dropRepeats {d : Diagnostic} (ds : List Diagnostic) (seen : List String) :
    d ∈ dropRepeats seen ds ↔ d.repeatKey ∉ seen ∧ ds.find? (·.repeatKey = d.repeatKey) = some d := by
  induction ds generalizing seen with
  | nil => simp [dropRepeats]
  | cons e ds ih =>
    rw [dropRepeats, List.find?_cons]
    split
    next hseen =>
      rw [ih]
      by_cases hkey : e.repeatKey = d.repeatKey
      · simp [← hkey, hseen]
      · simp [hkey]
    next hseen =>
      rw [List.mem_cons, ih]
      by_cases hkey : e.repeatKey = d.repeatKey
      · simp [← hkey, hseen, eq_comm]
      · have hne : d ≠ e := fun h => hkey (h ▸ rfl)
        simp [hkey, hne, Ne.symm hkey]

theorem dropRepeats_sublist (ds : List Diagnostic) (seen : List String) : (dropRepeats seen ds).Sublist ds := by
  induction ds generalizing seen with
  | nil => exact .slnil
  | cons e ds ih =>
    rw [dropRepeats]
    split
    · exact (ih _).cons e
    · exact (ih _).cons_cons e

/-- No text is kept twice. -/
theorem nodup_dropRepeats (ds : List Diagnostic) (seen : List String) : ((dropRepeats seen ds).map (·.repeatKey)).Nodup := by
  induction ds generalizing seen with
  | nil => simp [dropRepeats]
  | cons e ds ih =>
    rw [dropRepeats]
    split
    · exact ih seen
    · rw [List.map_cons, List.nodup_cons]
      refine ⟨fun hmem => ?_, ih _⟩
      obtain ⟨f, hf, hkey⟩ := List.mem_map.mp hmem
      exact ((mem_dropRepeats ds _).mp hf).1 (by simp [hkey])

/-- Every text is kept. -/
theorem exists_mem_dropRepeats {d : Diagnostic} {ds : List Diagnostic} (hd : d ∈ ds) :
    ∃ e ∈ dropRepeats [] ds, e.repeatKey = d.repeatKey := by
  obtain ⟨e, he⟩ := Option.isSome_iff_exists.mp (List.find?_isSome.mpr ⟨d, hd, decide_eq_true rfl⟩ :
    (ds.find? (·.repeatKey = d.repeatKey)).isSome)
  have hkey : e.repeatKey = d.repeatKey := by simpa using List.find?_some he
  exact ⟨e, (mem_dropRepeats ds []).mpr ⟨List.not_mem_nil, by rwa [hkey]⟩, hkey⟩

/-- Every text is kept once. -/
theorem countP_dropRepeats {d : Diagnostic} {ds : List Diagnostic} (hd : d ∈ ds) :
    (dropRepeats [] ds).countP (·.repeatKey = d.repeatKey) = 1 := by
  obtain ⟨e, he, hkey⟩ := exists_mem_dropRepeats hd
  have hcount := List.count_eq_one_of_mem (nodup_dropRepeats ds []) (List.mem_map_of_mem he)
  rw [hkey, List.count_eq_countP, List.countP_map] at hcount
  simpa [Function.comp_def, beq_eq_decide] using hcount

end Bag

/-! ## The worst report of each place

Sorting brings the worst report of a place to the front of the others, and dropping repeats
keeps it.
-/

/-- The `i`-th of some reports is the worst of its code identifier and place: none is more
severe, none as severe has a lesser code, and of those that agree with it in both it was
reported first. -/
structure WorstAt (ds : List Diagnostic) (i : Nat) (d : Diagnostic) : Prop where
  reported : ds[i]? = some d
  severest : ∀ e ∈ ds, e.code.id = d.code.id → e.primary = d.primary → e.severity.rank ≤ d.severity.rank
  leastCode : ∀ e ∈ ds, e.code.id = d.code.id → e.primary = d.primary → e.severity = d.severity → d.code.number ≤ e.code.number
  earliest : ∀ j e, ds[j]? = some e → e.primary = d.primary → e.severity = d.severity → e.code = d.code → i ≤ j

namespace Bag

/-- Sorting puts no report of a place in front of a worse one. -/
theorem pairwise_sort (b : Bag) : b.sort.items.Pairwise (·.listingKey ≤ ·.listingKey) :=
  (List.pairwise_mergeSort Diagnostic.listedBefore_trans Diagnostic.listedBefore_total b.items).imp Diagnostic.listedBefore_iff.mp

theorem mem_sort {b : Bag} {d : Diagnostic} : d ∈ b.sort.items ↔ d ∈ b.items :=
  List.mem_mergeSort

/-- The first report of a text in a sorted bag comes before every other report of the text. -/
theorem listingKey_le_of_mem_dedup {b : Bag} {d e : Diagnostic} (hd : d ∈ b.sort.dedup.items) (he : e ∈ b.items)
    (hkey : e.repeatKey = d.repeatKey) : d.listingKey ≤ e.listingKey := by
  obtain ⟨-, front, rest, hsort, hfront⟩ := List.find?_eq_some_iff_append.mp ((mem_dropRepeats _ _).mp hd).2
  have hpairwise := b.pairwise_sort
  rw [hsort] at hpairwise
  have hmem : e ∈ front ++ d :: rest := hsort ▸ mem_sort.mpr he
  obtain hin | hin := List.mem_append.mp hmem
  · simpa [hkey] using hfront e hin
  · obtain rfl | hin := List.mem_cons.mp hin
    · exact le_rfl
    · exact List.rel_of_pairwise_cons (List.pairwise_append.mp hpairwise).2.1 hin

/-- What is kept of a sorted bag stands in the bag where the first report of its place,
severity and code stood. -/
theorem find?_of_mem_dedup {b : Bag} {d : Diagnostic} (hd : d ∈ b.sort.dedup.items) :
    b.items.find? (fun e => e.primary = d.primary ∧ e.severity = d.severity ∧ e.code = d.code) = some d := by
  rw [← find?_mergeSort Diagnostic.listedBefore_trans Diagnostic.listedBefore_total]
  · refine find?_of_imp (fun e he => ?_) (by simp) ((mem_dropRepeats _ _).mp hd).2
    obtain ⟨hplace, -, hcode⟩ := of_decide_eq_true he
    exact decide_eq_true (Diagnostic.repeatKey_eq_iff.mpr ⟨by rw [hcode], hplace⟩)
  · intro e f he hf
    obtain ⟨hplace, hseverity, hcode⟩ := of_decide_eq_true he
    obtain ⟨hplace', hseverity', hcode'⟩ := of_decide_eq_true hf
    exact Diagnostic.listedBefore_iff.mpr (Diagnostic.listingKey_congr (hplace.trans hplace'.symm)
      (hseverity.trans hseverity'.symm) (hcode.trans hcode'.symm)).le

/-- What is kept of a sorted bag is the worst report of its place. -/
theorem exists_worstAt_of_mem_dedup {b : Bag} {d : Diagnostic} (hd : d ∈ b.sort.dedup.items) : ∃ i, WorstAt b.items i d := by
  obtain ⟨-, i, hi, rfl, hbefore⟩ := List.find?_eq_some_iff_getElem.mp (find?_of_mem_dedup hd)
  have hle (e : Diagnostic) (he : e ∈ b.items) (hid : e.code.id = b.items[i].code.id) (hplace : e.primary = b.items[i].primary) :=
    Diagnostic.severity_le_of_listingKey_le hplace.symm
      (listingKey_le_of_mem_dedup hd he (Diagnostic.repeatKey_eq_iff.mpr ⟨hid, hplace⟩))
  refine ⟨i, ?_, fun e he hid hplace => (hle e he hid hplace).1, fun e he hid hplace => (hle e he hid hplace).2, ?_⟩
  · exact List.getElem?_eq_getElem hi
  · intro j e he hplace hseverity hcode
    obtain ⟨hj, rfl⟩ := List.getElem?_eq_some_iff.mp he
    by_contra hlt
    simpa [hplace, hseverity, hcode] using hbefore j (by omega)

theorem mem_of_mem_dedup {b : Bag} {d : Diagnostic} (hd : d ∈ b.sort.dedup.items) : d ∈ b.items :=
  mem_sort.mp ((dropRepeats_sublist _ _).subset hd)

/-- A sorted bag without repeats holds an error if and only if the bag did. -/
theorem hasErrors_sort_dedup (b : Bag) : b.sort.dedup.hasErrors = b.hasErrors := by
  rw [Bool.eq_iff_iff, hasErrors, hasErrors, List.any_eq_true, List.any_eq_true]
  refine ⟨fun ⟨d, hd, herror⟩ => ⟨d, mem_of_mem_dedup hd, herror⟩, fun ⟨d, hd, herror⟩ => ?_⟩
  obtain ⟨e, he, hkey⟩ := exists_mem_dropRepeats (mem_sort.mpr hd)
  obtain ⟨i, hworst⟩ := exists_worstAt_of_mem_dedup he
  obtain ⟨hid, hplace⟩ := Diagnostic.repeatKey_eq_iff.mp hkey
  have hle := hworst.severest d hd hid.symm hplace.symm
  exact ⟨e, he, decide_eq_true (UInt8.le_trans (of_decide_eq_true herror) hle)⟩

/-- A bag that is sorted and freed of repeats is in the order of listings, has each code
identifier and place that was reported exactly once, keeps the worst report of each, and holds
an error if and only if it held one before. -/
theorem sort_dedup_keeps_worst (b : Bag) :
    b.sort.dedup.items.Pairwise (·.listingKey ≤ ·.listingKey) ∧
      (∀ d ∈ b.items, b.sort.dedup.items.countP (fun e => e.code.id = d.code.id ∧ e.primary = d.primary) = 1) ∧
      (∀ d ∈ b.sort.dedup.items, ∃ i, WorstAt b.items i d) ∧
      b.sort.dedup.hasErrors = b.hasErrors := by
  refine ⟨b.pairwise_sort.sublist (dropRepeats_sublist _ _), fun d hd => ?_, fun d => exists_worstAt_of_mem_dedup,
    b.hasErrors_sort_dedup⟩
  simpa [dedup, Diagnostic.repeatKey_eq_iff] using countP_dropRepeats (mem_sort.mpr hd)

/-- A warning and two errors at one place, the second error reported under the lesser of two
codes that share an identifier, and an error at an earlier place. The second error is kept. -/
theorem sort_dedup_of_four_reports :
    let place : Span := ⟨0, 4, 9⟩
    let w : Diagnostic := .warning ⟨7000⟩ place "w"
    let e : Diagnostic := .error ⟨7001⟩ place "e"
    let e' : Diagnostic := .error ⟨7000⟩ place "f"
    let f : Diagnostic := .error .methodNotFound ⟨0, 1, 2⟩ "g"
    let b : Bag := { limit := 4, items := [w, e, e', f] }
    w ∈ b.items ∧ b.sort.dedup.items.countP (fun d => d.code.id = w.code.id ∧ d.primary = w.primary) = 1 ∧
      e' ∈ b.sort.dedup.items ∧ ∃ i, WorstAt b.items i e' := by
  intro place w e e' f b
  obtain ⟨-, honce, hworst, -⟩ := sort_dedup_keeps_worst b
  have hw : w ∈ b.items := by simp [b]
  have he' : e' ∈ b.items := by simp [b]
  have hkept : e' ∈ b.sort.dedup.items := by
    obtain ⟨d, hd, hkey⟩ := List.countP_pos_iff.mp (Nat.lt_of_lt_of_eq Nat.one_pos (honce w hw).symm)
    obtain ⟨i, hi⟩ := hworst d hd
    have hmem : d ∈ [w, e, e', f] := List.mem_of_getElem? hi.reported
    simp only [List.mem_cons, List.not_mem_nil, or_false] at hmem
    obtain rfl | rfl | rfl | rfl := hmem
    · exact absurd (hi.severest e' he' rfl rfl) (by decide)
    · exact absurd (hi.leastCode e' he' (by decide +kernel) rfl rfl) (by decide)
    · exact hd
    · exact absurd (of_decide_eq_true hkey).2 (by decide)
  exact ⟨hw, honce w hw, hkept, hworst e' hkept⟩

end Bag

end CallResolution
