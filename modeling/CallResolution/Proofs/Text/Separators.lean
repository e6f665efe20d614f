import Mathlib.Data.List.Basic

/-!
# Separated texts

A text that is made of parts with separators between them can be taken apart again where no
part holds the character that follows it. Numbers are written in digits, so whatever is no
digit separates them.
-/

namespace CallResolution.Text

/-- What stands in front of the first character of another kind, and what stands behind that,
can be told from the whole. -/
theorem append_cons_inj {α : Type} {p : α → Bool} {as bs rest rest' : List α} {c : α} (has : ∀ a ∈ as, p a)
    (hbs : ∀ b ∈ bs, p b) (hc : p c = false) (h : as ++ c :: rest = bs ++ c :: rest') : as = bs ∧ rest = rest' := by
  have hfront {l tail : List α} (hl : ∀ a ∈ l, p a) : (l ++ c :: tail).takeWhile p = l := by
    rw [List.takeWhile_append_of_pos hl, List.takeWhile_cons_of_neg (by simp [hc]), List.append_nil]
  obtain rfl : as = bs := by rw [← hfront has, h, hfront hbs]
  exact ⟨rfl, (List.cons.inj (List.append_cancel_left h)).2⟩

/-- Numbers are written in digits. -/
theorem isDigit_of_mem_toString {n : Nat} {d : Char} (hd : d ∈ (toString n).toList) : d.isDigit := by
  rw [Nat.toString_eq_ofList_toDigits, String.toList_ofList] at hd
  exact Nat.isDigit_of_mem_toDigits (by decide) (by decide) hd

/-- A number can be told from its digits. -/
theorem toString_inj {n m : Nat} (h : (toString n).toList = (toString m).toList) : n = m := by
  rw [Nat.toString_eq_ofList_toDigits, Nat.toString_eq_ofList_toDigits, String.toList_ofList, String.toList_ofList] at h
  rw [← Nat.ofDigitChars_ten_toDigits (n := n), h, Nat.ofDigitChars_ten_toDigits]

/-- A number in front of what is no digit can be told from its text. -/
theorem toString_append_inj {n m : Nat} {c : Char} {rest rest' : List Char} (hc : c.isDigit = false)
    (h : (toString n).toList ++ c :: rest = (toString m).toList ++ c :: rest') : n = m ∧ rest = rest' :=
  (append_cons_inj (fun _ => isDigit_of_mem_toString) (fun _ => isDigit_of_mem_toString) hc h).imp_left toString_inj

/-- What stands behind the last dollar sign is read backwards, up to the first character that
is no digit. -/
theorem toList_numbered_reverse (x : String) (n : Nat) :
    (x ++ "$" ++ toString n).toList.reverse = (toString n).toList.reverse ++ '$' :: x.toList.reverse := by
  simp [String.toList_append]

/-- What ends in a number behind a dollar sign can be taken apart. -/
theorem numbered_inj {x y : String} {n m : Nat} (h : x ++ "$" ++ toString (n + 1) = y ++ "$" ++ toString (m + 1)) :
    x = y ∧ n = m := by
  have hrev := congrArg (List.reverse ∘ String.toList) h
  simp only [Function.comp_apply, toList_numbered_reverse] at hrev
  obtain ⟨hnumber, hrest⟩ := append_cons_inj (p := Char.isDigit)
    (fun _ h => isDigit_of_mem_toString (List.mem_reverse.mp h)) (fun _ h => isDigit_of_mem_toString (List.mem_reverse.mp h)) rfl hrev
  exact ⟨String.toList_inj.mp (List.reverse_inj.mp hrest), Nat.succ.inj (toString_inj (List.reverse_inj.mp hnumber))⟩

/-- What ends in a number does not end in a dollar sign. -/
theorem number_ne_dollar (x y : String) (n : Nat) : x ++ "$" ++ toString n ≠ y ++ "$" := by
  intro h
  have hrev := congrArg (List.reverse ∘ String.toList) h
  simp only [Function.comp_apply, toList_numbered_reverse] at hrev
  have hdollar : (y ++ "$").toList.reverse = [] ++ '$' :: y.toList.reverse := by simp [String.toList_append]
  rw [hdollar] at hrev
  obtain ⟨hempty, -⟩ := append_cons_inj (p := Char.isDigit)
    (fun _ h => isDigit_of_mem_toString (List.mem_reverse.mp h)) (by simp) rfl hrev
  rw [List.reverse_eq_nil_iff, Nat.toString_eq_ofList_toDigits, String.toList_ofList] at hempty
  exact absurd hempty Nat.toDigits_ne_nil

end CallResolution.Text
