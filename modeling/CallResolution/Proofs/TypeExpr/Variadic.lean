import CallResolution.Text.Words
import CallResolution.TypeExpr.Parser
import Mathlib.Data.List.TakeWhile

/-!
# Texts that end in three dots

Whether a callable has variable arity is seen from the end of the text of its last parameter,
before the text is read. The reader of types takes the three dots for variable arity too: it
stops behind a name or a closing bracket, so dots at the end of a text that it accepts were
left over by it. The number of dimensions it counts is less than the length of the text, so
one more of them still fits into 32 bits.

Main statement: `endsInDots_of_endsWith`.
-/

namespace CallResolution

namespace TypeExpr

open Text

variable {s s' s'' : List Char}

/-- The characters at which a type may end: those of identifiers, and the two closing
brackets. A dot and a blank are none. -/
def isLast (c : Char) : Bool :=
  isNamePart c || c = '>' || c = ']'

/-- A beginning was taken off a text, up to a character at which a type may end. It is said of
every reader that takes something, and passes from the parts of a type to the whole. -/
def Takes (s s' : List Char) : Prop :=
  ∃ front c, s = front ++ c :: s' ∧ isLast c

theorem Takes.suffix (h : Takes s s') : s' <:+ s := by
  obtain ⟨front, c, rfl, -⟩ := h
  exact (List.suffix_cons c s').trans (List.suffix_append _ _)

theorem Takes.length_lt (h : Takes s s') : s'.length < s.length := by
  obtain ⟨front, c, rfl, -⟩ := h
  simp
  omega

/-- More of the text may have been taken before. -/
theorem Takes.of_suffix (hs : s' <:+ s) (h : Takes s' s'') : Takes s s'' := by
  obtain ⟨before, rfl⟩ := hs
  obtain ⟨front, c, rfl, hc⟩ := h
  exact ⟨before ++ front, c, by simp, hc⟩

/-- Taking characters at which a type may end. -/
theorem Takes.of_all {l : List Char} (hne : l ≠ []) (hl : ∀ c ∈ l, isLast c) : Takes (l ++ s) s := by
  refine ⟨l.dropLast, l.getLast hne, ?_, hl _ (List.getLast_mem hne)⟩
  rw [← List.singleton_append, ← List.append_assoc, List.dropLast_concat_getLast hne]

/-! ## Tokens

What is left behind a token is an end of the text, and what was taken ends in a character at
which a type may end.
-/

/-- What is left behind leading blanks. -/
theorem skipGaps_suffix (s : List Char) : skipGaps s <:+ s :=
  List.dropWhile_suffix _

/-- What is left behind a token. -/
theorem stripToken?_eq_some {token : List Char} (h : stripToken? token s = some s') : s = token ++ s' := by
  induction token generalizing s with
  | nil => exact Option.some.inj h
  | cons t ts ih =>
    cases s with
    | nil => cases h
    | cons c cs =>
      rw [stripToken?] at h
      split at h
      · rename_i heq
        rw [heq, ih h]
        rfl
      · cases h

/-- What is left behind a token and the blanks before it. -/
theorem suffix_of_eat? {token : List Char} (h : eat? token s = some s') : token ++ s' <:+ s :=
  stripToken?_eq_some h ▸ skipGaps_suffix s

/-- Taking one character at which a type may end. -/
theorem takes_of_eat? {c : Char} (hc : isLast c) (h : eat? [c] s = some s') : Takes s s' :=
  .of_suffix (suffix_of_eat? h) ⟨[], c, rfl, hc⟩

/-- Names are taken. -/
theorem takes_of_name? {n : String} (h : name? s = some (n, s')) : Takes s s' := by
  unfold name? at h
  split at h
  · cases h
  · rename_i c cs hskip
    split at h
    · rename_i hstart
      cases h
      refine .of_suffix (skipGaps_suffix s) ?_
      have hsplit : c :: cs = (c :: cs.takeWhile isNamePart) ++ cs.dropWhile isNamePart := by
        rw [List.cons_append, List.takeWhile_append_dropWhile]
      rw [hskip, hsplit]
      refine .of_all (List.cons_ne_nil _ _) fun d hd => ?_
      rcases List.mem_cons.mp hd with rfl | hd
      · simp [isLast, isNamePart, hstart]
      · simp [isLast, List.mem_takeWhile_imp hd]
    · cases h

/-! ## Types

The readers of a type, one after another.
-/

/-- A step that succeeded, and then another one. -/
theorem bind_eq_ok {ε α β : Type} {x : Except ε α} {f : α → Except ε β} {b : β} (h : x >>= f = .ok b) :
    ∃ a, x = .ok a ∧ f a = .ok b := by
  cases x with
  | error e => cases h
  | ok a => exact ⟨a, rfl, h⟩

/-- Going on with a dotted name. -/
theorem takes_of_dottedFrom {fuel : Nat} {name n : String} (h : dottedFrom fuel name s = .ok (n, s')) : s' = s ∨ Takes s s' := by
  induction fuel generalizing name s with
  | zero =>
    cases h
    exact .inl rfl
  | succ fuel ih =>
    rw [dottedFrom] at h
    split at h
    · cases h
      exact .inl rfl
    · rename_i rest hdot
      split at h
      · cases h
      · rename_i part rest' hname
        have hrest : rest <:+ s := by
          unfold dot? at hdot
          split at hdot
          · rename_i rest hdots
            split at hdot
            · cases hdot
            · cases hdot
              exact (List.suffix_append ['.'] _).trans (suffix_of_eat? hdots)
          · cases hdot
        have htakes := (takes_of_name? hname).of_suffix hrest
        rcases ih h with rfl | hmore
        · exact .inr htakes
        · exact .inr (hmore.of_suffix htakes.suffix)

/-- Arguments are taken up to the closing bracket. -/
theorem takes_of_argsFrom {arg : Reader TypeArgExpr} (harg : ∀ s a s', arg s = .ok (a, s') → s' <:+ s) {fuel : Nat}
    {done as : List TypeArgExpr} (h : argsFrom arg fuel done s = .ok (as, s')) : Takes s s' := by
  induction fuel generalizing done s with
  | zero => cases h
  | succ fuel ih =>
    rw [argsFrom] at h
    obtain ⟨⟨a, s₁⟩, hfirst, h⟩ := bind_eq_ok h
    have hsuffix := harg _ _ _ hfirst
    dsimp only at h
    split at h
    · rename_i s₂ hcomma
      exact (ih h).of_suffix (((List.suffix_append [','] _).trans (suffix_of_eat? hcomma)).trans hsuffix)
    · split at h
      · rename_i s₂ hclose
        cases h
        exact (takes_of_eat? (by decide) hclose).of_suffix hsuffix
      · cases h

/-- The list of arguments is taken, if there is one. -/
theorem takes_of_argList {arg : Reader TypeArgExpr} (harg : ∀ s a s', arg s = .ok (a, s') → s' <:+ s)
    {as : Option (List TypeArgExpr)} (h : argList arg s = .ok (as, s')) : s' = s ∨ Takes s s' := by
  unfold argList at h
  split at h
  · cases h
    exact .inl rfl
  · rename_i s₁ hopen
    have hsuffix := (List.suffix_append ['<'] _).trans (suffix_of_eat? hopen)
    split at h
    · rename_i s₂ hclose
      cases h
      exact .inr ((takes_of_eat? (by decide) hclose).of_suffix hsuffix)
    · obtain ⟨⟨as', s₂⟩, hargs, h⟩ := bind_eq_ok h
      cases h
      exact .inr ((takes_of_argsFrom harg hargs).of_suffix hsuffix)

/-- Dimensions are taken, at most one for each unit of fuel. -/
theorem takes_of_dimsFrom {fuel n m : Nat} (h : dimsFrom fuel n s = .ok (m, s')) : (s' = s ∨ Takes s s') ∧ m ≤ n + fuel := by
  induction fuel generalizing n s with
  | zero =>
    cases h
    exact ⟨.inl rfl, Nat.le_refl _⟩
  | succ fuel ih =>
    rw [dimsFrom] at h
    split at h
    · cases h
      exact ⟨.inl rfl, by omega⟩
    · rename_i s₁ hopen
      split at h
      · cases h
      · rename_i s₂ hclose
        obtain ⟨hmore, hle⟩ := ih h
        have htakes := (takes_of_eat? (by decide) hclose).of_suffix ((List.suffix_append ['['] _).trans (suffix_of_eat? hopen))
        refine ⟨.inr ?_, by omega⟩
        rcases hmore with rfl | hmore
        · exact htakes
        · exact hmore.of_suffix htakes.suffix

/-- What is left behind a type argument. -/
theorem suffix_of_typeArg {type : Reader TypeExpr} (htype : ∀ s t s', type s = .ok (t, s') → s' <:+ s) {a : TypeArgExpr}
    (h : typeArg type s = .ok (a, s')) : s' <:+ s := by
  have keyword {word : String} {s₁ s₂ : List Char} (h : keyword? word s₁ = some s₂) : s₂ <:+ s₁ := by
    unfold keyword? at h
    split at h
    · rename_i n rest hname
      rw [Option.ite_none_right_eq_some] at h
      obtain ⟨-, h⟩ := h
      cases h
      exact (takes_of_name? hname).suffix
    · cases h
  unfold typeArg at h
  split at h
  · obtain ⟨⟨t, s₁⟩, ht, h⟩ := bind_eq_ok h
    cases h
    exact (htype _ _ _ ht).trans (skipGaps_suffix s)
  · rename_i s₁ hmark
    refine List.IsSuffix.trans ?_ ((List.suffix_append ['?'] _).trans (suffix_of_eat? hmark))
    split at h
    · rename_i s₂ hextends
      obtain ⟨⟨t, s₃⟩, ht, h⟩ := bind_eq_ok h
      cases h
      exact (htype _ _ _ ht).trans (keyword hextends)
    · split at h
      · rename_i s₂ hsuper
        obtain ⟨⟨t, s₃⟩, ht, h⟩ := bind_eq_ok h
        cases h
        exact (htype _ _ _ ht).trans (keyword hsuper)
      · cases h
        exact List.suffix_rfl

/-- Types are taken, without three dots, and with fewer dimensions than characters. -/
theorem takes_of_typeWithin {levels : Nat} {t : TypeExpr} (h : typeWithin levels s = .ok (t, s')) :
    Takes s s' ∧ t.dims < s.length := by
  induction levels generalizing s s' t with
  | zero => cases h
  | succ levels ih =>
    rw [typeWithin] at h
    split at h
    · cases h
    · rename_i first s₁ hname
      obtain ⟨⟨name, s₂⟩, hdotted, h⟩ := bind_eq_ok h
      obtain ⟨⟨args, s₃⟩, hargs, h⟩ := bind_eq_ok h
      obtain ⟨⟨dims, s₄⟩, hdims, h⟩ := bind_eq_ok h
      cases h
      have further {a b : List Char} (ha : Takes s a) (hb : b = a ∨ Takes a b) : Takes s b := by
        rcases hb with rfl | hb
        · exact ha
        · exact hb.of_suffix ha.suffix
      have hfirst := takes_of_name? hname
      have hthird := further (further hfirst (takes_of_dottedFrom hdotted))
        (takes_of_argList (fun s a s' => suffix_of_typeArg fun s t s' h => (ih h).1.suffix) hargs)
      obtain ⟨htakes, hle⟩ := takes_of_dimsFrom hdims
      refine ⟨further hthird htakes, ?_⟩
      have hlt := hthird.length_lt
      simp only [TypeExpr.dims]
      omega

/-! ## Whole texts

The three dots of a text that is accepted stand at its end, with nothing but blanks behind.
-/

/-- The numbers of the characters at which a type may end. -/
theorem isLast_range {c : Char} (h : isLast c) : 0x24 ≤ c.toNat ∧ c.toNat ≤ 0x7A ∧ c.toNat ≠ 0x2E := by
  have range {a b : Char} (ha : a ≤ c) (hb : c ≤ b) : a.toNat ≤ c.toNat ∧ c.toNat ≤ b.toNat := ⟨ha, hb⟩
  simp only [isLast, isNamePart, isNameStart, Bool.or_eq_true, Bool.and_eq_true, decide_eq_true_eq] at h
  rcases h with (((((rfl | rfl) | ⟨hlo, hhi⟩) | ⟨hlo, hhi⟩) | ⟨hlo, hhi⟩) | rfl) | rfl
  · decide
  · decide
  · have hrange : 0x61 ≤ c.toNat ∧ c.toNat ≤ 0x7A := range hlo hhi
    omega
  · have hrange : 0x41 ≤ c.toNat ∧ c.toNat ≤ 0x5A := range hlo hhi
    omega
  · have hrange : 0x30 ≤ c.toNat ∧ c.toNat ≤ 0x39 := range hlo hhi
    omega
  · decide
  · decide

/-- No type ends in a dot or a blank. -/
theorem isLast_solid {c : Char} (h : isLast c) : c ≠ '.' ∧ isBlank c = false := by
  have hrange := isLast_range h
  refine ⟨fun heq => hrange.2.2 (heq ▸ rfl), ?_⟩
  simp only [isBlank, Bool.or_eq_false_iff, Bool.and_eq_false_iff, decide_eq_false_iff_not]
  omega

/-- Blanks between tokens are white space. -/
theorem isBlank_of_isGap {c : Char} (h : isGap c) : isBlank c := by
  simp only [isGap, Bool.or_eq_true, decide_eq_true_eq] at h
  rcases h with ((rfl | rfl) | rfl) | rfl <;> rfl

/-- Dropping characters in front leaves a character that is not dropped, and what is behind
it. -/
theorem dropWhile_append_solid {p : Char → Bool} {c : Char} (hc : p c = false) (front rest : List Char) :
    ∃ kept, (front ++ c :: rest).dropWhile p = kept ++ c :: rest := by
  induction front with
  | nil => exact ⟨[], by simp [hc]⟩
  | cons d front ih =>
    rw [List.cons_append, List.dropWhile_cons]
    split
    · exact ih
    · exact ⟨d :: front, rfl⟩

/-- Blanks at the end of a text are dropped up to the last character that is none. -/
theorem trimBlanks_solid {src : String} {front gaps : List Char} {c : Char} (h : src.toList = front ++ c :: gaps)
    (hc : isBlank c = false) (hgaps : ∀ d ∈ gaps, isBlank d) : ∃ kept, (trimBlanks src).toList = kept ++ [c] := by
  obtain ⟨kept, hkept⟩ := dropWhile_append_solid hc front gaps
  refine ⟨kept, ?_⟩
  rw [trimBlanks, String.toList_ofList, h, hkept, dropEndWhile, List.reverse_append, List.reverse_cons, List.append_assoc,
    List.dropWhile_append_of_pos (by simpa using hgaps)]
  simp [hc]

/-- What is accepted at the end of a text. -/
theorem finish_eq_ok_iff {α : Type} {a b : α} : finish a s = .ok b ↔ b = a ∧ ∀ c ∈ s, isGap c := by
  have hblank : (skipGaps s).isEmpty ↔ ∀ c ∈ s, isGap c := List.isEmpty_iff.trans List.dropWhile_eq_nil_iff
  unfold finish
  rw [← hblank]
  split
  · rename_i hempty
    simp [hempty, eq_comm]
  · rename_i hleft
    simp [hleft, failAt]

/-- Only white space is left at the end of a text that is accepted. -/
theorem finish_eq_ok {α : Type} {a b : α} (h : finish a s = .ok b) : b = a ∧ ∀ c ∈ s, isBlank c :=
  (finish_eq_ok_iff.mp h).imp_right fun hblank c hc => isBlank_of_isGap (hblank c hc)

/-- A text has no more characters than bytes. -/
theorem length_le_utf8ByteSize (l : List Char) : l.length ≤ (String.ofList l).utf8ByteSize := by
  induction l with
  | nil => exact Nat.zero_le _
  | cons c l ih =>
    rw [String.ofList_cons, String.utf8ByteSize_append, String.utf8ByteSize_singleton, List.length_cons]
    have hsize := Char.utf8Size_pos c
    omega

/-- The characters of a text are no more than offsets can count. -/
theorem chars_eq_ok {src : String} (h : chars src = .ok s) : s = src.toList ∧ s.length ≤ maxBytes := by
  unfold chars at h
  split at h
  · rename_i hle
    cases h
    refine ⟨rfl, Nat.le_trans ?_ hle⟩
    have hlength := length_le_utf8ByteSize src.toList
    rwa [String.ofList_toList] at hlength
  · cases h

variable {src : String} {t : TypeExpr}

/-- What a text is read as. -/
theorem parse_eq_ok (h : parse src = .ok t) : ∃ t₀ rest, type src.toList = .ok (t₀, rest) ∧ src.toList.length ≤ maxBytes ∧
    (t = t₀.variadic ∨ t = t₀ ∧ ∀ c ∈ rest, isBlank c) := by
  unfold parse at h
  obtain ⟨cs, hchars, h⟩ := bind_eq_ok h
  obtain ⟨rfl, hlength⟩ := chars_eq_ok hchars
  obtain ⟨⟨t₀, rest⟩, htype, h⟩ := bind_eq_ok h
  dsimp only at h
  refine ⟨t₀, rest, htype, hlength, ?_⟩
  split at h
  · exact .inl (finish_eq_ok h).1
  · exact .inr (finish_eq_ok h)

/-- A type with three dots behind it, whose dimensions can be counted with 32 bits. The three
dots stand for one dimension more, so there has to be room for it. -/
structure EndsInDots (t : TypeExpr) : Prop where
  /-- There are three dots. -/
  variadic : t.isVariadic
  /-- One more dimension can be counted. -/
  small : t.dims + 1 < UInt32.size

/-- The dimensions of a type with three dots are counted. -/
theorem EndsInDots.toUInt32_ne_zero {name : String} {args : Option (List TypeArgExpr)} {dims : Nat} {variadic : Bool}
    (h : (TypeExpr.mk name args dims variadic).EndsInDots) : (dims + if variadic then 1 else 0).toUInt32 ≠ 0 := by
  have hvariadic : variadic = true := h.variadic
  have hsmall : dims + 1 < UInt32.size := h.small
  rw [hvariadic, if_pos rfl]
  intro heq
  have hzero := congrArg UInt32.toNat heq
  rw [Nat.toUInt32_eq, UInt32.toNat_ofNat', Nat.mod_eq_of_lt hsmall] at hzero
  cases hzero

/-- A text that ends in three dots is read as a type with three dots. -/
theorem endsInDots_of_endsWith (h : parse src = .ok t) (hdots : (trimBlanks src).endsWith "...") : t.EndsInDots := by
  obtain ⟨t₀, rest, htype, hlength, ht⟩ := parse_eq_ok h
  obtain ⟨htakes, hdims⟩ := takes_of_typeWithin htype
  rcases ht with rfl | ⟨-, hrest⟩
  · cases t₀ with
    | mk name args dims variadic =>
      refine ⟨rfl, ?_⟩
      unfold maxBytes at hlength
      simp only [TypeExpr.variadic, TypeExpr.dims, UInt32.size] at hdims ⊢
      omega
  · -- Otherwise the last character that is no blank is one at which a type may end.
    obtain ⟨front, c, hsrc, hc⟩ := htakes
    obtain ⟨hdot, hsolid⟩ := isLast_solid hc
    obtain ⟨kept, hkept⟩ := trimBlanks_solid hsrc hsolid hrest
    have hsuffix := String.Slice.endsWith_string_iff.mp hdots
    rw [String.copy_toSlice, hkept] at hsuffix
    obtain ⟨before, hbefore⟩ := hsuffix
    have hlast := congrArg List.getLast? hbefore
    rw [List.getLast?_append] at hlast
    exact absurd (by simpa using hlast.symm) hdot

end TypeExpr

end CallResolution
