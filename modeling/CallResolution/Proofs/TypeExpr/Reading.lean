import CallResolution.Proofs.TypeExpr.Grammar

/-!
# The reader of types follows its grammar

What each reader takes off a text are the tokens of a derivation of what it returns.
Conversely, when the tokens of a derivation stand in a text, the reader takes them, provided
that what stands behind them does not go on with what is read: no dot and no bracket goes on
with a type (`Ends`), and a comma or the closing bracket ends an argument (`Closes`). The fuel
of the readers of names, arguments and dimensions is the length of the text, and each round
takes a token.

The levels of a reader count down while the depths of derivations count up, so together they
are `maxLevels`.

The grammar itself knows no limit on the length. The reader has one, since its offsets have 32
bits: a name of 2³² letters derives from the grammar and is refused.

Main statements: `parse_eq_ok_iff_derivation`, `long_name_refused`.
-/

namespace CallResolution

namespace Text

/-! ## Bytes below 128

A byte below 128 other than zero is a character by itself. No other byte shows as such a
character.
-/

/-- A character that is written as one byte and is not the zero byte. -/
def Plain (c : Char) : Prop :=
  0 < c.toNat ∧ c.toNat < 128

/-- The character that a byte is by itself. -/
def byteChar (b : UInt8) : Char :=
  Char.ofNat b.toNat

theorem toNat_ofNat (n : Nat) : (Char.ofNat n).toNat = n ∨ (Char.ofNat n).toNat = 0 := by
  by_cases hvalid : n.isValidChar
  · exact .inl (by rw [Char.ofNat, dif_pos hvalid]; rfl)
  · exact .inr (by rw [Char.ofNat, dif_neg hvalid]; rfl)

/-- No character from 128 on is plain, nor is what stands for a number that is none of a
character. -/
theorem not_plain_ofNat {n : Nat} (h : 128 ≤ n) : ¬ Plain (Char.ofNat n) := by
  rintro ⟨hpos, hlt⟩
  rcases toNat_ofNat n with hn | hn <;> omega

theorem toNat_byteChar (b : UInt8) : (byteChar b).toNat = b.toNat := by
  have hvalid : b.toNat.isValidChar := .inl (Nat.lt_trans b.toNat_lt (by decide))
  rw [byteChar, Char.ofNat, dif_pos hvalid]
  rfl

/-- Bytes that are plain characters by themselves are below 128. -/
theorem lt_of_plain_byteChar {b : UInt8} (h : Plain (byteChar b)) : b < 0x80 := by
  have hlt := h.2
  rw [toNat_byteChar] at hlt
  exact hlt

theorem not_plain_twoByte {a b : UInt8} {c : Char} (h : twoByte a b = some c) : ¬ Plain c := by
  unfold twoByte at h
  split at h
  · rename_i hfits
    cases h
    refine not_plain_ofNat ?_
    simp only [Bool.and_eq_true, decide_eq_true_eq, UInt8.le_iff_toNat_le, UInt8.reduceToNat] at hfits
    omega
  · cases h

theorem not_plain_threeByte {a b c : UInt8} {ch : Char} (h : threeByte a b c = some ch) : ¬ Plain ch := by
  unfold threeByte at h
  split at h
  · rename_i hfits
    cases h
    refine not_plain_ofNat ?_
    simp only [isContinuation, continuationBits, Bool.and_eq_true, Bool.or_eq_true, decide_eq_true_eq, bne_iff_ne, ne_eq,
      ← UInt8.toNat_inj, UInt8.le_iff_toNat_le, UInt8.reduceToNat] at hfits ⊢
    omega
  · cases h

theorem not_plain_fourByte {a b c d : UInt8} {ch : Char} (h : fourByte a b c d = some ch) : ¬ Plain ch := by
  unfold fourByte at h
  split at h
  · rename_i hfits
    cases h
    refine not_plain_ofNat ?_
    simp only [isContinuation, continuationBits, Bool.and_eq_true, Bool.or_eq_true, decide_eq_true_eq, bne_iff_ne, ne_eq,
      ← UInt8.toNat_inj, UInt8.le_iff_toNat_le, UInt8.reduceToNat] at hfits ⊢
    omega
  · cases h

/-- A stray byte does not show as a plain character. -/
theorem not_plain_stray (b : UInt8) : ¬ Plain (Piece.stray b).shown :=
  not_plain_ofNat (n := 0xFFFD) (by decide)

/-- The piece that a byte from 128 on starts does not show as a plain character. -/
theorem pieces_of_le {a : UInt8} (ha : ¬ a < 0x80) (r : Bytes) : ∃ p ps, pieces (a :: r) = p :: ps ∧ ¬ Plain p.shown := by
  cases r with
  | nil =>
    rw [pieces, if_neg ha]
    exact ⟨_, _, rfl, not_plain_stray a⟩
  | cons b r =>
    rw [pieces.eq_def]
    dsimp only
    rw [if_neg ha]
    split
    · rename_i ch htwo
      exact ⟨_, _, rfl, not_plain_twoByte htwo⟩
    · split
      · exact ⟨_, _, rfl, not_plain_stray a⟩
      · rename_i c r'
        split
        · rename_i ch hthree
          exact ⟨_, _, rfl, not_plain_threeByte hthree⟩
        · split
          · exact ⟨_, _, rfl, not_plain_stray a⟩
          · rename_i d r''
            split
            · rename_i ch hfour
              exact ⟨_, _, rfl, not_plain_fourByte hfour⟩
            · exact ⟨_, _, rfl, not_plain_stray a⟩

/-- A byte below 128 is a piece of its own. -/
theorem pieces_of_lt {a : UInt8} (ha : a < 0x80) (r : Bytes) : pieces (a :: r) = .char (byteChar a) :: pieces r := by
  cases r with
  | nil =>
    rw [pieces.eq_def, pieces.eq_def []]
    dsimp only
    rw [if_pos ha, byteChar]
  | cons b r =>
    rw [pieces.eq_def]
    dsimp only
    rw [if_pos ha, byteChar]

/-- Bytes below 128 show as the characters that they are by themselves. -/
theorem textOf_of_lt {b : Bytes} (h : ∀ x ∈ b, x < 0x80) : textOf b = String.ofList (b.map byteChar) := by
  have hpieces : (pieces b).map Piece.shown = b.map byteChar := by
    induction b with
    | nil => rw [pieces, List.map_nil, List.map_nil]
    | cons a r ih =>
      obtain ⟨ha, hr⟩ := List.forall_mem_cons.mp h
      rw [pieces_of_lt ha, List.map_cons, List.map_cons, ih hr]
      rfl
  rw [textOf, hpieces]

/-- Only bytes below 128 show as nothing but plain characters. -/
theorem lt_of_plain_textOf {b : Bytes} (h : ∀ c ∈ (textOf b).toList, Plain c) : ∀ x ∈ b, x < 0x80 := by
  rw [textOf, String.toList_ofList] at h
  induction b with
  | nil => simp
  | cons a r ih =>
    by_cases ha : a < 0x80
    · rw [pieces_of_lt ha, List.map_cons] at h
      exact List.forall_mem_cons.mpr ⟨ha, ih (List.forall_mem_cons.mp h).2⟩
    · obtain ⟨p, ps, hpieces, hp⟩ := pieces_of_le ha r
      rw [hpieces, List.map_cons] at h
      exact absurd (List.forall_mem_cons.mp h).1 hp

/-- A plain character is one byte. -/
theorem utf8ByteSize_of_plain {l : List Char} (h : ∀ c ∈ l, Plain c) : (String.ofList l).utf8ByteSize = l.length := by
  induction l with
  | nil => rfl
  | cons c l ih =>
    obtain ⟨hc, hl⟩ := List.forall_mem_cons.mp h
    have hone : c.utf8Size = 1 := Char.utf8Size_eq_one_iff.mpr (Nat.le_of_lt_succ hc.2)
    rw [String.ofList_cons, String.utf8ByteSize_append, String.utf8ByteSize_singleton, ih hl, hone, List.length_cons, Nat.add_comm]

end Text

namespace TypeExpr

variable {d fuel levels k : Nat} {t : TypeExpr} {a : TypeArgExpr} {as : List TypeArgExpr} {args : Option (List TypeArgExpr)}
  {ts : List Token} {s s' : List Char} {name n : String} {parts : List String}

/-! ## What is read has a derivation

One statement for each reader, by induction on its fuel. What is taken off are the tokens of a
derivation, and what is left is what stood behind them.
-/

/-- One more part of a dotted name. -/
theorem intercalate_part (name part : String) (parts : List String) :
    ".".intercalate ((name ++ "." ++ part) :: parts) = ".".intercalate (name :: part :: parts) := by
  rw [String.intercalate_cons_cons, String.intercalate_cons_append]

/-- Going on with a dotted name takes its further parts. -/
theorem reads_of_dottedFrom (h : dottedFrom fuel name s = .ok (n, s')) :
    ∃ parts, n = ".".intercalate (name :: parts) ∧ Reads (partTokens parts) s s' := by
  induction fuel generalizing name s with
  | zero =>
    cases h
    exact ⟨[], String.intercalate_singleton.symm, .nil _⟩
  | succ fuel ih =>
    rw [dottedFrom] at h
    split at h
    · cases h
      exact ⟨[], String.intercalate_singleton.symm, .nil _⟩
    · rename_i rest hdot
      split at h
      · cases h
      · rename_i part rest' hname
        obtain ⟨parts, rfl, hparts⟩ := ih h
        have hword := (name?_eq_some_iff.mp hname).trans hparts
        exact ⟨part :: parts, intercalate_part name part parts, (reads_of_dot? hdot).trans hword⟩

/-- Counting dimensions takes their brackets. -/
theorem reads_of_dimsFrom {m : Nat} (h : dimsFrom fuel k s = .ok (m, s')) : ∃ dims, m = k + dims ∧ Reads (dimTokens dims) s s' := by
  induction fuel generalizing k s with
  | zero =>
    cases h
    exact ⟨0, rfl, .nil _⟩
  | succ fuel ih =>
    rw [dimsFrom] at h
    split at h
    · cases h
      exact ⟨0, rfl, .nil _⟩
    · rename_i s₁ hopen
      split at h
      · cases h
      · rename_i s₂ hclose
        obtain ⟨dims, rfl, hdims⟩ := ih h
        have hpair := ((eat?_mark (t := .openBracket) rfl).mp hopen).trans ((eat?_mark (t := .closeBracket) rfl).mp hclose)
        exact ⟨dims + 1, by omega, hpair.trans hdims⟩

section Arguments

variable {arg : Reader TypeArgExpr} (harg : ∀ {s a s'}, arg s = .ok (a, s') → ∃ ts, ArgAt d a ts ∧ Reads ts s s')

include harg

/-- The arguments that are read have derivations, and the closing bracket is taken with them.
-/
theorem argsAt_of_argsFrom {done : List TypeArgExpr} (h : argsFrom arg fuel done s = .ok (as, s')) :
    ∃ more ts, as = done.reverse ++ more ∧ ArgsAt d more ts ∧ Reads (ts ++ [.closing]) s s' := by
  induction fuel generalizing done s with
  | zero => cases h
  | succ fuel ih =>
    rw [argsFrom] at h
    obtain ⟨⟨a, s₁⟩, hfirst, h⟩ := bind_eq_ok h
    obtain ⟨ts, ha, hts⟩ := harg hfirst
    dsimp only at h
    split at h
    · rename_i s₂ hcomma
      obtain ⟨more, ts', rfl, hmore, hts'⟩ := ih h
      have hrest := ((eat?_mark (t := .comma) rfl).mp hcomma).trans hts'
      exact ⟨a :: more, ts ++ .comma :: ts', by simp, .cons ha hmore, by simpa using hts.trans hrest⟩
    · split at h
      · rename_i s₂ hclose
        cases h
        exact ⟨[a], ts, by simp, .last ha, hts.trans ((eat?_mark (t := .closing) rfl).mp hclose)⟩
      · cases h

end Arguments

/-- Arguments that are read, or that there are none, have a derivation. -/
theorem argumentsAt_of_argList {arg : Reader TypeArgExpr}
    (harg : ∀ {s a s'}, arg s = .ok (a, s') → ∃ ts, ArgAt (d + 1) a ts ∧ Reads ts s s')
    (h : argList arg s = .ok (args, s')) : ∃ ts, ArgumentsAt d args ts ∧ Reads ts s s' := by
  unfold argList at h
  split at h
  · cases h
    exact ⟨[], .none, .nil s⟩
  · rename_i s₁ hopen
    have hopening := (eat?_mark (t := .opening) rfl).mp hopen
    split at h
    · rename_i s₂ hclose
      cases h
      exact ⟨_, .empty, hopening.trans ((eat?_mark (t := .closing) rfl).mp hclose)⟩
    · obtain ⟨⟨as, s₂⟩, hargs, h⟩ := bind_eq_ok h
      cases h
      obtain ⟨more, ts, rfl, hmore, hts⟩ := argsAt_of_argsFrom harg hargs
      exact ⟨_, .some hmore, hopening.trans hts⟩

/-- An argument that is read has a derivation. -/
theorem argAt_of_typeArg {type : Reader TypeExpr} (htype : ∀ {s t s'}, type s = .ok (t, s') → ∃ ts, TypeAt d t ts ∧ Reads ts s s')
    (h : typeArg type s = .ok (a, s')) : ∃ ts, ArgAt d a ts ∧ Reads ts s s' := by
  unfold typeArg at h
  split at h
  · obtain ⟨⟨t, s₁⟩, ht, h⟩ := bind_eq_ok h
    cases h
    obtain ⟨ts, hderived, hts⟩ := htype ht
    have hne : ts ≠ [] := by
      cases hderived
      exact List.cons_ne_nil _ _
    exact ⟨ts, .exact hderived, (reads_skipGaps hne).mp hts⟩
  · rename_i s₁ hmark
    have hmark := (eat?_mark (t := .mark) rfl).mp hmark
    split at h
    · rename_i s₂ hextends
      obtain ⟨⟨t, s₃⟩, ht, h⟩ := bind_eq_ok h
      cases h
      obtain ⟨ts, hderived, hts⟩ := htype ht
      exact ⟨_, .extends hderived, hmark.trans ((keyword?_eq_some_iff.mp hextends).trans hts)⟩
    · split at h
      · rename_i s₂ hsuper
        obtain ⟨⟨t, s₃⟩, ht, h⟩ := bind_eq_ok h
        cases h
        obtain ⟨ts, hderived, hts⟩ := htype ht
        exact ⟨_, .super hderived, hmark.trans ((keyword?_eq_some_iff.mp hsuper).trans hts)⟩
      · cases h
        exact ⟨_, .unbounded, hmark⟩

/-- A type that is read has a derivation, from the tokens that were taken. -/
theorem typeAt_of_typeWithin (hd : d + levels = maxLevels) (h : typeWithin levels s = .ok (t, s')) :
    ∃ ts, TypeAt d t ts ∧ Reads ts s s' := by
  induction levels generalizing d s s' t with
  | zero => cases h
  | succ levels ih =>
    rw [typeWithin] at h
    split at h
    · cases h
    · rename_i first s₁ hname
      obtain ⟨⟨name, s₂⟩, hdotted, h⟩ := bind_eq_ok h
      obtain ⟨⟨args, s₃⟩, hargs, h⟩ := bind_eq_ok h
      obtain ⟨⟨dims, s₄⟩, hdims, h⟩ := bind_eq_ok h
      cases h
      obtain ⟨parts, rfl, hparts⟩ := reads_of_dottedFrom hdotted
      obtain ⟨ts, hderived, hts⟩ := argumentsAt_of_argList (argAt_of_typeArg (ih (d := d + 1) (by omega))) hargs
      obtain ⟨dims, rfl, hbrackets⟩ := reads_of_dimsFrom hdims
      have hdeep : d ≤ 32 := by
        unfold maxLevels at hd
        omega
      rw [Nat.zero_add]
      exact ⟨_, .mk first parts dims hdeep hderived, (name?_eq_some_iff.mp hname).trans (hparts.trans (hts.trans hbrackets))⟩

/-! ## What has a derivation is read

The other direction, by induction on the derivation. Each reader stops where it should because
of what stands behind, which is said once for types and once for arguments.
-/

/-- A step that succeeds, and then another one. -/
theorem bind_of_ok {ε α β : Type} {x : Except ε α} {a : α} (h : x = .ok a) (f : α → Except ε β) : x >>= f = f a := by
  rw [h]
  rfl

/-- No type goes on with what is left: there is no dot but the first one of three, and no
bracket that opens. The reader of a type stops in front of such a text. -/
structure Ends (s : List Char) : Prop where
  /-- The name does not go on. -/
  noDot : dot? s = none
  /-- No arguments follow. -/
  noArguments : next? s ≠ some '<'
  /-- No dimension follows. -/
  noDimension : next? s ≠ some '['

/-- An argument ends here: there is a comma or the closing bracket. Nothing of a type goes on
with either. -/
def Closes (s : List Char) : Prop :=
  next? s = some ',' ∨ next? s = some '>'

/-- No type goes on where an argument ends. -/
theorem Closes.ends (h : Closes s) : Ends s := by
  unfold Closes at h
  refine ⟨dot?_eq_none fun hdot => ?_, fun hopen => ?_, fun hopen => ?_⟩
  · simp [hdot] at h
  · simp [hopen] at h
  · simp [hopen] at h

/-- Where an argument ends, there is no word. -/
theorem Closes.keyword?_eq_none (h : Closes s) (word : String) : keyword? word s = none := by
  have hname : name? s = none := by
    refine name?_eq_none fun c hc => ?_
    rcases h with h | h
    · cases h.symm.trans hc
      rfl
    · cases h.symm.trans hc
      rfl
  unfold keyword?
  rw [hname]

/-- The further parts of a dotted name are read up to where it does not go on. -/
theorem dottedFrom_eq_ok (h : Reads (partTokens parts) s s') (hend : dot? s' = none) (hfuel : parts.length ≤ fuel) :
    dottedFrom fuel name s = .ok (".".intercalate (name :: parts), s') := by
  induction parts generalizing fuel name s with
  | nil =>
    cases h
    cases fuel with
    | zero => rw [dottedFrom, String.intercalate_singleton]
    | succ fuel => rw [dottedFrom, hend, String.intercalate_singleton]
  | cons part parts ih =>
    cases fuel with
    | zero => cases hfuel
    | succ fuel =>
      obtain ⟨s₁, hdot, hrest⟩ := h.exists_cons
      obtain ⟨s₂, hword, hparts⟩ := hrest.exists_cons
      rw [dottedFrom, dot?_eq_some hdot hrest]
      dsimp only
      rw [name?_eq_some_iff.mpr hword]
      dsimp only
      rw [ih hparts (Nat.le_of_succ_le_succ hfuel), intercalate_part]

/-- Dimensions are read up to where no further one stands. -/
theorem dimsFrom_eq_ok {dims : Nat} (h : Reads (dimTokens dims) s s') (hend : next? s' ≠ some '[') (hfuel : dims ≤ fuel) :
    dimsFrom fuel k s = .ok (k + dims, s') := by
  induction dims generalizing fuel k s with
  | zero =>
    cases h
    cases fuel with
    | zero => rfl
    | succ fuel =>
      rw [dimsFrom, eat?_eq_none hend]
      rfl
  | succ dims ih =>
    cases fuel with
    | zero => cases hfuel
    | succ fuel =>
      obtain ⟨s₁, hopen, hrest⟩ := h.exists_cons
      obtain ⟨s₂, hclose, hdims⟩ := hrest.exists_cons
      have hopened : eat? ['['] s = some s₁ := (eat?_mark (t := .openBracket) rfl).mpr hopen
      have hclosed : eat? [']'] s₁ = some s₂ := (eat?_mark (t := .closeBracket) rfl).mpr hclose
      rw [dimsFrom, hopened]
      dsimp only
      rw [hclosed]
      dsimp only
      rw [ih hdims (Nat.le_of_succ_le_succ hfuel), Nat.add_right_comm, Nat.add_assoc]

/-- A type starts with a word. -/
theorem TypeAt.exists_word (h : TypeAt d t ts) : ∃ n ts', ts = .word n :: ts' := by
  cases h
  exact ⟨_, _, rfl⟩

/-- An argument starts with a word or a question mark. -/
theorem ArgAt.exists_cons (h : ArgAt d a ts) : ∃ t ts', ts = t :: ts' ∧ (t = .mark ∨ ∃ n, t = .word n) := by
  cases h with
  | exact type =>
    obtain ⟨n, ts', rfl⟩ := type.exists_word
    exact ⟨_, _, rfl, .inr ⟨n, rfl⟩⟩
  | _ => exact ⟨_, _, rfl, .inl rfl⟩

/-- Arguments start with a word or a question mark. -/
theorem ArgsAt.exists_cons (h : ArgsAt d as ts) : ∃ t ts', ts = t :: ts' ∧ (t = .mark ∨ ∃ n, t = .word n) := by
  cases h with
  | last arg => exact arg.exists_cons
  | cons arg more =>
    obtain ⟨t, ts', rfl, ht⟩ := arg.exists_cons
    exact ⟨t, _, rfl, ht⟩

/-- Arguments do not start with the closing bracket. -/
theorem ArgsAt.next?_ne {ts' : List Token} (h : ArgsAt d as ts) (hreads : Reads (ts ++ ts') s s') : next? s ≠ some '>' := by
  obtain ⟨t, ts', rfl, rfl | ⟨n, rfl⟩⟩ := h.exists_cons
  · simp [hreads.next?, Token.spelling]
  · obtain ⟨c, hc, hstart⟩ := hreads.next?_word
    rw [hc]
    rintro ⟨⟩
    cases hstart

/-- Every argument has a token. -/
theorem ArgsAt.length_le (h : ArgsAt d as ts) : as.length ≤ ts.length := by
  induction as generalizing ts with
  | nil => exact Nat.zero_le _
  | cons a as ih =>
    cases h with
    | last arg =>
      obtain ⟨t, ts', rfl, -⟩ := arg.exists_cons
      simp
    | cons arg more =>
      have := ih more
      simp only [List.length_append, List.length_cons]
      omega

section Arguments

variable {arg : Reader TypeArgExpr} (harg : ∀ {a ts s s'}, ArgAt d a ts → Reads ts s s' → Closes s' → arg s = .ok (a, s'))

include harg

/-- Arguments are read up to the closing bracket. -/
theorem argsFrom_eq_ok {done : List TypeArgExpr} (h : ArgsAt d as ts) (hreads : Reads (ts ++ [.closing]) s s')
    (hfuel : as.length ≤ fuel) : argsFrom arg fuel done s = .ok (done.reverse ++ as, s') := by
  induction as generalizing fuel done s ts with
  | nil => cases h
  | cons a as ih =>
    cases fuel with
    | zero => cases hfuel
    | succ fuel =>
      cases h with
      | last ha =>
        obtain ⟨s₁, hfirst, hclose⟩ := reads_append_iff.mp hreads
        have hnext : next? s₁ = some '>' := hclose.next?
        have hclosed : eat? ['>'] s₁ = some s' := (eat?_mark (t := .closing) rfl).mpr hclose
        rw [argsFrom, bind_of_ok (harg ha hfirst (.inr hnext))]
        dsimp only
        rw [eat?_eq_none (by simp [hnext]), hclosed, List.reverse_cons]
      | cons ha more =>
        rw [List.append_assoc, List.cons_append] at hreads
        obtain ⟨s₁, hfirst, hrest⟩ := reads_append_iff.mp hreads
        obtain ⟨s₂, hcomma, hmore⟩ := hrest.exists_cons
        have htaken : eat? [','] s₁ = some s₂ := (eat?_mark (t := .comma) rfl).mpr hcomma
        rw [argsFrom, bind_of_ok (harg ha hfirst (.inl hrest.next?))]
        dsimp only
        rw [htaken]
        dsimp only
        rw [ih more hmore (Nat.le_of_succ_le_succ hfuel), List.reverse_cons, List.append_assoc, List.singleton_append]

end Arguments

/-- The bracketed arguments are read, or that there are none. -/
theorem argList_eq_ok {arg : Reader TypeArgExpr}
    (harg : ∀ {a ts s s'}, ArgAt (d + 1) a ts → Reads ts s s' → Closes s' → arg s = .ok (a, s')) (h : ArgumentsAt d args ts)
    (hreads : Reads ts s s') (hend : next? s' ≠ some '<') : argList arg s = .ok (args, s') := by
  unfold argList
  cases h with
  | none =>
    cases hreads
    rw [eat?_eq_none hend]
  | empty =>
    obtain ⟨s₁, hopen, hclose⟩ := hreads.exists_cons
    have hopened : eat? ['<'] s = some s₁ := (eat?_mark (t := .opening) rfl).mpr hopen
    have hclosed : eat? ['>'] s₁ = some s' := (eat?_mark (t := .closing) rfl).mpr hclose
    rw [hopened]
    dsimp only
    rw [hclosed]
  | @some _ as ts h =>
    obtain ⟨s₁, hopen, hrest⟩ := hreads.exists_cons
    have hopened : eat? ['<'] s = some s₁ := (eat?_mark (t := .opening) rfl).mpr hopen
    have hfuel : as.length ≤ s₁.length + 1 := by
      have hlength := hrest.length_le
      have hargs := h.length_le
      rw [List.length_append] at hlength
      omega
    rw [hopened]
    dsimp only
    rw [eat?_eq_none (h.next?_ne hrest), bind_of_ok (argsFrom_eq_ok harg h hrest hfuel)]
    rfl

/-- An argument that has a derivation is read, where it ends. -/
theorem typeArg_eq_ok {type : Reader TypeExpr} (htype : ∀ {t ts s s'}, TypeAt d t ts → Reads ts s s' → Ends s' → type s = .ok (t, s'))
    (h : ArgAt d a ts) (hreads : Reads ts s s') (hend : Closes s') : typeArg type s = .ok (a, s') := by
  unfold typeArg
  cases h with
  | exact h =>
    obtain ⟨n, ts', rfl⟩ := h.exists_word
    obtain ⟨c, hc, hstart⟩ := hreads.next?_word
    have hmark : next? s ≠ some '?' := by
      rw [hc]
      rintro ⟨⟩
      cases hstart
    rw [eat?_eq_none hmark]
    dsimp only
    rw [bind_of_ok (htype h ((reads_skipGaps (List.cons_ne_nil _ _)).mpr hreads) hend.ends)]
  | unbounded =>
    have hmark : eat? ['?'] s = some s' := (eat?_mark (t := .mark) rfl).mpr hreads
    rw [hmark]
    dsimp only
    rw [hend.keyword?_eq_none, hend.keyword?_eq_none]
  | «extends» h =>
    obtain ⟨s₁, hmark, hrest⟩ := hreads.exists_cons
    obtain ⟨s₂, hword, hbound⟩ := hrest.exists_cons
    have hmark : eat? ['?'] s = some s₁ := (eat?_mark (t := .mark) rfl).mpr hmark
    rw [hmark]
    dsimp only
    rw [keyword?_eq_some_iff.mpr hword]
    dsimp only
    rw [bind_of_ok (htype h hbound hend.ends)]
  | super h =>
    obtain ⟨s₁, hmark, hrest⟩ := hreads.exists_cons
    obtain ⟨s₂, hword, hbound⟩ := hrest.exists_cons
    have hmark : eat? ['?'] s = some s₁ := (eat?_mark (t := .mark) rfl).mpr hmark
    have hother : keyword? "extends" s₁ = none := by
      unfold keyword?
      rw [name?_eq_some_iff.mpr hword]
      rfl
    rw [hmark]
    dsimp only
    rw [hother]
    dsimp only
    rw [keyword?_eq_some_iff.mpr hword]
    dsimp only
    rw [bind_of_ok (htype h hbound hend.ends)]

theorem length_partTokens (parts : List String) : (partTokens parts).length = 2 * parts.length := by
  induction parts with
  | nil => rfl
  | cons part parts ih =>
    simp only [partTokens, List.length_cons, ih]
    omega

theorem length_dimTokens (dims : Nat) : (dimTokens dims).length = 2 * dims := by
  induction dims with
  | zero => rfl
  | succ dims ih =>
    simp only [dimTokens, List.length_cons, ih]
    omega

/-- What follows the name of a type is its arguments or its dimensions, or what is left. -/
theorem noDot_of_arguments {ts : List Token} {dims : Nat} (h : ArgumentsAt d args ts) (hreads : Reads (ts ++ dimTokens dims) s s')
    (hend : Ends s') : dot? s = none := by
  cases h with
  | none =>
    cases dims with
    | zero =>
      cases hreads
      exact hend.noDot
    | succ dims => exact dot?_eq_none (by simp [hreads.next?, Token.spelling])
  | empty => exact dot?_eq_none (by simp [hreads.next?, Token.spelling])
  | some h => exact dot?_eq_none (by simp [hreads.next?, Token.spelling])

/-- What has a derivation as a type is read, when no type goes on behind it. -/
theorem typeWithin_eq_ok (hd : d + levels = maxLevels) (h : TypeAt d t ts) (hreads : Reads ts s s') (hend : Ends s') :
    typeWithin levels s = .ok (t, s') := by
  induction levels generalizing d s s' t ts with
  | zero =>
    cases h
    unfold maxLevels at hd
    omega
  | succ levels ih =>
    cases h with
    | mk first parts dims deep arguments =>
      obtain ⟨s₁, hword, hrest⟩ := hreads.exists_cons
      obtain ⟨s₂, hparts, hrest⟩ := reads_append_iff.mp hrest
      have hdot := noDot_of_arguments arguments hrest hend
      obtain ⟨s₃, harguments, hdims⟩ := reads_append_iff.mp hrest
      have hopen : next? s₃ ≠ some '<' := by
        cases dims with
        | zero =>
          cases hdims
          exact hend.noArguments
        | succ dims => simp [hdims.next?, Token.spelling]
      have hpartsFuel : parts.length ≤ s₁.length := by
        have hlength := hparts.length_le
        rw [length_partTokens] at hlength
        omega
      have hdimsFuel : dims ≤ s₃.length := by
        have hlength := hdims.length_le
        rw [length_dimTokens] at hlength
        omega
      rw [typeWithin, name?_eq_some_iff.mpr hword]
      dsimp only
      rw [bind_of_ok (dottedFrom_eq_ok hparts hdot hpartsFuel)]
      dsimp only
      rw [bind_of_ok (argList_eq_ok (typeArg_eq_ok (ih (by omega))) arguments harguments hopen)]
      dsimp only
      rw [bind_of_ok (dimsFrom_eq_ok hdims hend.noDimension hdimsFuel), Nat.zero_add]

/-! ## Whole texts

A whole text has nothing behind its type but blanks, and three dots in front of them perhaps.
-/

variable {te : TypeExpr} {src : String}

/-- Nothing goes on where only blanks are left. -/
theorem ends_of_blank (h : ∀ c ∈ s, isGap c) : next? s = none ∧ Ends s := by
  have hnone : next? s = none := by
    unfold next? skipGaps
    rw [List.dropWhile_eq_nil_iff.mpr h, List.head?_nil]
  exact ⟨hnone, dot?_eq_none (by simp [hnone]), by simp [hnone], by simp [hnone]⟩

/-- A text that is read is spelled by the tokens of a derivation. -/
theorem top_of_parse (h : parse src = .ok te) : ∃ ts, Top te ts ∧ Spells ts src.toList := by
  unfold parse at h
  obtain ⟨cs, hchars, h⟩ := bind_eq_ok h
  obtain ⟨rfl, -⟩ := chars_eq_ok hchars
  obtain ⟨⟨t, s⟩, htype, h⟩ := bind_eq_ok h
  obtain ⟨ts, hderived, hts⟩ := typeAt_of_typeWithin (Nat.zero_add _) htype
  dsimp only at h
  split at h
  · rename_i rest hdots
    obtain ⟨rfl, hblank⟩ := finish_eq_ok_iff.mp h
    exact ⟨_, .variadic hderived, rest, hblank, hts.trans ((eat?_mark (t := .dots) rfl).mp hdots)⟩
  · obtain ⟨rfl, hblank⟩ := finish_eq_ok_iff.mp h
    exact ⟨_, .plain hderived, s, hblank, hts⟩

/-- A text that the tokens of a derivation spell is read, if it is not too long. -/
theorem parse_of_top {ts : List Token} (hsize : src.utf8ByteSize ≤ maxBytes) (h : Top te ts) (hspells : Spells ts src.toList) :
    parse src = .ok te := by
  obtain ⟨gap, hblank, hreads⟩ := hspells
  have hchars : chars src = .ok src.toList := if_pos hsize
  unfold parse
  rw [bind_of_ok hchars]
  cases h with
  | plain h =>
    obtain ⟨hnone, hend⟩ := ends_of_blank hblank
    have hdots : eat? ['.', '.', '.'] gap = none := by
      rw [Option.eq_none_iff_forall_ne_some]
      intro rest heat
      rw [next?, eat?_eq_some_iff.mp heat] at hnone
      cases hnone
    have hread : type src.toList = .ok (te, gap) := typeWithin_eq_ok (Nat.zero_add _) h hreads hend
    rw [bind_of_ok hread]
    dsimp only
    rw [hdots]
    exact finish_eq_ok_iff.mpr ⟨rfl, hblank⟩
  | @variadic t _ h =>
    obtain ⟨s₁, htype, hdots⟩ := reads_append_iff.mp hreads
    have hnext : next? s₁ = some '.' := hdots.next?
    have hend : Ends s₁ := ⟨dot?_eq_none_of_dots hdots, by simp [hnext], by simp [hnext]⟩
    have heat : eat? ['.', '.', '.'] s₁ = some gap := (eat?_mark (t := .dots) rfl).mpr hdots
    have hread : type src.toList = .ok (t, s₁) := typeWithin_eq_ok (Nat.zero_add _) h htype hend
    rw [bind_of_ok hread]
    dsimp only
    rw [heat]
    exact finish_eq_ok_iff.mpr ⟨rfl, hblank⟩

/-- A text that is too long is refused, whatever it says. -/
theorem parse_of_size (h : maxBytes < src.utf8ByteSize) : parse src = .error ⟨.tooLong, src.toList⟩ := by
  unfold parse chars
  rw [if_neg (Nat.not_le.mpr h)]
  rfl

/-! ## Texts as bytes

Tokens are made of plain characters, so bytes that are no text in the encoding are refused
like any other character.
-/

open Text

/-- Blanks are plain. -/
theorem plain_of_isGap {c : Char} (h : isGap c) : Plain c := by
  simp only [isGap, Bool.or_eq_true, decide_eq_true_eq] at h
  rcases h with ((rfl | rfl) | rfl) | rfl <;> exact ⟨by decide, by decide⟩

/-- Identifiers are plain. -/
theorem plain_of_isNamePart {c : Char} (h : isNamePart c) : Plain c := by
  have hrange := isLast_range (c := c) (by simp [isLast, h])
  exact ⟨by omega, by omega⟩

/-- Tokens are plain. -/
theorem Token.plain {t : Token} (h : t.WellSpelled) : ∀ c ∈ t.spelling, Plain c := by
  cases t with
  | word n =>
    obtain ⟨c, cs, hn, hc, hcs⟩ := h
    rw [Token.spelling, hn]
    refine List.forall_mem_cons.mpr ⟨plain_of_isNamePart ?_, fun d hd => plain_of_isNamePart (hcs d hd)⟩
    rw [isNamePart, hc, Bool.true_or]
  | _ =>
    intro c hc
    simp only [Token.spelling, List.mem_cons, List.not_mem_nil, or_false, or_self] at hc
    rw [hc]
    exact ⟨by decide, by decide⟩

/-- A text that consists of tokens and blanks is plain. -/
theorem Spells.plain {ts : List Token} (h : Spells ts s) : ∀ c ∈ s, Plain c := by
  obtain ⟨gap, hblank, hreads⟩ := h
  induction hreads with
  | nil s => exact fun c hc => plain_of_isGap (hblank c hc)
  | cons blank spelled longest more ih =>
    intro c hc
    rcases List.mem_append.mp hc with hc | hc
    · exact plain_of_isGap (blank c hc)
    · rcases List.mem_append.mp hc with hc | hc
      · exact Token.plain spelled c hc
      · exact ih hblank c hc

/-- The reader accepts exactly the type expressions of its grammar that are not too long for
32-bit offsets, and returns the tree of the derivation: of texts, and of arbitrary bytes, in
which every byte that belongs to a type expression is a character by itself. -/
theorem parse_eq_ok_iff_derivation :
    (∀ (src : String) (te : TypeExpr), parse src = .ok te ↔
      src.utf8ByteSize ≤ maxBytes ∧ ∃ ts, Top te ts ∧ Spells ts src.toList) ∧
    (∀ (b : Bytes) (te : TypeExpr), parse (textOf b) = .ok te ↔
      b.length ≤ maxBytes ∧ ∃ ts, Top te ts ∧ Spells ts (b.map byteChar)) := by
  have texts (src : String) (te : TypeExpr) : parse src = .ok te ↔
      src.utf8ByteSize ≤ maxBytes ∧ ∃ ts, Top te ts ∧ Spells ts src.toList := by
    refine ⟨fun h => ⟨?_, top_of_parse h⟩, fun ⟨hsize, ts, hderived, hspells⟩ => parse_of_top hsize hderived hspells⟩
    obtain ⟨cs, hchars, -⟩ := bind_eq_ok h
    unfold chars at hchars
    split at hchars
    · assumption
    · cases hchars
  refine ⟨texts, fun b te => (texts (textOf b) te).trans ?_⟩
  -- Both sides say that the bytes are plain, and plain bytes are a text of as many characters.
  have same (h : ∀ x ∈ b, x < 0x80) : (textOf b).toList = b.map byteChar := by
    rw [textOf_of_lt h, String.toList_ofList]
  have size (h : ∀ c ∈ b.map byteChar, Plain c) (heq : (textOf b).toList = b.map byteChar) :
      (textOf b).utf8ByteSize = b.length := by
    rw [← String.ofList_toList (s := textOf b), heq, utf8ByteSize_of_plain h, List.length_map]
  constructor
  · rintro ⟨hsize, ts, hderived, hspells⟩
    have heq := same (lt_of_plain_textOf hspells.plain)
    rw [heq] at hspells
    exact ⟨size hspells.plain heq ▸ hsize, ts, hderived, hspells⟩
  · rintro ⟨hsize, ts, hderived, hspells⟩
    have heq := same fun x hx => lt_of_plain_byteChar (hspells.plain _ (List.mem_map_of_mem hx))
    have hlength := size hspells.plain heq
    rw [← heq] at hspells
    exact ⟨hlength.symm ▸ hsize, ts, hderived, hspells⟩

/-- A name of any length derives from the grammar. -/
theorem top_replicate (n : Nat) :
    let name := String.ofList (List.replicate (n + 1) 'a')
    ∃ ts, Top (.mk name none 0 false) ts ∧ Spells ts name.toList := by
  intro name
  have hname : name.toList = 'a' :: List.replicate n 'a' := String.toList_ofList
  have hspelled : (Token.word name).WellSpelled :=
    ⟨'a', List.replicate n 'a', hname, rfl, fun d hd => by rw [List.eq_of_mem_replicate hd]; rfl⟩
  refine ⟨[.word name], ?_, [], by simp, reads_singleton_iff.mpr ⟨?_, hspelled, by simp [Token.Longest]⟩⟩
  · simpa [partTokens, dimTokens] using Top.plain (TypeAt.mk name [] 0 (Nat.zero_le _) .none)
  · rw [hname, skipGaps_cons rfl, Token.spelling, hname, List.append_nil]

/-- A name of 2³² letters derives from the grammar, but it is refused. So the limit on the
length has to be part of what the reader accepts. -/
theorem long_name_refused :
    let name := String.ofList (List.replicate 4294967296 'a')
    (∃ te ts, Top te ts ∧ Spells ts name.toList) ∧ ∀ te, parse name ≠ .ok te := by
  intro name
  refine ⟨⟨_, top_replicate 4294967295⟩, fun te h => ?_⟩
  have hplain : ∀ c ∈ List.replicate 4294967296 'a', Plain c := by
    intro c hc
    rw [List.eq_of_mem_replicate hc]
    exact ⟨by decide, by decide⟩
  have hsize : name.utf8ByteSize = 4294967296 := by
    rw [utf8ByteSize_of_plain hplain, List.length_replicate]
  rw [parse_of_size (by rw [hsize]; decide)] at h
  cases h

end TypeExpr

end CallResolution
