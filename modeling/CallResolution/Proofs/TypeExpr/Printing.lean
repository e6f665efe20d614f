import CallResolution.Proofs.TypeExpr.Reading

/-!
# The canonical text of a type

The text of a type spells the tokens of its derivation: behind every word stands a character
that does not go on with it, and a blank where one word would follow another. So it is read as
the same type. It may be longer than the text that the type was read from, which can have its
commas without blanks.

Main statements: `parse_text`, `wildcards_printed_too_long`.
-/

namespace CallResolution.TypeExpr

variable {d levels : Nat} {te : TypeExpr} {a : TypeArgExpr} {as : List TypeArgExpr} {t : Token} {ts : List Token} {s rest : List Char}
  {first src : String} {parts : List String}

/-! ## Spelled tokens

A row of tokens is spelled from its end: a token may be put in front of what is spelled
already, if that does not go on with it.
-/

/-- The tokens of a text are spelled. -/
theorem Reads.wellSpelled (h : Reads ts s rest) : ∀ t ∈ ts, t.WellSpelled := by
  induction h with
  | nil s => simp
  | cons blank spelled longest more ih => exact List.forall_mem_cons.mpr ⟨spelled, ih⟩

/-- A text does not go on with an identifier. It is what has to stand behind a word for the
word to end there. -/
def Stops (s : List Char) : Prop :=
  ∀ c ∈ s.head?, isNamePart c = false

theorem stops_cons {c : Char} (hc : isNamePart c = false) (s : List Char) : Stops (c :: s) := by
  intro d hd
  cases hd
  exact hc

/-- A token in front of a text in which others are read. -/
theorem Reads.behind (more : Reads ts s rest) (spelled : t.WellSpelled) (longest : t.Longest s) :
    Reads (t :: ts) (t.spelling ++ s) rest :=
  have blank : ∀ c ∈ ([] : List Char), isGap c := by simp
  .cons blank spelled longest more

/-- A word in front of a text that does not go on with it. -/
theorem Reads.word {n : String} (more : Reads ts s rest) (spelled : (Token.word n).WellSpelled) (hstops : Stops s) :
    Reads (.word n :: ts) (n.toList ++ s) rest :=
  more.behind spelled hstops

/-- A mark in front of a text. -/
theorem Reads.mark (more : Reads ts s rest) (t : Token) (ht : t.IsMark) : Reads (t :: ts) (t.spelling ++ s) rest := by
  cases t with
  | word | dot => cases ht
  | _ => exact more.behind trivial trivial

/-- A dot in front of a word. -/
theorem Reads.dot {n : String} (more : Reads (.word n :: ts) s rest) : Reads (.dot :: .word n :: ts) ('.' :: s) rest := by
  refine more.behind (t := .dot) trivial ?_
  rintro ⟨behind, rfl⟩
  obtain ⟨c, hc, hstart⟩ := more.next?_word
  obtain rfl : '.' = c := Option.some.inj hc
  cases hstart

/-- A blank in front of a text in which tokens are read. -/
theorem Reads.blank (h : Reads (t :: ts) s rest) : Reads (t :: ts) (' ' :: s) rest := by
  have hskip : skipGaps (' ' :: s) = skipGaps s := rfl
  rw [reads_cons_iff] at h ⊢
  rwa [hskip]

/-! ## Printed types

The text of each part of a type spells the tokens of its derivation, by induction on the
derivation.
-/

/-- A name spells its parts and the dots between them. -/
theorem reads_dottedName (hspelled : ∀ t ∈ Token.word first :: partTokens parts, t.WellSpelled) (hstops : Stops rest) :
    Reads (.word first :: partTokens parts) ((".".intercalate (first :: parts)).toList ++ rest) rest := by
  induction parts generalizing first with
  | nil =>
    rw [String.intercalate_singleton]
    exact (Reads.nil rest).word (hspelled _ List.mem_cons_self) hstops
  | cons part parts ih =>
    obtain ⟨hfirst, hmore⟩ := List.forall_mem_cons.mp hspelled
    have hread := (ih (List.forall_mem_cons.mp hmore).2).dot.word hfirst (stops_cons rfl _)
    simpa [partTokens, String.intercalate_cons_cons] using hread

/-- The brackets of dimensions spell their tokens. -/
theorem reads_brackets (dims : Nat) (rest : List Char) : Reads (dimTokens dims) ((brackets dims).toList ++ rest) rest := by
  induction dims with
  | zero => exact .nil rest
  | succ dims ih =>
    have hread := (ih.mark .closeBracket rfl).mark .openBracket rfl
    simpa [Token.spelling, brackets, dimTokens, List.replicate_succ] using hread

/-- No dimension goes on with an identifier. -/
theorem stops_brackets (hstops : Stops rest) (dims : Nat) : Stops ((brackets dims).toList ++ rest) := by
  cases dims with
  | zero => simpa [brackets] using hstops
  | succ dims =>
    rw [brackets, List.replicate_succ, String.join_cons, String.toList_append]
    exact stops_cons rfl _

section Arguments

variable (htype : ∀ {te ts rest}, TypeAt d te ts → (∀ t ∈ ts, t.WellSpelled) → Stops rest → Reads ts (te.text.toList ++ rest) rest)

include htype

/-- The text of a wildcard with a bound spells its tokens. -/
theorem reads_bounded {word : String} (h : TypeAt d te ts) (hspelled : ∀ t ∈ Token.word word :: ts, t.WellSpelled)
    (hstops : Stops rest) : Reads (.mark :: .word word :: ts) ('?' :: ' ' :: (word.toList ++ ' ' :: (te.text.toList ++ rest))) rest := by
  obtain ⟨hword, hts⟩ := List.forall_mem_cons.mp hspelled
  have hbound := htype h hts hstops
  obtain ⟨n, ts', rfl⟩ := h.exists_word
  exact (hbound.blank.word hword (stops_cons rfl _)).blank.mark .mark rfl

/-- The text of an argument spells its tokens. -/
theorem reads_argument (h : ArgAt d a ts) (hspelled : ∀ t ∈ ts, t.WellSpelled) (hstops : Stops rest) :
    Reads ts (a.text.toList ++ rest) rest := by
  cases h with
  | exact h =>
    rw [TypeArgExpr.text]
    exact htype h hspelled hstops
  | unbounded => exact (Reads.nil rest).mark .mark rfl
  | «extends» h =>
    rw [TypeArgExpr.text, String.toList_append, List.append_assoc]
    exact reads_bounded htype h (List.forall_mem_cons.mp hspelled).2 hstops
  | super h =>
    rw [TypeArgExpr.text, String.toList_append, List.append_assoc]
    exact reads_bounded htype h (List.forall_mem_cons.mp hspelled).2 hstops

/-- The texts of arguments with commas between them spell their tokens. -/
theorem reads_arguments (h : ArgsAt d as ts) (hspelled : ∀ t ∈ ts, t.WellSpelled) (hstops : Stops rest) :
    Reads ts ((", ".intercalate (argTexts as)).toList ++ rest) rest := by
  induction as generalizing ts with
  | nil => cases h
  | cons a as ih =>
    cases h with
    | last ha =>
      rw [argTexts, argTexts, String.intercalate_singleton]
      exact reads_argument htype ha hspelled hstops
    | cons ha more =>
      obtain ⟨hfirst, hrest⟩ := List.forall_mem_append.mp hspelled
      have hmore := ih more (List.forall_mem_cons.mp hrest).2
      obtain ⟨_, _, rfl, -⟩ := more.exists_cons
      have hread := (reads_argument htype ha hfirst (stops_cons rfl _)).trans (hmore.blank.mark .comma rfl)
      cases as with
      | nil => cases more
      | cons b bs => simpa [argTexts, String.intercalate_cons_cons, Token.spelling] using hread

end Arguments

/-- The text of a type spells the tokens of its derivation. -/
theorem reads_text (hd : d + levels = maxLevels) (h : TypeAt d te ts) (hspelled : ∀ t ∈ ts, t.WellSpelled) (hstops : Stops rest) :
    Reads ts (te.text.toList ++ rest) rest := by
  induction levels generalizing d te ts rest with
  | zero =>
    cases h
    unfold maxLevels at hd
    omega
  | succ levels ih =>
    cases h with
    | mk first parts dims deep arguments =>
      rw [← List.cons_append] at hspelled
      obtain ⟨hname, hrest⟩ := List.forall_mem_append.mp hspelled
      have hdims := reads_brackets dims rest
      cases arguments with
      | none =>
        have hread := (reads_dottedName hname (stops_brackets hstops dims)).trans hdims
        simpa [TypeExpr.text] using hread
      | empty =>
        have hargs := (hdims.mark .closing rfl).mark .opening rfl
        have hread := (reads_dottedName hname (stops_cons rfl _)).trans hargs
        simpa [TypeExpr.text, argTexts, Token.spelling] using hread
      | some args =>
        obtain ⟨hargs, -⟩ := List.forall_mem_append.mp (List.forall_mem_cons.mp (List.forall_mem_append.mp hrest).1).2
        have hclose := hdims.mark .closing rfl
        have hinside := (reads_arguments (ih (by omega)) args hargs (stops_cons rfl _)).trans hclose
        have hargs := hinside.mark .opening rfl
        have hread := (reads_dottedName hname (stops_cons rfl _)).trans hargs
        simpa [TypeExpr.text, Token.spelling] using hread

/-! ## Whole texts

With what the reader accepts, this makes the canonical text one that is read as the same type.
-/

/-- Three dots behind the text of a type. -/
theorem text_variadic (h : TypeAt d te ts) : te.variadic.text = te.text ++ "..." := by
  cases h
  rw [TypeExpr.variadic]
  unfold TypeExpr.text
  rw [if_pos rfl, if_neg Bool.false_ne_true, String.append_empty]

/-- The text of a whole type expression spells the tokens of its derivation. -/
theorem spells_text (h : Top te ts) (hspelled : ∀ t ∈ ts, t.WellSpelled) : Spells ts te.text.toList := by
  refine ⟨[], by simp, ?_⟩
  cases h with
  | plain h =>
    have hend : Stops [] := by simp [Stops]
    have hread := reads_text (Nat.zero_add _) h hspelled hend
    rwa [List.append_nil] at hread
  | variadic h =>
    obtain ⟨hts, -⟩ := List.forall_mem_append.mp hspelled
    rw [text_variadic h, String.toList_append]
    exact (reads_text (Nat.zero_add _) h hts (stops_cons rfl _)).trans ((Reads.nil []).mark .dots rfl)

/-- The canonical text of a type expression that was read is read as the same one, unless it
is too long. -/
theorem parse_text (h : parse src = .ok te) :
    parse te.text = if te.text.utf8ByteSize ≤ maxBytes then .ok te else .error ⟨.tooLong, te.text.toList⟩ := by
  obtain ⟨ts, hderived, gap, -, hreads⟩ := top_of_parse h
  split
  · rename_i hsize
    exact parse_of_top hsize hderived (spells_text hderived hreads.wellSpelled)
  · rename_i hsize
    exact parse_of_size (Nat.lt_of_not_le hsize)

/-- A text with blanks, no arguments, a wildcard, a dimension and three dots, and its
canonical text, are read as one type. -/
theorem parse_text_map :
    parse " java . Map<Key,?super\tA<> [ ] >..." =
      .ok (.mk "java.Map" (some [.exact (.mk "Key" none 0 false), .super (.mk "A" (some []) 1 false)]) 0 true) ∧
    parse "java.Map<Key, ? super A<>[]>..." =
      .ok (.mk "java.Map" (some [.exact (.mk "Key" none 0 false), .super (.mk "A" (some []) 1 false)]) 0 true) := by
  have hread : parse " java . Map<Key,?super\tA<> [ ] >..." =
      .ok (.mk "java.Map" (some [.exact (.mk "Key" none 0 false), .super (.mk "A" (some []) 1 false)]) 0 true) := rfl
  exact ⟨hread, parse_text hread⟩

/-! ## Texts that are too long when they are printed

A comma without a blank is printed with one, so a text with enough commas is read, and its
canonical text is too long.
-/

/-- Wildcards with commas and no blanks between them, one more than `n`. A comma and a
wildcard take two bytes when they are read, and three when they are printed. -/
def wildcards (n : Nat) : List Char :=
  (List.replicate n ['?', ',']).flatten ++ ['?']

/-- The tokens of the wildcards. -/
def wildcardTokens (n : Nat) : List Token :=
  (List.replicate n [.mark, .comma]).flatten ++ [.mark]

/-- The wildcards are arguments. -/
theorem argsAt_wildcards (n : Nat) : ArgsAt 1 (List.replicate (n + 1) .unbounded) (wildcardTokens n) := by
  induction n with
  | zero => exact .last .unbounded
  | succ n ih =>
    have hfirst : ArgAt 1 .unbounded [.mark] := .unbounded
    exact .cons hfirst ih

/-- The wildcards spell their tokens. -/
theorem reads_wildcards (n : Nat) (rest : List Char) : Reads (wildcardTokens n) (wildcards n ++ rest) rest := by
  induction n with
  | zero => exact (Reads.nil rest).mark .mark rfl
  | succ n ih => exact (ih.mark .comma rfl).mark .mark rfl

theorem length_wildcards (n : Nat) : (wildcards n).length = 2 * n + 1 := by
  simp [wildcards, Nat.mul_comm]

/-- Behind each comma a blank is printed. -/
theorem utf8ByteSize_wildcards (n : Nat) :
    (", ".intercalate (argTexts (List.replicate (n + 1) .unbounded))).utf8ByteSize = 3 * n + 1 := by
  induction n with
  | zero => rfl
  | succ n ih =>
    have hcons : argTexts (List.replicate (n + 2) .unbounded) = "?" :: argTexts (List.replicate (n + 1) .unbounded) := by
      rw [List.replicate_succ, argTexts, TypeArgExpr.text]
    have hmore : argTexts (List.replicate (n + 1) .unbounded) = "?" :: argTexts (List.replicate n .unbounded) := by
      rw [List.replicate_succ, argTexts, TypeArgExpr.text]
    rw [hcons, hmore, String.intercalate_cons_cons, ← hmore, String.utf8ByteSize_append, String.utf8ByteSize_append, ih]
    have hone : "?".utf8ByteSize = 1 := rfl
    have htwo : ", ".utf8ByteSize = 2 := rfl
    omega

/-- The text `A` with wildcards as arguments. -/
def wildcardText (n : Nat) : List Char :=
  'A' :: '<' :: (wildcards n ++ ['>'])

/-- A name with wildcards as arguments is read, if its text is not too long. -/
theorem parse_wildcardText (n : Nat) (h : 2 * n + 4 ≤ maxBytes) :
    parse (String.ofList (wildcardText n)) = .ok (.mk "A" (some (List.replicate (n + 1) .unbounded)) 0 false) := by
  have hderived : Top (.mk "A" (some (List.replicate (n + 1) .unbounded)) 0 false)
      (.word "A" :: .opening :: (wildcardTokens n ++ [.closing])) := by
    simpa [partTokens, dimTokens] using Top.plain (TypeAt.mk "A" [] 0 (Nat.zero_le _) (.some (argsAt_wildcards n)))
  have hread : Reads (.word "A" :: .opening :: (wildcardTokens n ++ [.closing])) (wildcardText n) [] := by
    have hclose := (reads_wildcards n ['>']).trans ((Reads.nil []).mark .closing rfl)
    exact (hclose.mark .opening rfl).word (n := "A") ⟨'A', [], rfl, rfl, by simp⟩ (stops_cons rfl _)
  have hspells : Spells (.word "A" :: .opening :: (wildcardTokens n ++ [.closing])) (wildcardText n) := ⟨[], by simp, hread⟩
  refine parse_of_top ?_ hderived (String.toList_ofList.symm ▸ hspells)
  rw [Text.utf8ByteSize_of_plain hspells.plain]
  simp only [wildcardText, List.length_cons, List.length_append, List.length_nil, length_wildcards]
  omega

/-- A name with 2147483646 wildcards as arguments is read, but its canonical text is too long.
-/
theorem wildcards_printed_too_long :
    ∃ te, parse (String.ofList (wildcardText 2147483645)) = .ok te ∧ parse te.text = .error ⟨.tooLong, te.text.toList⟩ := by
  refine ⟨_, parse_wildcardText 2147483645 (by decide), parse_of_size ?_⟩
  rw [TypeExpr.text]
  simp only [String.utf8ByteSize_append, utf8ByteSize_wildcards]
  unfold maxBytes
  omega

end CallResolution.TypeExpr
