import CallResolution.Proofs.TypeExpr.Variadic
import Mathlib.Data.List.DropRight

/-!
# The grammar of type expressions

A text is a row of tokens with blanks between them. A word is a whole identifier, and three
dots are one token, so a token is read as long as it can be (`Token.Longest`). What a row of
tokens means is given by derivations: a type is a dotted name, which arguments in angle
brackets and pairs of square brackets may follow, and the types in its arguments lie one
deeper, down to depth 32.

The second half of the module says what each token reader of the parser does in terms of
tokens. Where a reader gives up, that depends on the next character that is no blank (`next?`)
only.
-/

namespace CallResolution.TypeExpr

/-! ## Tokens

A text spells a row of tokens in one way only, if each token is as long as it can be. The
blanks between them are free.
-/

/-- The tokens of type expressions. The words `extends` and `super` of wildcards are
identifiers like any other: what makes them keywords is where they stand. -/
inductive Token where
  /-- An identifier. -/
  | word (n : String)
  /-- The dot in a dotted name. -/
  | dot
  /-- The three dots of variable arity. -/
  | dots
  /-- The angle bracket in front of arguments. -/
  | opening
  /-- The angle bracket behind arguments. -/
  | closing
  /-- The comma between arguments. -/
  | comma
  /-- The question mark of a wildcard. -/
  | mark
  /-- The first bracket of a dimension. -/
  | openBracket
  /-- The second bracket of a dimension. -/
  | closeBracket
  deriving DecidableEq, Repr

namespace Token

/-- The characters of a token. -/
def spelling : Token → List Char
  | .word n => n.toList
  | .dot => ['.']
  | .dots => ['.', '.', '.']
  | .opening => ['<']
  | .closing => ['>']
  | .comma => [',']
  | .mark => ['?']
  | .openBracket => ['[']
  | .closeBracket => [']']

/-- A word is an identifier. -/
def WellSpelled : Token → Prop
  | .word n => ∃ c cs, n.toList = c :: cs ∧ isNameStart c ∧ ∀ d ∈ cs, isNamePart d
  | _ => True

/-- In front of `rest`, the token is as long as it can be: the word does not go on, and the
dot is not the first one of three. Without this a word could be read as two. -/
def Longest (rest : List Char) : Token → Prop
  | .word _ => ∀ c ∈ rest.head?, isNamePart c = false
  | .dot => ¬ ['.', '.'] <+: rest
  | _ => True

end Token

/-- A text begins with tokens, each with blanks in front of it or none, and then goes on with
`rest`. The constructors follow the text from the front. -/
inductive Reads : List Token → List Char → List Char → Prop
  /-- No token is read. -/
  | nil (s : List Char) : Reads [] s s
  /-- One token is read, and then the others. -/
  | cons {t : Token} {ts : List Token} {gap s rest : List Char} (blank : ∀ c ∈ gap, isGap c) (spelled : t.WellSpelled)
      (longest : t.Longest s) (more : Reads ts s rest) : Reads (t :: ts) (gap ++ (t.spelling ++ s)) rest

/-- A whole text consists of tokens and blanks. -/
def Spells (ts : List Token) (s : List Char) : Prop :=
  ∃ gap, (∀ c ∈ gap, isGap c) ∧ Reads ts s gap

/-! ## Derivations

The grammar, one rule for each constructor. The depth is that of the type in the brackets
around it.
-/

/-- The tokens of the further parts of a dotted name. -/
def partTokens : List String → List Token
  | [] => []
  | part :: parts => .dot :: .word part :: partTokens parts

/-- The tokens of a number of dimensions. -/
def dimTokens : Nat → List Token
  | 0 => []
  | n + 1 => .openBracket :: .closeBracket :: dimTokens n

mutual

/-- A type at a depth. The depth is limited to 32, which is the limit of the reader as well.
-/
inductive TypeAt : Nat → TypeExpr → List Token → Prop
  /-- A dotted name, arguments if there are any, and dimensions. -/
  | mk {d : Nat} {args : Option (List TypeArgExpr)} {ts : List Token} (first : String) (parts : List String) (dims : Nat)
      (deep : d ≤ 32) (arguments : ArgumentsAt d args ts) :
      TypeAt d (.mk (".".intercalate (first :: parts)) args dims false) (.word first :: (partTokens parts ++ (ts ++ dimTokens dims)))

/-- The arguments of a type at a depth, with their brackets. Brackets with nothing between
them are told from no brackets. -/
inductive ArgumentsAt : Nat → Option (List TypeArgExpr) → List Token → Prop
  /-- There are no brackets. -/
  | none {d : Nat} : ArgumentsAt d .none []
  /-- There is nothing between the brackets. -/
  | empty {d : Nat} : ArgumentsAt d (.some []) [.opening, .closing]
  /-- There are arguments between the brackets. -/
  | some {d : Nat} {as : List TypeArgExpr} {ts : List Token} (args : ArgsAt (d + 1) as ts) :
      ArgumentsAt d (.some as) (.opening :: (ts ++ [.closing]))

/-- One or more arguments at a depth, with commas between them. -/
inductive ArgsAt : Nat → List TypeArgExpr → List Token → Prop
  /-- The last argument. -/
  | last {d : Nat} {a : TypeArgExpr} {ts : List Token} (arg : ArgAt d a ts) : ArgsAt d [a] ts
  /-- An argument in front of others. -/
  | cons {d : Nat} {a : TypeArgExpr} {as : List TypeArgExpr} {ts ts' : List Token} (arg : ArgAt d a ts) (more : ArgsAt d as ts') :
      ArgsAt d (a :: as) (ts ++ .comma :: ts')

/-- An argument at a depth. -/
inductive ArgAt : Nat → TypeArgExpr → List Token → Prop
  /-- A type. -/
  | exact {d : Nat} {t : TypeExpr} {ts : List Token} (type : TypeAt d t ts) : ArgAt d (.exact t) ts
  /-- A wildcard without a bound. -/
  | unbounded {d : Nat} : ArgAt d .unbounded [.mark]
  /-- A wildcard with an upper bound. -/
  | extends {d : Nat} {t : TypeExpr} {ts : List Token} (type : TypeAt d t ts) :
      ArgAt d (.extends t) (.mark :: .word "extends" :: ts)
  /-- A wildcard with a lower bound. -/
  | super {d : Nat} {t : TypeExpr} {ts : List Token} (type : TypeAt d t ts) : ArgAt d (.super t) (.mark :: .word "super" :: ts)

end

/-- A whole type expression: a type, possibly with three dots. Inside of arguments there are
no three dots. -/
inductive Top : TypeExpr → List Token → Prop
  /-- A type. -/
  | plain {t : TypeExpr} {ts : List Token} (type : TypeAt 0 t ts) : Top t ts
  /-- A type with three dots. -/
  | variadic {t : TypeExpr} {ts : List Token} (type : TypeAt 0 t ts) : Top t.variadic (ts ++ [.dots])

/-! ## Reading tokens

How a text that begins with tokens is taken apart and put together.
-/

variable {t : Token} {ts ts' : List Token} {s s' rest : List Char}

/-- No identifier starts with a blank. -/
theorem isGap_of_isNameStart {c : Char} (h : isNameStart c) : isGap c = false := by
  have hlast : isLast c := by simp [isLast, isNamePart, h]
  rw [← Bool.not_eq_true]
  intro hgap
  exact Bool.false_ne_true ((isLast_solid hlast).2.symm.trans (isBlank_of_isGap hgap))

/-- A token starts with a character that is no blank. -/
theorem Token.exists_spelling (h : t.WellSpelled) : ∃ c cs, t.spelling = c :: cs ∧ isGap c = false := by
  cases t with
  | word n =>
    obtain ⟨c, cs, hn, hc, -⟩ := h
    exact ⟨c, cs, hn, isGap_of_isNameStart hc⟩
  | _ => exact ⟨_, _, rfl, rfl⟩

/-- What stands behind the blanks in front of a text. -/
theorem skipGaps_append {gap : List Char} (blank : ∀ c ∈ gap, isGap c) (s : List Char) : skipGaps (gap ++ s) = skipGaps s :=
  List.dropWhile_append_of_pos blank

/-- A text that starts with a character that is no blank. -/
theorem skipGaps_cons {c : Char} (hc : isGap c = false) (s : List Char) : skipGaps (c :: s) = c :: s := by
  simp [skipGaps, hc]

@[simp]
theorem skipGaps_skipGaps (s : List Char) : skipGaps (skipGaps s) = skipGaps s :=
  List.dropWhile_idempotent isGap s

/-- A text is its leading blanks and what stands behind them. -/
theorem exists_gap (s : List Char) : ∃ gap, (∀ c ∈ gap, isGap c) ∧ s = gap ++ skipGaps s :=
  ⟨s.takeWhile isGap, fun _ => List.mem_takeWhile_imp, List.takeWhile_append_dropWhile.symm⟩

/-- A text that begins with a token. -/
theorem reads_cons_iff : Reads (t :: ts) s rest ↔
    ∃ s', skipGaps s = t.spelling ++ s' ∧ t.WellSpelled ∧ t.Longest s' ∧ Reads ts s' rest := by
  constructor
  · intro h
    cases h with
    | cons blank spelled longest more =>
      obtain ⟨c, cs, hspelling, hc⟩ := Token.exists_spelling spelled
      refine ⟨_, ?_, spelled, longest, more⟩
      rw [skipGaps_append blank, hspelling, List.cons_append, skipGaps_cons hc]
  · rintro ⟨s', hskip, spelled, longest, more⟩
    obtain ⟨gap, blank, hs⟩ := exists_gap s
    rw [hs, hskip]
    exact .cons blank spelled longest more

/-- Tokens are read after one another. -/
theorem reads_append_iff : Reads (ts ++ ts') s rest ↔ ∃ s', Reads ts s s' ∧ Reads ts' s' rest := by
  induction ts generalizing s with
  | nil =>
    constructor
    · exact fun h => ⟨s, .nil s, h⟩
    · rintro ⟨s', h, h'⟩
      cases h
      exact h'
  | cons t ts ih =>
    constructor
    · intro h
      obtain ⟨s', hskip, spelled, longest, more⟩ := reads_cons_iff.mp h
      obtain ⟨s'', hts, hts'⟩ := ih.mp more
      exact ⟨s'', reads_cons_iff.mpr ⟨s', hskip, spelled, longest, hts⟩, hts'⟩
    · rintro ⟨s'', hts, hts'⟩
      obtain ⟨s', hskip, spelled, longest, more⟩ := reads_cons_iff.mp hts
      exact reads_cons_iff.mpr ⟨s', hskip, spelled, longest, ih.mpr ⟨s'', more, hts'⟩⟩

theorem Reads.trans (h : Reads ts s s') (h' : Reads ts' s' rest) : Reads (ts ++ ts') s rest :=
  reads_append_iff.mpr ⟨s', h, h'⟩

/-- The first token is read, and then the others. -/
theorem Reads.exists_cons (h : Reads (t :: ts) s rest) : ∃ s', Reads [t] s s' ∧ Reads ts s' rest := by
  rw [← List.singleton_append] at h
  exact reads_append_iff.mp h

/-- Reading one token. -/
theorem reads_singleton_iff : Reads [t] s s' ↔ skipGaps s = t.spelling ++ s' ∧ t.WellSpelled ∧ t.Longest s' := by
  constructor
  · intro h
    obtain ⟨s', hskip, spelled, longest, more⟩ := reads_cons_iff.mp h
    cases more
    exact ⟨hskip, spelled, longest⟩
  · rintro ⟨hskip, spelled, longest⟩
    exact reads_cons_iff.mpr ⟨s', hskip, spelled, longest, .nil s'⟩

/-- The blanks in front of the first token do not matter. -/
theorem reads_skipGaps (hne : ts ≠ []) : Reads ts (skipGaps s) rest ↔ Reads ts s rest := by
  cases ts with
  | nil => exact absurd rfl hne
  | cons t ts => rw [reads_cons_iff, reads_cons_iff, skipGaps_skipGaps]

/-- Each token takes at least one character. -/
theorem Reads.length_le (h : Reads ts s rest) : ts.length + rest.length ≤ s.length := by
  induction h with
  | nil s => simp
  | cons blank spelled longest more ih =>
    obtain ⟨c, cs, hspelling, -⟩ := Token.exists_spelling spelled
    simp only [hspelling, List.length_cons, List.length_append]
    omega

/-! ## Token readers

What the readers of the parser take off, said by `Reads`.
-/

/-- The next character that is no blank. -/
def next? (s : List Char) : Option Char :=
  (skipGaps s).head?

/-- The first token starts with the next character. -/
theorem Reads.next? (h : Reads (t :: ts) s rest) : next? s = t.spelling.head? := by
  obtain ⟨s', hskip, spelled, -⟩ := reads_cons_iff.mp h
  obtain ⟨c, cs, hspelling, -⟩ := Token.exists_spelling spelled
  rw [TypeExpr.next?, hskip, hspelling]
  rfl

/-- A word starts with a character that an identifier may start with. -/
theorem Reads.next?_word {n : String} (h : Reads (.word n :: ts) s rest) : ∃ c, TypeExpr.next? s = some c ∧ isNameStart c := by
  obtain ⟨s', -, ⟨c, cs, hn, hc, -⟩, -⟩ := reads_cons_iff.mp h
  exact ⟨c, h.next?.trans (by rw [Token.spelling, hn, List.head?_cons]), hc⟩

/-- Taking a token off a text. -/
theorem stripToken?_eq_some_iff {token : List Char} : stripToken? token s = some s' ↔ s = token ++ s' := by
  refine ⟨stripToken?_eq_some, ?_⟩
  rintro rfl
  induction token with
  | nil => rfl
  | cons c cs ih => simpa [stripToken?] using ih

/-- Taking a token off a text behind blanks. -/
theorem eat?_eq_some_iff {token : List Char} : eat? token s = some s' ↔ skipGaps s = token ++ s' :=
  stripToken?_eq_some_iff

/-- A character is taken when it is the next one. -/
theorem eat?_eq_none {c : Char} (h : next? s ≠ some c) : eat? [c] s = none := by
  rw [Option.eq_none_iff_forall_ne_some]
  intro s' heat
  refine h ?_
  rw [next?, eat?_eq_some_iff.mp heat]
  rfl

/-- Whether a token is spelled in one way and ends by itself. -/
def Token.IsMark : Token → Bool
  | .word _ | .dot => false
  | _ => true

/-- Taking a mark. -/
theorem eat?_mark (ht : t.IsMark) : eat? t.spelling s = some s' ↔ Reads [t] s s' := by
  rw [eat?_eq_some_iff, reads_singleton_iff]
  cases t with
  | word | dot => cases ht
  | _ => simp [Token.WellSpelled, Token.Longest]

/-- What an identifier leaves behind does not go on with it. -/
theorem longest_dropWhile (s : List Char) : ∀ c ∈ (s.dropWhile isNamePart).head?, isNamePart c = false := by
  intro c hc
  have hstop := List.head?_dropWhile_not isNamePart s
  rwa [Option.mem_def.mp hc] at hstop

/-- Taking an identifier. -/
theorem name?_eq_some_iff {n : String} : name? s = some (n, s') ↔ Reads [.word n] s s' := by
  rw [reads_singleton_iff]
  unfold name?
  constructor
  · intro h
    split at h
    · cases h
    · rename_i c cs hskip
      split at h
      · rename_i hc
        cases h
        refine ⟨?_, ⟨c, cs.takeWhile isNamePart, String.toList_ofList, hc, fun d => List.mem_takeWhile_imp⟩, longest_dropWhile cs⟩
        rw [hskip, Token.spelling, String.toList_ofList, List.cons_append, List.takeWhile_append_dropWhile]
      · cases h
  · rintro ⟨hskip, ⟨c, cs, hn, hc, hcs⟩, longest⟩
    have hstop : s'.takeWhile isNamePart = [] ∧ s'.dropWhile isNamePart = s' := by
      cases s' with
      | nil => exact ⟨rfl, rfl⟩
      | cons d ds =>
        have hd : isNamePart d = false := longest d rfl
        simp [hd]
    have hword : String.ofList (c :: cs) = n := by rw [← hn, String.ofList_toList]
    rw [hskip, Token.spelling, hn, List.cons_append]
    dsimp only
    rw [if_pos hc, List.takeWhile_append_of_pos hcs, List.dropWhile_append_of_pos hcs, hstop.1, hstop.2, List.append_nil, hword]

/-- Where the next character starts no identifier, none is taken. -/
theorem name?_eq_none (h : ∀ c ∈ next? s, isNameStart c = false) : name? s = none := by
  unfold next? at h
  unfold name?
  cases hskip : skipGaps s with
  | nil => rfl
  | cons c cs =>
    rw [hskip] at h
    have hc : isNameStart c = false := h c rfl
    simp [hc]

/-- Taking a word that is an identifier. -/
theorem keyword?_eq_some_iff {word : String} : keyword? word s = some s' ↔ Reads [.word word] s s' := by
  rw [← name?_eq_some_iff]
  unfold keyword?
  constructor
  · intro h
    split at h
    · rename_i n rest hname
      rw [Option.ite_none_right_eq_some] at h
      obtain ⟨rfl, h⟩ := h
      cases h
      exact hname
    · cases h
  · intro h
    rw [h]
    exact if_pos rfl

/-- A dot is taken when it is not the first one of three. -/
theorem reads_of_dot? (h : dot? s = some s') : Reads [.dot] s s' := by
  unfold dot? at h
  split at h
  · rename_i rest heat
    split at h
    · cases h
    · rename_i hdots
      cases h
      refine reads_singleton_iff.mpr ⟨eat?_eq_some_iff.mp heat, trivial, fun hdouble => hdots ?_⟩
      obtain ⟨more, hmore⟩ := hdouble
      rw [Option.isSome_iff_exists]
      exact ⟨more, eat?_eq_some_iff.mpr (hmore ▸ skipGaps_cons rfl _)⟩
  · cases h

/-- A dot in front of a word is taken. -/
theorem dot?_eq_some {n : String} (hdot : Reads [.dot] s s') (hword : Reads (.word n :: ts) s' rest) : dot? s = some s' := by
  obtain ⟨hskip, -, -⟩ := reads_singleton_iff.mp hdot
  obtain ⟨behind, hskip', ⟨c, cs, hn, hc, -⟩, -⟩ := reads_cons_iff.mp hword
  have hnone : eat? ['.', '.'] s' = none := by
    rw [Option.eq_none_iff_forall_ne_some]
    intro more heat
    rw [eat?_eq_some_iff, hskip', Token.spelling, hn] at heat
    obtain rfl : c = '.' := (List.cons.inj heat).1
    cases hc
  have hfirst : eat? ['.'] s = some s' := eat?_eq_some_iff.mpr hskip
  unfold dot?
  rw [hfirst]
  dsimp only
  rw [hnone]
  rfl

/-- Without a dot, none is taken. -/
theorem dot?_eq_none (h : next? s ≠ some '.') : dot? s = none := by
  unfold dot?
  rw [eat?_eq_none h]

/-- The first one of three dots is not taken. -/
theorem dot?_eq_none_of_dots (h : Reads [.dots] s s') : dot? s = none := by
  obtain ⟨hskip, -, -⟩ := reads_singleton_iff.mp h
  have hfirst : eat? ['.'] s = some ('.' :: '.' :: s') := eat?_eq_some_iff.mpr hskip
  have hrest : eat? ['.', '.'] ('.' :: '.' :: s') = some s' := eat?_eq_some_iff.mpr (skipGaps_cons rfl _)
  unfold dot?
  rw [hfirst]
  dsimp only
  rw [hrest]
  rfl

end CallResolution.TypeExpr
