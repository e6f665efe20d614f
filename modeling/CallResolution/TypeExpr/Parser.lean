import CallResolution.Text.Quoted
import CallResolution.TypeExpr.Basic

/-!
# Reading type expressions

A descent over the characters of the text. Blanks may stand between tokens, an identifier is
as long as possible, three dots are one token, and arguments nest at most 32 deep. A reader
returns what it read and the rest of the text; a failure keeps the rest at which it arose,
which gives the offset in the message. Offsets have 32 bits, so a longer text is refused.
-/

namespace CallResolution.TypeExpr

open Text

/-- Why a text is not a type expression. -/
inductive Complaint where
  /-- The text has more bytes than offsets can count. -/
  | tooLong
  /-- The arguments nest too deep. -/
  | tooDeep
  /-- There is no name where a type has to start. -/
  | noTypeName
  /-- A dot is not followed by an identifier. -/
  | noNameAfterDot
  /-- An argument is followed by neither a comma nor the closing bracket. -/
  | noCommaOrClose
  /-- An opening square bracket is not followed by the closing one. -/
  | noClosingBracket
  /-- The declaration of a type parameter does not start with a name. -/
  | noParamName
  /-- The type of a local variable is not followed by a name. -/
  | noVariableName
  /-- Text is left over. -/
  | leftOver
  deriving DecidableEq, Repr, Inhabited

/-- A failure, with the text that was left when it arose. -/
structure Failure where
  /-- What is wrong. -/
  complaint : Complaint
  /-- The text from the offending place on. -/
  rest : List Char
  deriving DecidableEq, Repr, Inhabited

/-- What a complaint says, given the text from the offending place on. -/
def Complaint.words (rest : List Char) : Complaint → String
  | .tooLong => "type expression too long: out of range"
  | .tooDeep => "type nested too deeply"
  | .noTypeName => "expected a type name"
  | .noNameAfterDot => "expected an identifier after '.'"
  | .noCommaOrClose => "expected ',' or '>'"
  | .noClosingBracket => "expected ']'"
  | .noParamName => "expected a type parameter name"
  | .noVariableName => "expected a variable name"
  | .leftOver => "unexpected " ++ quote (String.ofList rest)

/-- The message of a failure to read `src`. A text that is too long is not repeated. -/
def Failure.message (src : String) (f : Failure) : String :=
  if f.complaint = .tooLong then f.complaint.words f.rest
  else
    let offset := src.utf8ByteSize - (String.ofList f.rest).utf8ByteSize
    s!"{quote src} at offset {offset}: {f.complaint.words f.rest}"

/-- A reader takes a beginning off a text. -/
abbrev Reader (α : Type) := List Char → Except Failure (α × List Char)

/-- The blanks that may stand between tokens. -/
def isGap (c : Char) : Bool :=
  c = ' ' || c = '\t' || c = '\n' || c = '\r'

/-- Drops leading blanks. -/
def skipGaps (s : List Char) : List Char :=
  s.dropWhile isGap

/-- The characters an identifier may start with. -/
def isNameStart (c : Char) : Bool :=
  c = '_' || c = '$' || ('a' ≤ c && c ≤ 'z') || ('A' ≤ c && c ≤ 'Z')

/-- The characters an identifier may go on with. -/
def isNamePart (c : Char) : Bool :=
  isNameStart c || ('0' ≤ c && c ≤ '9')

/-- Takes a token off the front of a text. -/
def stripToken? : (token s : List Char) → Option (List Char)
  | [], s => some s
  | _ :: _, [] => none
  | t :: ts, c :: cs => if t = c then stripToken? ts cs else none

/-- Takes a token off the text behind leading blanks. -/
def eat? (token : List Char) (s : List Char) : Option (List Char) :=
  stripToken? token (skipGaps s)

/-- The longest identifier behind leading blanks. -/
def name? (s : List Char) : Option (String × List Char) :=
  match skipGaps s with
  | [] => none
  | c :: cs =>
    if isNameStart c then
      some (String.ofList (c :: cs.takeWhile isNamePart), cs.dropWhile isNamePart)
    else none

/-- Takes a word off the text when it is a whole identifier. -/
def keyword? (word : String) (s : List Char) : Option (List Char) :=
  match name? s with
  | some (n, rest) => if n = word then some rest else none
  | none => none

/-- Fails at the first character that is not a blank. -/
def failAt {α : Type} (c : Complaint) (s : List Char) : Except Failure α :=
  .error ⟨c, skipGaps s⟩

/-- A dot that does not start the three dots. -/
def dot? (s : List Char) : Option (List Char) :=
  match eat? ['.'] s with
  | some rest => if (eat? ['.', '.'] rest).isSome then none else some rest
  | none => none

/-- Goes on with a dotted name. -/
def dottedFrom : Nat → String → Reader String
  | 0, name, s => .ok (name, s)
  | fuel + 1, name, s =>
    match dot? s with
    | none => .ok (name, s)
    | some rest =>
      match name? rest with
      | none => failAt .noNameAfterDot rest
      | some (part, rest) => dottedFrom fuel (name ++ "." ++ part) rest

/-- Reads the arguments up to the closing bracket, of which `done` holds the first ones in
reverse. -/
def argsFrom (arg : Reader TypeArgExpr) : Nat → List TypeArgExpr → Reader (List TypeArgExpr)
  | 0, _, s => failAt .noCommaOrClose s
  | fuel + 1, done, s => do
    let (a, s) ← arg s
    match eat? [','] s with
    | some s => argsFrom arg fuel (a :: done) s
    | none =>
      match eat? ['>'] s with
      | some s => .ok ((a :: done).reverse, s)
      | none => failAt .noCommaOrClose s

/-- Reads the bracketed arguments, if there are any. -/
def argList (arg : Reader TypeArgExpr) : Reader (Option (List TypeArgExpr)) := fun s =>
  match eat? ['<'] s with
  | none => .ok (none, s)
  | some s =>
    match eat? ['>'] s with
    | some s => .ok (some [], s)
    | none => do
      let (as, s) ← argsFrom arg (s.length + 1) [] s
      .ok (some as, s)

/-- Counts the pairs of square brackets. -/
def dimsFrom : Nat → Nat → Reader Nat
  | 0, n, s => .ok (n, s)
  | fuel + 1, n, s =>
    match eat? ['['] s with
    | none => .ok (n, s)
    | some s =>
      match eat? [']'] s with
      | none => failAt .noClosingBracket s
      | some s => dimsFrom fuel (n + 1) s

/-- Reads one type argument, with `type` for the type in it. -/
def typeArg (type : Reader TypeExpr) : Reader TypeArgExpr := fun s =>
  match eat? ['?'] s with
  | none => do
    let (t, s) ← type (skipGaps s)
    .ok (.exact t, s)
  | some s =>
    match keyword? "extends" s with
    | some s => do
      let (t, s) ← type s
      .ok (.extends t, s)
    | none =>
      match keyword? "super" s with
      | some s => do
        let (t, s) ← type s
        .ok (.super t, s)
      | none => .ok (.unbounded, s)

/-- Reads a type whose arguments may nest one less than `levels` deep. -/
def typeWithin : Nat → Reader TypeExpr
  | 0, s => .error ⟨.tooDeep, s⟩
  | levels + 1, s =>
    match name? s with
    | none => failAt .noTypeName s
    | some (first, s) => do
      let (name, s) ← dottedFrom s.length first s
      let (args, s) ← argList (typeArg (typeWithin levels)) s
      let (dims, s) ← dimsFrom s.length 0 s
      .ok (.mk name args dims false, s)

/-- How many levels of types a type may hold, itself included. -/
def maxLevels : Nat := 33

/-- Reads a type. -/
def type : Reader TypeExpr :=
  typeWithin maxLevels

/-- Accepts a text of which only blanks are left. -/
def finish {α : Type} (a : α) (s : List Char) : Except Failure α :=
  if (skipGaps s).isEmpty then .ok a else failAt .leftOver s

/-- The number of bytes in the longest text that is read. -/
def maxBytes : Nat := 4294967295

/-- The characters of a text that is not too long. -/
def chars (src : String) : Except Failure (List Char) :=
  if src.utf8ByteSize ≤ maxBytes then .ok src.toList else .error ⟨.tooLong, src.toList⟩

/-- Reads a whole text as a type, possibly with the three dots of variable arity. -/
def parse (src : String) : Except Failure TypeExpr := do
  let (t, s) ← type (← chars src)
  match eat? ['.', '.', '.'] s with
  | some s => finish t.variadic s
  | none => finish t s

/-- Reads the bounds of a type parameter, of which `done` holds the first ones in reverse. -/
def boundsFrom : Nat → List TypeExpr → Reader (List TypeExpr)
  | 0, done, s => .ok (done.reverse, s)
  | fuel + 1, done, s => do
    let (t, s) ← type s
    match eat? ['&'] s with
    | some s => boundsFrom fuel (t :: done) s
    | none => .ok ((t :: done).reverse, s)

/-- Reads a whole text as the declaration of a type parameter. -/
def parseParam (src : String) : Except Failure TypeParamExpr := do
  let text ← chars src
  match name? text with
  | none => failAt .noParamName text
  | some (name, s) =>
    match keyword? "extends" s with
    | none => finish ⟨name, []⟩ s
    | some s => do
      let (bounds, s) ← boundsFrom (s.length + 1) [] s
      finish ⟨name, bounds⟩ s

/-- Reads a whole text as the declaration of a local variable. -/
def parseLocal (src : String) : Except Failure LocalExpr := do
  let (t, s) ← type (← chars src)
  match name? s with
  | none => failAt .noVariableName s
  | some (name, s) => finish ⟨t, name⟩ s

end CallResolution.TypeExpr
