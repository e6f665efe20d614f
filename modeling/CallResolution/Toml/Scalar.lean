import CallResolution.Text.Calendar
import CallResolution.Text.Words

/-!
# Scalars of settings files

The strings, numbers, truth values and times of a settings file. A reader takes characters off
the front of a text; a text that is not well formed is refused without a reason.
-/

namespace CallResolution.Toml

open Text

/-- Takes something off the front of a text. -/
abbrev Reader (α : Type) := List Char → Option (α × List Char)

/-- A single value. Of fractions and times nothing but the kind is kept. -/
inductive Scalar where
  /-- A text. -/
  | text (s : String)
  /-- A whole number. -/
  | integer (n : Int)
  /-- A number with a fraction or an exponent. -/
  | fraction
  /-- A truth value. -/
  | boolean (b : Bool)
  /-- A date, a time, or both. -/
  | time
  deriving DecidableEq, Repr, Inhabited

/-- Drops blanks. -/
def skipBlanks (s : List Char) : List Char :=
  s.dropWhile fun c => c = ' ' || c = '\t'

/-- Takes a line end. -/
def lineEnd? : List Char → Option (List Char)
  | '\n' :: r => some r
  | '\r' :: '\n' :: r => some r
  | _ => none

/-- Whether a character may stand in a string or a comment. The sign for characters that
cannot be read may not. -/
def isAllowed (c : Char) : Bool :=
  c = '\t' || (0x20 ≤ c.toNat && c.toNat ≠ 0x7F && c.toNat ≠ 0xFFFD)

/-- Reads a character by its number in hexadecimal digits. -/
def codePoint (digits : Nat) : Reader Char := fun s => do
  let ds ← (s.take digits).mapM hexValue?
  let n := ds.foldl (fun n d => n * 16 + d) 0
  if ds.length = digits && n.isValidChar then some (Char.ofNat n, s.drop digits) else none

/-- Reads what stands after a backslash. -/
def escape : Reader Char
  | 'b' :: r => some ('\x08', r)
  | 't' :: r => some ('\t', r)
  | 'n' :: r => some ('\n', r)
  | 'f' :: r => some ('\x0c', r)
  | 'r' :: r => some ('\r', r)
  | '"' :: r => some ('"', r)
  | '\\' :: r => some ('\\', r)
  | 'u' :: r => codePoint 4 r
  | 'U' :: r => codePoint 8 r
  | _ => none

/-- Reads the rest of a string in double quotes, where `done` holds in reverse what was read.
-/
def basicRest : Nat → (done : List Char) → Reader String
  | 0, _, _ => none
  | _, _, [] => none
  | fuel + 1, done, c :: r =>
    if c = '"' then some (String.ofList done.reverse, r)
    else if c = '\\' then do
      let (e, r) ← escape r
      basicRest fuel (e :: done) r
    else if isAllowed c then basicRest fuel (c :: done) r
    else none

/-- Reads the rest of a string in single quotes, in which a backslash stands for itself. -/
def literalRest : (done : List Char) → Reader String
  | _, [] => none
  | done, c :: r =>
    if c = '\'' then some (String.ofList done.reverse, r)
    else if isAllowed c then literalRest (c :: done) r
    else none

/-- After a backslash at the end of a line: drops the line end and the white space that
follows. -/
def joinedLine? (s : List Char) : Option (List Char) := do
  let r ← lineEnd? (skipBlanks s)
  some (r.dropWhile fun c => c = ' ' || c = '\t' || c = '\n' || c = '\r')

/-- How many quotes may stand together at the end of a string of several lines, the closing
three among them: up to two more, and a third one behind a backslash. -/
def mostQuotes (quote before : Char) : Nat :=
  if quote = '"' && before = '\\' then 6 else 5

/-- Reads the rest of a string of several lines, where `before` is the last character as it is
written. Line ends stay as they are. -/
def linesRest (quote : Char) : Nat → (before : Char) → (done : List Char) → Reader String
  | 0, _, _, _ => none
  | _, _, _, [] => none
  | fuel + 1, before, done, c :: r =>
    if c = quote then
      let quotes := (c :: r).takeWhile (· = quote)
      if 3 ≤ quotes.length then
        if quotes.length ≤ mostQuotes quote before then
          some (String.ofList (done.reverse ++ quotes.drop 3), (c :: r).drop quotes.length)
        else none
      else linesRest quote fuel c (quotes ++ done) (r.drop (quotes.length - 1))
    else if c = '\\' && quote = '"' then
      match joinedLine? r with
      | some r => linesRest quote fuel '\n' done r
      | none => do
        let (e, after) ← escape r
        linesRest quote fuel (if e = '\\' && r.head? = some '\\' then '\\' else ' ') (e :: done) after
    else if c = '\n' then linesRest quote fuel c (c :: done) r
    else if c = '\r' then do
      let r ← lineEnd? (c :: r)
      linesRest quote fuel '\n' ('\n' :: c :: done) r
    else if isAllowed c then linesRest quote fuel c (c :: done) r
    else none

/-- Reads a string that may stand as a key: on one line, in either kind of quotes. -/
def quoted : Reader String
  | '"' :: r => basicRest (r.length + 1) [] r
  | '\'' :: r => literalRest [] r
  | _ => none

/-- Reads a string. A line end right after three quotes does not count. -/
def string : Reader String
  | '"' :: '"' :: '"' :: r => linesRest '"' (r.length + 1) ' ' [] ((lineEnd? r).getD r)
  | '\'' :: '\'' :: '\'' :: r => linesRest '\'' (r.length + 1) ' ' [] ((lineEnd? r).getD r)
  | s => quoted s

/-- The digits of a numeral in which single underscores may stand between digits. -/
def digits? (isDigit : Char → Bool) : List Char → Option (List Char)
  | [] => none
  | [c] => if isDigit c then some [c] else none
  | c :: '_' :: r => if isDigit c then (digits? isDigit r).map (c :: ·) else none
  | c :: r => if isDigit c then (digits? isDigit r).map (c :: ·) else none

/-- The number that digits write in a base. -/
def numberOf (base : Nat) (ds : List Char) : Nat :=
  ds.foldl (fun n d => n * base + (hexValue? d).getD 0) 0

/-- Decimal digits without a superfluous zero in front. -/
def decimal? (s : List Char) : Option Nat := do
  let ds ← digits? Char.isDigit s
  if ds.length = 1 || ds.head? ≠ some '0' then some (numberOf 10 ds) else none

/-- Whole numbers take 64 bits. -/
def fits (n : Int) : Bool :=
  -0x8000000000000000 ≤ n && n < 0x8000000000000000

/-- Reads a numeral as a whole number. -/
def integer? : List Char → Option Int
  | '0' :: 'x' :: r => (digits? (fun c => (hexValue? c).isSome) r).map fun ds => numberOf 16 ds
  | '0' :: 'o' :: r => (digits? (fun c => '0' ≤ c && c ≤ '7') r).map fun ds => numberOf 8 ds
  | '0' :: 'b' :: r => (digits? (fun c => c = '0' || c = '1') r).map fun ds => numberOf 2 ds
  | '+' :: r => (decimal? r).map fun n => n
  | '-' :: r => (decimal? r).map fun n => -(n : Int)
  | s => (decimal? s).map fun n => n

/-- Drops a sign. -/
def unsigned : List Char → List Char
  | '+' :: r | '-' :: r => r
  | s => s

/-- Splits at the first character of a kind. -/
def splitFirst (p : Char → Bool) (s : List Char) : List Char × Option (List Char) :=
  match s.dropWhile (fun c => !p c) with
  | [] => (s, none)
  | _ :: r => (s.takeWhile (fun c => !p c), some r)

/-- Whether a numeral has a fraction or an exponent, and is not too large. -/
def isFraction (s : List Char) : Bool :=
  let s := unsigned s
  if s = "inf".toList || s = "nan".toList then true
  else
    let (mantissa, exponent) := splitFirst (fun c => c = 'e' || c = 'E') s
    let (whole, part) := splitFirst (· = '.') mantissa
    (decimal? whole).isSome && (part.isSome || exponent.isSome)
      && part.all (fun p => (digits? Char.isDigit p).isSome)
      && exponent.all (fun e => (digits? Char.isDigit (unsigned e)).isSome)
      && isFloat (s.filter (· ≠ '_'))

/-- Whether a text is a date. -/
def isDate (s : List Char) : Bool :=
  (date? true s).any List.isEmpty

/-- Whether a text is a time of day of which the hour has two digits where it starts with a
zero. -/
def isClock (s : List Char) : Bool :=
  (clock? true s).any List.isEmpty
    && (match s with
      | '0' :: ':' :: _ => false
      | _ => true)

/-- Whether a text is a time of day, possibly with a distance from universal time. -/
def isZonedClock (s : List Char) : Bool :=
  (clock? true s).any fun r => r.isEmpty || r = ['z'] || isZone r

/-- Whether a text is a date, a time, or both. -/
def isTime (s : List Char) : Bool :=
  isClock s
    || (match date? true s with
      | some [] => true
      | some (c :: r) => (c = 'T' || c = 't' || c = ' ') && isZonedClock r
      | none => false)

/-- The value that a word writes. -/
def wordValue? (w : List Char) : Option Scalar :=
  if w = "true".toList then some (.boolean true)
  else if w = "false".toList then some (.boolean false)
  else match integer? w with
    | some n => if fits n then some (.integer n) else none
    | none => if isFraction w then some .fraction else if isTime w then some .time else none

/-- Whether a character may stand in a value without quotes. -/
def isWordPart (c : Char) : Bool :=
  c.isAlphanum || c = '+' || c = '-' || c = '_' || c = '.' || c = ':'

/-- Reads a value without quotes. A date may be followed by a blank and a time of day. -/
def word : Reader Scalar := fun s =>
  let w := s.takeWhile isWordPart
  let rest := s.drop w.length
  match rest with
  | ' ' :: c :: r =>
    if isDate w && c.isDigit then
      let clock := (c :: r).takeWhile isWordPart
      (wordValue? (w ++ ' ' :: clock)).map (·, (c :: r).drop clock.length)
    else (wordValue? w).map (·, rest)
  | _ => (wordValue? w).map (·, rest)

/-- Reads a scalar. -/
def scalar : Reader Scalar
  | s@('"' :: _) | s@('\'' :: _) => (string s).map fun (t, r) => (.text t, r)
  | s => word s

end CallResolution.Toml
