import CallResolution.Text.Calendar

/-!
# What scalars denote

A plain text may be a truth value, a number, a date or nothing at all. Texts in quotes and
block texts are always texts. What a scalar is gets a name, its tag, which may also be written
in front of it.
-/

namespace CallResolution.Yaml

open Text

/-- What a plain text denotes. -/
inductive ScalarKind where
  /-- Nothing. -/
  | null
  /-- A truth value. -/
  | bool (b : Bool)
  /-- A whole number. -/
  | int
  /-- A number with a point or exponent. -/
  | float
  /-- A date, possibly with a time. -/
  | timestamp
  /-- A text. -/
  | str
  deriving DecidableEq, Repr, Inhabited

/-- The tag of texts. -/
def strTag : String := "!!str"

/-- The tag of nothing. -/
def nullTag : String := "!!null"

/-- The tag of the key whose value is merged into the mapping. -/
def mergeTag : String := "!!merge"

/-- The tag of texts that are written as bytes in base 64. -/
def binaryTag : String := "!!binary"

/-- The tag of lists. -/
def seqTag : String := "!!seq"

/-- The tag of mappings. -/
def mapTag : String := "!!map"

/-- The tag of a kind. -/
def ScalarKind.tag : ScalarKind → String
  | .null => nullTag
  | .bool _ => "!!bool"
  | .int => "!!int"
  | .float => "!!float"
  | .timestamp => "!!timestamp"
  | .str => strTag

/-! ## Whole numbers -/

/-- The value of an unsigned whole number. A leading zero, possibly with a letter, tells the
base. -/
def natValue? : List Char → Option Nat
  | [] => none
  | '0' :: x :: y :: r =>
    if x = 'b' || x = 'B' then digitsValue? 2 0 (y :: r)
    else if x = 'o' || x = 'O' then digitsValue? 8 0 (y :: r)
    else if x = 'x' || x = 'X' then digitsValue? 16 0 (y :: r)
    else digitsValue? 8 0 (x :: y :: r)
  | '0' :: r => digitsValue? 8 0 r
  | cs => digitsValue? 10 0 cs

/-- Whether a number with a sign fits 64 bits. -/
def fitsSigned (isNegative : Bool) (n : Nat) : Bool :=
  if isNegative then n ≤ 0x8000000000000000 else n < 0x8000000000000000

/-- Whether digits in a base, with or without a sign, are a number that fits 64 bits. -/
def isSignedIn (base : Nat) (cs : List Char) : Bool :=
  let (isNegative, _, digits) := splitSign cs
  !digits.isEmpty && (digitsValue? base 0 digits).any (fitsSigned isNegative)

/-- Whether a text is a whole number that fits 64 bits with a sign. A binary or octal number
may have its sign behind the letter that tells the base. -/
def isSignedInt (cs : List Char) : Bool :=
  let (isNegative, _, digits) := splitSign cs
  (natValue? digits).any (fitsSigned isNegative)
    || (match cs with
      | '0' :: 'b' :: r => isSignedIn 2 r
      | '0' :: 'o' :: r => isSignedIn 8 r
      | _ => false)

/-- Whether a text is a whole number that fits 64 bits, with a sign or without. -/
def isInt (cs : List Char) : Bool :=
  isSignedInt cs || (natValue? cs).any (· < 0x10000000000000000)

/-! ## Other numbers -/

/-- Whether every underscore stands between two digits, `afterDigit` telling whether a digit
stands before the text. -/
def underscoresSeparate : (afterDigit : Bool) → List Char → Bool
  | _, [] => true
  | afterDigit, '_' :: r => afterDigit && r.head?.any Char.isDigit && underscoresSeparate false r
  | _, c :: r => underscoresSeparate c.isDigit r

/-- Whether a text that starts with a point is a number. -/
def isPointFloat (cs : List Char) : Bool :=
  underscoresSeparate false cs && isFloat (cs.filter (· ≠ '_'))

/-! ## Dates -/

/-- Whether a text is a date, possibly with a time of day: behind blanks, or behind the letter
T with a time zone. -/
def isTimestamp (cs : List Char) : Bool :=
  match date? false cs with
  | none => false
  | some [] => true
  | some (x :: r) =>
    if x = ' ' then (clock? false (r.dropWhile (· = ' '))).any List.isEmpty
    else (x = 'T' || x = 't') && (clock? false r).any isZone

/-! ## Plain texts -/

/-- The texts that denote a fixed value. -/
def fixedKind? : String → Option ScalarKind
  | "" | "~" | "null" | "Null" | "NULL" => some .null
  | "true" | "True" | "TRUE" => some (.bool true)
  | "false" | "False" | "FALSE" => some (.bool false)
  | ".nan" | ".NaN" | ".NAN" | ".inf" | ".Inf" | ".INF" | "+.inf" | "+.Inf" | "+.INF"
  | "-.inf" | "-.Inf" | "-.INF" => some .float
  | _ => none

/-- What a plain text denotes, where dates count or not. -/
def plainKindWith (dates : Bool) (text : String) : ScalarKind :=
  match fixedKind? text with
  | some k => k
  | none =>
    let cs := text.toList
    match cs with
    | [] => .null
    | x :: _ =>
      if x = '.' then if isPointFloat cs then .float else .str
      else if x.isDigit || x = '+' || x = '-' then
        let digits := cs.filter (· ≠ '_')
        if dates && isTimestamp cs then .timestamp
        else if isInt digits then .int
        else if isFloat digits then .float
        else .str
      else .str

/-- What a plain text denotes. -/
def plainKind (text : String) : ScalarKind :=
  plainKindWith true text

/-- The tag of a scalar that has none written in front of it. -/
def impliedTag (text : String) (isPlain : Bool) : String :=
  if !isPlain then strTag else if text = "<<" then mergeTag else (plainKind text).tag

/-! ## Values -/

/-- What a scalar gives. -/
inductive ScalarValue where
  /-- Nothing. -/
  | null
  /-- A truth value. -/
  | truth (b : Bool)
  /-- A text. -/
  | text (s : String)
  /-- A number or date, of which only the spelling counts. -/
  | other
  deriving DecidableEq, Repr, Inhabited

/-- What a kind of plain text gives. -/
def ScalarKind.value (text : String) : ScalarKind → ScalarValue
  | .null => .null
  | .bool b => .truth b
  | .str => .text text
  | _ => .other

/-- The tags of which a plain text tells whether they fit it. -/
def checkedTags : List String :=
  ["!!bool", "!!int", "!!float", nullTag, "!!timestamp"]

/-- What a scalar with a tag gives; a text that the tag does not fit gives nothing to go on
with. A whole number that fits 64 bits with a sign may be tagged as one with a point, and
under an unknown tag everything is a text. -/
def taggedValue? (tag text : String) : Option ScalarValue :=
  if tag ∉ checkedTags then some (.text text)
  else
    let k := plainKindWith (tag = "!!timestamp") text
    if k.tag = tag || (k = .int && tag = "!!float" && isSignedInt (text.toList.filter (· ≠ '_'))) then some (k.value text)
    else none

end CallResolution.Yaml
