/-!
# Decimal numerals

Numerals with a point and an exponent, and which of them are too large for a 64-bit
floating-point number.
-/

namespace CallResolution.Text

/-- The value of decimal digits. -/
def decimalValue (cs : List Char) : Nat :=
  cs.foldl (fun n c => n * 10 + (c.toNat - '0'.toNat)) 0

/-- The value of a hexadecimal digit. -/
def hexValue? (c : Char) : Option Nat :=
  if c.isDigit then some (c.toNat - '0'.toNat)
  else if 'a' ≤ c && c ≤ 'f' then some (c.toNat - 'a'.toNat + 10)
  else if 'A' ≤ c && c ≤ 'F' then some (c.toNat - 'A'.toNat + 10)
  else none

/-- The value of digits in a base, `n` being the value of those before them. -/
def digitsValue? (base : Nat) : Nat → List Char → Option Nat
  | n, [] => some n
  | n, c :: cs => do
    let d ← hexValue? c
    if d < base then digitsValue? base (n * base + d) cs else none

/-- Splits a sign off: whether it is a minus, whether there was one, and the rest. -/
def splitSign : List Char → Bool × Bool × List Char
  | '-' :: r => (true, true, r)
  | '+' :: r => (false, true, r)
  | r => (false, false, r)

/-- The parts of a number with a point or exponent. -/
structure DecimalParts where
  /-- The digits before the point. -/
  whole : List Char
  /-- The digits after the point. -/
  fraction : List Char
  /-- The exponent. -/
  exponent : Int
  deriving Repr, Inhabited

/-- Reads an exponent, which may be missing. -/
def exponent? : List Char → Option Int
  | [] => some 0
  | e :: r =>
    if e = 'e' || e = 'E' then
      let (isNegative, _, digits) := splitSign r
      if digits.isEmpty || !digits.all Char.isDigit then none
      else some (if isNegative then -(decimalValue digits : Int) else decimalValue digits)
    else none

/-- Reads an unsigned number: digits on at least one side of a point that may be missing, and
an exponent. -/
def decimalParts? (cs : List Char) : Option DecimalParts := do
  let whole := cs.takeWhile Char.isDigit
  match cs.dropWhile Char.isDigit with
  | '.' :: r =>
    let fraction := r.takeWhile Char.isDigit
    if whole.isEmpty && fraction.isEmpty then none
    else some ⟨whole, fraction, ← exponent? (r.dropWhile Char.isDigit)⟩
  | r => if whole.isEmpty then none else some ⟨whole, [], ← exponent? r⟩

/-- Whether a number is too large for a 64-bit floating-point number, that is, nearer to twice
the largest power of two than to the largest number. -/
def DecimalParts.overflows (p : DecimalParts) : Bool :=
  let n := decimalValue (p.whole ++ p.fraction)
  let scale := p.exponent - p.fraction.length
  let size : Int := (toString n).length + scale
  if n = 0 || size < 300 then false
  else if 400 < size then true
  else
    let limit := Nat.pow 2 1024 - Nat.pow 2 970
    if 0 ≤ scale then limit ≤ n * Nat.pow 10 scale.toNat else limit * Nat.pow 10 (-scale).toNat ≤ n

/-- Whether a text is a number with or without a sign, point and exponent that a 64-bit
floating-point number can hold. -/
def isFloat (cs : List Char) : Bool :=
  (decimalParts? (splitSign cs).2.2).any (!·.overflows)

end CallResolution.Text
