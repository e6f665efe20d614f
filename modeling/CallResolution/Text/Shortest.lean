/-!
# Shortest decimals

Quotients are kept with 53 significant bits, and written with the fewest decimal digits that
single out the kept number among its neighbours. The search for the digits goes over grids of
growing fineness and tests, on each, the two points next to the number.
-/

namespace CallResolution.Text

/-- A number with 53 significant bits: a significand times a power of two. -/
structure Binary where
  /-- The significand; zero, or at least `2 ^ 52` and below `2 ^ 53`. -/
  significand : Nat
  /-- The exponent of two. -/
  exponent : Int
  deriving DecidableEq, Repr, Inhabited

/-- A quotient rounded to a whole number; a half goes to the even neighbour. -/
def roundedQuotient (num den : Nat) : Nat :=
  let q := num / den
  let r := num % den
  if den < 2 * r || (den = 2 * r && q % 2 = 1) then q + 1 else q

/-- A fraction times a power of two, as a fraction. -/
def scaleByTwo (num den : Nat) (e : Int) : Nat × Nat :=
  if 0 ≤ e then (num * Nat.pow 2 e.toNat, den) else (num, den * Nat.pow 2 (-e).toNat)

/-- The number with 53 significant bits that is nearest to a quotient. -/
def Binary.ofQuotient (num den : Nat) : Binary :=
  if num = 0 || den = 0 then ⟨0, 0⟩
  else
    let guess : Int := (Nat.log2 num : Int) - Nat.log2 den - 52
    let whole (e : Int) : Nat := let (n, d) := scaleByTwo num den (-e); n / d
    let e := if whole guess < 0x10000000000000 then guess - 1 else guess
    let (n, d) := scaleByTwo num den (-e)
    let m := roundedQuotient n d
    if m = 0x20000000000000 then ⟨0x10000000000000, e + 1⟩ else ⟨m, e⟩

/-- The numbers that are nearer to a kept number than to its neighbours, over one denominator:
the lower end, the number itself, the upper end and the denominator. Below a power of two the
neighbour is nearer. -/
structure Cell where
  /-- The lower end. -/
  low : Nat
  /-- The number. -/
  value : Nat
  /-- The upper end. -/
  high : Nat
  /-- The denominator. -/
  den : Nat
  /-- Whether the ends belong to the cell. -/
  closed : Bool
  deriving Repr

/-- The cell of a kept number. -/
def Binary.cell (b : Binary) : Cell :=
  let (unit, den) := scaleByTwo 1 4 b.exponent
  let value := 4 * b.significand * unit
  { low := value - (if b.significand = 0x10000000000000 then 1 else 2) * unit
    value
    high := value + 2 * unit
    den
    closed := b.significand % 2 = 0 }

/-- The cell over a denominator in which points are multiples of `10 ^ g`, and the distance of
points. -/
def Cell.onGrid (c : Cell) (g : Int) : Cell × Nat :=
  if 0 ≤ g then (c, Nat.pow 10 g.toNat * c.den)
  else
    let k := Nat.pow 10 (-g).toNat
    ({ c with low := c.low * k, value := c.value * k, high := c.high * k }, c.den)

/-- The point of the grid `10 ^ g` in a cell that is nearest to its number, as a multiple of
the distance. -/
def Cell.gridPoint? (c : Cell) (g : Int) : Option Nat :=
  let (c, step) := c.onGrid g
  let inside (k : Nat) : Bool :=
    let p := k * step
    (c.low < p || (c.closed && c.low = p)) && (p < c.high || (c.closed && p = c.high))
  let lower := c.value / step
  let upper := lower + 1
  let lowerNear := 2 * (c.value - lower * step) < step || (2 * (c.value - lower * step) = step && lower % 2 = 0)
  match inside lower, inside upper with
  | true, true => some (if lowerNear then lower else upper)
  | true, false => some lower
  | false, true => some upper
  | false, false => none

/-- The power of ten of the first digit of a positive fraction, searched downwards from a
bound. -/
def leadingPower (num den : Nat) : Nat → Int → Int
  | 0, k => k
  | n + 1, k =>
    let reaches := if 0 ≤ k then den * Nat.pow 10 k.toNat ≤ num else den ≤ num * Nat.pow 10 (-k).toNat
    if reaches then k else leadingPower num den n (k - 1)

/-- The points of finer and finer grids, the first one that lies in the cell. -/
def Cell.search (c : Cell) : Nat → Int → Nat × Int
  | 0, g => (c.value / c.den, g)
  | n + 1, g =>
    match c.gridPoint? g with
    | some p => (p, g)
    | none => c.search n (g - 1)

/-- Drops the zeros at the end of a list of digits. -/
def dropTrailingZeros (ds : List Char) : List Char :=
  (ds.reverse.dropWhile (· = '0')).reverse

/-- The digits that single out a kept number, and the power of ten of the first one. -/
def Binary.digits (b : Binary) : List Char × Int :=
  if b.significand = 0 then (['0'], 0)
  else
    let c := b.cell
    let top := leadingPower c.value c.den 700 350
    let (p, g) := c.search 18 top
    let ds := Nat.toDigits 10 p
    (dropTrailingZeros ds, g + ds.length - 1)

/-- A quotient in the fewest digits. Exponents are used below `10 ^ -4` and from `10 ^ 6` on,
with a sign and two digits at least. -/
def quotientText (num den : Nat) : String :=
  let (ds, k) := (Binary.ofQuotient num den).digits
  if k < -4 || 6 ≤ k then
    let exp := toString k.natAbs
    String.ofList (ds.take 1) ++ (if 1 < ds.length then "." ++ String.ofList (ds.drop 1) else "")
      ++ (if k < 0 then "e-" else "e+") ++ (if exp.length < 2 then "0" ++ exp else exp)
  else if k < 0 then "0." ++ String.ofList (List.replicate (k.natAbs - 1) '0' ++ ds)
  else
    let n := k.toNat + 1
    let whole := ds.take n ++ List.replicate (n - ds.length) '0'
    let rest := ds.drop n
    String.ofList whole ++ (if rest.isEmpty then "" else "." ++ String.ofList rest)

end CallResolution.Text
