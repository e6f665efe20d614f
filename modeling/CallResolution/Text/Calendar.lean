import CallResolution.Text.Decimal

/-!
# Dates and times of day

Dates with a year of four digits, times of day with fractions of a second, and distances from
universal time. A day has to be one of its month; a distance may be a full day, and its
minutes a full hour.
-/

namespace CallResolution.Text

/-- Reads a number of two digits, or of one where `isFixed` does not ask for two. -/
def shortNumber? (isFixed : Bool) : List Char → Option (Nat × List Char)
  | x :: y :: r =>
    if !x.isDigit then none
    else if y.isDigit then some (decimalValue [x, y], r)
    else if isFixed then none else some (decimalValue [x], y :: r)
  | [x] => if x.isDigit && !isFixed then some (decimalValue [x], []) else none
  | [] => none

/-- Reads one character. -/
def expect? (c : Char) : List Char → Option (List Char)
  | x :: r => if x = c then some r else none
  | [] => none

/-- The number of days of a month. -/
def daysIn (year month : Nat) : Nat :=
  match month with
  | 4 | 6 | 9 | 11 => 30
  | 2 => if year % 4 = 0 && (year % 100 ≠ 0 || year % 400 = 0) then 29 else 28
  | _ => 31

/-- Reads a date with a year of four digits. -/
def date? (isFixed : Bool) (cs : List Char) : Option (List Char) := do
  let year := cs.take 4
  if year.length ≠ 4 || !year.all Char.isDigit then none
  let r ← expect? '-' (cs.drop 4)
  let (month, r) ← shortNumber? isFixed r
  let r ← expect? '-' r
  let (day, r) ← shortNumber? isFixed r
  if 1 ≤ month && month ≤ 12 && 1 ≤ day && day ≤ daysIn (decimalValue year) month then some r else none

/-- Reads a fraction of a second, which may be missing. -/
def dropFraction : List Char → List Char
  | p :: q :: r => if (p = '.' || p = ',') && q.isDigit then r.dropWhile Char.isDigit else p :: q :: r
  | r => r

/-- Reads a time of day with an optional fraction of a second. The hour may have one digit in
any case. -/
def clock? (isFixed : Bool) (cs : List Char) : Option (List Char) := do
  let (hour, r) ← shortNumber? false cs
  let (minute, r) ← shortNumber? isFixed (← expect? ':' r)
  let (second, r) ← shortNumber? isFixed (← expect? ':' r)
  if hour < 24 && minute < 60 && second < 60 then some (dropFraction r) else none

/-- Whether a text is a distance from universal time: a letter, or hours and minutes with a
sign. -/
def isZone : List Char → Bool
  | ['Z'] => true
  | [s, a, b, ':', c, d] =>
    (s = '+' || s = '-') && [a, b, c, d].all Char.isDigit && decimalValue [a, b] ≤ 24 && decimalValue [c, d] ≤ 60
  | _ => false

end CallResolution.Text
