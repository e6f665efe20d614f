import CallResolution.Text.CaseFold

/-!
# Misspelled names

How likely one identifier is a typing mistake for another: a score in tenths from the edit
distance of the case-folded names, and the thresholds from which a score counts.
-/

namespace CallResolution.Text

/-- The score of two names that are equal up to case. -/
def maxCloseness : Nat := 10

/-- The next row of the edit-distance matrix: `row` holds the distances for the characters of
`b` so far, `left` the entry just written and `corner` the one above it. -/
def distanceRow (c : Char) : List Char → List Nat → (left corner : Nat) → List Nat
  | b :: bs, above :: row, left, corner =>
    let cost := if c = b then corner else min (min above left) corner + 1
    cost :: distanceRow c bs row cost above
  | _, _, _, _ => []

/-- The distances of the characters read so far to every beginning of `b`. -/
def distanceRows (b : List Char) : List Char → List Nat → List Nat
  | [], row => row
  | c :: cs, row =>
    let first := row.headD 0
    distanceRows b cs ((first + 1) :: distanceRow c b row.tail (first + 1) first)

/-- The edit distance: the least number of insertions, deletions and replacements of single
characters that turn `a` into `b`. -/
def editDistance (a b : List Char) : Nat :=
  (distanceRows b a (List.range (b.length + 1))).getLastD 0

/-- The share of the longer name that survives the edit distance, in tenths. A blank name is
close to nothing, and names equal up to case get the full score. -/
def closeness (name candidate : String) : Nat :=
  if name.isEmpty || candidate.isEmpty then 0
  else
    let a := foldCase name
    let b := foldCase candidate
    if a = b then maxCloseness
    else
      let longest := max a.length b.length
      let dist := editDistance a b
      if longest ≤ dist then 0 else (longest - dist) * maxCloseness / longest

/-- Whether a score makes the name a plausible typing mistake. Scores below 3 never count,
single letters never match, three-letter names need 5 or a call with arguments, longer names
need 6, or 5 with arguments. -/
def isMisspelling (name : String) (score args : Int) : Bool :=
  if score < 3 then false
  else match name.length with
    | 0 | 1 => false
    | 2 => true
    | 3 => score ≥ 5 || args > 0
    | _ => score ≥ 6 || (score ≥ 5 && args > 0)

end CallResolution.Text
