import CallResolution.Diagnostic.Basic

/-!
# Collections of diagnostics

A bag collects diagnostics in the order they are reported, up to a limit. It can be sorted by
place, freed of repeated reports of one place, filtered by severity and merged with another
bag.

In front of a bag there may be a reporter that drops what it has already let through, or one
that counts what passes.
-/

namespace CallResolution

open Source

/-- Diagnostics in the order they were reported. -/
structure Bag where
  /-- How many diagnostics are accepted. -/
  limit : Nat
  /-- The diagnostics. -/
  items : List Diagnostic := []
  deriving Repr, Inhabited

namespace Diagnostic

/-- Whether one diagnostic is listed no later than another: by file, start, end, falling
severity and code. -/
def listedBefore (a b : Diagnostic) : Bool :=
  if a.primary.file ≠ b.primary.file then a.primary.file < b.primary.file
  else if a.primary.start ≠ b.primary.start then a.primary.start < b.primary.start
  else if a.primary.stop ≠ b.primary.stop then a.primary.stop < b.primary.stop
  else if a.severity ≠ b.severity then b.severity.rank < a.severity.rank
  else a.code.number ≤ b.code.number

/-- What makes two reports repeats of each other: the identifier of the code and the place, as
a text. -/
def repeatKey (d : Diagnostic) : String :=
  s!"{d.code.id}:{d.primary.text}"

end Diagnostic

namespace Bag

/-- Adds a diagnostic unless the bag is full, and tells whether it was added. -/
def add (b : Bag) (d : Diagnostic) : Bool × Bag :=
  if b.limit ≤ b.items.length then (false, b)
  else (true, { b with items := b.items ++ [d] })

/-- Adds a diagnostic unless the bag is full. -/
def report (b : Bag) (d : Diagnostic) : Bag :=
  (b.add d).2

/-- Whether some diagnostic is an error. -/
def hasErrors (b : Bag) : Bool :=
  b.items.any (·.severity.isError)

/-- Appends the diagnostics of another bag; the limit grows when needed. -/
def merge (b other : Bag) : Bag :=
  let items := b.items ++ other.items
  { items, limit := max b.limit items.length }

/-- Adds a diagnostic in any case; a full bag grows by one. -/
def force (b : Bag) (d : Diagnostic) : Bag :=
  match b.add d with
  | (true, b) => b
  | (false, b) => b.merge { limit := 1, items := [d] }

/-- Orders the diagnostics by place; reports that compare equal keep their order. -/
def sort (b : Bag) : Bag :=
  { b with items := b.items.mergeSort Diagnostic.listedBefore }

/-- Keeps the first report of every key that `seen` does not hold. -/
def dropRepeats (seen : List String) : List Diagnostic → List Diagnostic
  | [] => []
  | d :: ds =>
    if d.repeatKey ∈ seen then dropRepeats seen ds
    else d :: dropRepeats (d.repeatKey :: seen) ds

/-- Keeps the first report of every code identifier and place. -/
def dedup (b : Bag) : Bag :=
  { b with items := dropRepeats [] b.items }

/-- The diagnostics of a severity or worse. -/
def filter (b : Bag) (s : Severity) : Bag :=
  { b with items := b.items.filter (s.rank ≤ ·.severity.rank) }

/-- How often each code occurs, in order of first occurrence. -/
def countByCode (b : Bag) : List (Code × Nat) :=
  let codes := b.items.map (·.code)
  codes.eraseDups.map fun c => (c, codes.count c)

end Bag

/-! ## Reporters -/

/-- Drops a diagnostic that was reported before with the same code, severity, place and
message. A deferred call is looked at again when its class is complete, and the second look
must not repeat what the first one said. -/
structure OnceFilter where
  /-- What was let through. -/
  seen : List Diagnostic := []
  /-- How many repeats were dropped. -/
  suppressed : Nat := 0
  deriving Repr, Inhabited

namespace OnceFilter

/-- Whether two diagnostics say the same; notes and fixes do not count. -/
def sameReport (a b : Diagnostic) : Bool :=
  a.code = b.code && a.severity = b.severity && a.primary = b.primary && a.message = b.message

/-- Passes a diagnostic on, unless it is a repeat. -/
def pass (r : OnceFilter) (d : Diagnostic) : Option Diagnostic × OnceFilter :=
  if r.seen.any (sameReport d) then (none, { r with suppressed := r.suppressed + 1 })
  else (some d, { r with seen := d :: r.seen })

/-- Reports into a bag, unless the diagnostic is a repeat. -/
def report (r : OnceFilter) (b : Bag) (d : Diagnostic) : OnceFilter × Bag :=
  match r.pass d with
  | (some d, r) => (r, b.report d)
  | (none, r) => (r, b)

end OnceFilter

/-- Counts the diagnostics of the three named severities. -/
structure SeverityCount where
  /-- The diagnostics seen. -/
  seen : List Severity := []
  deriving Repr, Inhabited

namespace SeverityCount

/-- Counts one diagnostic. -/
def note (c : SeverityCount) (d : Diagnostic) : SeverityCount :=
  ⟨d.severity :: c.seen⟩

/-- How many diagnostics of a severity were counted; only the named severities are counted. -/
def count (c : SeverityCount) (s : Severity) : Nat :=
  if s.rank ≤ Severity.error.rank then c.seen.count s else 0

end SeverityCount

end CallResolution
