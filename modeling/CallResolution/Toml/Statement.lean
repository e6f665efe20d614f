import CallResolution.Toml.Scalar

/-!
# Statements of settings files

A settings file is a list of statements: a header opens a table or adds a table to a list of
them, and an assignment gives a key a value. Keys have several parts. Values may be lists and
tables written on one line.
-/

namespace CallResolution.Toml

/-- A key in parts. -/
abbrev Key := List String

/-- A value as it is written. -/
inductive Value where
  /-- A single value. -/
  | scalar (s : Scalar)
  /-- A list. -/
  | list (items : List Value)
  /-- A table on one line. -/
  | inline (entries : List (Key × Value))
  deriving Repr, Inhabited

/-- Whether a value is a list. -/
def Value.isList : Value → Bool
  | .list _ => true
  | _ => false

/-- A statement. -/
inductive Statement where
  /-- Opens a table. -/
  | table (key : Key)
  /-- Adds a table to a list of tables and opens it. -/
  | element (key : Key)
  /-- Gives a key of the open table a value. -/
  | assign (key : Key) (value : Value)
  deriving Repr, Inhabited

/-- Whether a character may stand in a key without quotes. -/
def isKeyPart (c : Char) : Bool :=
  c.isAlphanum || c = '_' || c = '-'

/-- Reads one part of a key. -/
def keyPart : Reader String := fun s =>
  match s.takeWhile isKeyPart with
  | [] => quoted s
  | w => some (String.ofList w, s.drop w.length)

/-- Reads a key; blanks around the dots do not count. -/
def key : Nat → Reader Key
  | 0, _ => none
  | fuel + 1, s => do
    let (part, r) ← keyPart (skipBlanks s)
    match skipBlanks r with
    | '.' :: r => do
      let (parts, r) ← key fuel r
      some (part :: parts, r)
    | r => some ([part], r)

/-- Drops a comment up to the end of its line. -/
def comment? : List Char → Option (List Char)
  | '#' :: r =>
    let text := r.takeWhile fun c => c ≠ '\n'
    let text := if text.getLast? = some '\r' then text.dropLast else text
    if text.all isAllowed then some (r.drop text.length) else none
  | s => some s

/-- Drops blanks, line ends and comments. -/
def skipLines : Nat → List Char → Option (List Char)
  | 0, s => some s
  | fuel + 1, s => do
    let r ← comment? (skipBlanks s)
    match lineEnd? r with
    | some r => skipLines fuel r
    | none => some r

mutual

/-- Reads a value. -/
def value : Nat → Reader Value
  | 0, _ => none
  | fuel + 1, s =>
    match skipBlanks s with
    | '[' :: r => (listItems fuel r).map fun (vs, r) => (.list vs, r)
    | '\x7b' :: r => (inlineFirst fuel r).map fun (es, r) => (.inline es, r)
    | s => (scalar s).map fun (v, r) => (.scalar v, r)

/-- Reads the items of a list up to its end. -/
def listItems : Nat → Reader (List Value)
  | 0, _ => none
  | fuel + 1, s => do
    match ← skipLines s.length s with
    | ']' :: r => some ([], r)
    | s => do
      let (v, r) ← value fuel s
      match ← skipLines r.length r with
      | ',' :: r => do
        let (vs, r) ← listItems fuel r
        some (v :: vs, r)
      | ']' :: r => some ([v], r)
      | _ => none

/-- Reads the entries of a table on one line, which may have none. -/
def inlineFirst : Nat → Reader (List (Key × Value))
  | 0, _ => none
  | fuel + 1, s =>
    match skipBlanks s with
    | '\x7d' :: r => some ([], r)
    | s => inlineEntries fuel s

/-- Reads the remaining entries of a table on one line. -/
def inlineEntries : Nat → Reader (List (Key × Value))
  | 0, _ => none
  | fuel + 1, s => do
    let (k, r) ← key (s.length + 1) s
    match r with
    | '=' :: r => do
      let (v, r) ← value fuel r
      match skipBlanks r with
      | ',' :: r => do
        let (es, r) ← inlineEntries fuel r
        some ((k, v) :: es, r)
      | '\x7d' :: r => some ([(k, v)], r)
      | _ => none
    | _ => none

end

/-- Reads a statement. -/
def statement : Reader Statement
  | '[' :: '[' :: r => do
    match ← key (r.length + 1) r with
    | (k, ']' :: ']' :: r) => some (.element k, r)
    | _ => none
  | '[' :: r => do
    match ← key (r.length + 1) r with
    | (k, ']' :: r) => some (.table k, r)
    | _ => none
  | s => do
    match ← key (s.length + 1) s with
    | (k, '=' :: r) => do
      let (v, r) ← value (r.length + 1) r
      some (.assign k v, r)
    | _ => none

/-- Reads statements, each on a line of its own. -/
def statementsFrom : Nat → List Char → Option (List Statement)
  | 0, _ => none
  | fuel + 1, s => do
    match ← skipLines s.length s with
    | [] => some []
    | s => do
      let (st, r) ← statement s
      let r ← comment? (skipBlanks r)
      match lineEnd? r with
      | some r => (statementsFrom fuel r).map (st :: ·)
      | none => if r.isEmpty then some [st] else none

/-- The statements of a text. -/
def statements? (src : String) : Option (List Statement) :=
  statementsFrom (src.length + 1) src.toList

end CallResolution.Toml
