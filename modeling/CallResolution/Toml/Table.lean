import CallResolution.Toml.Statement

/-!
# Tables of settings files

The statements of a settings file, put together to one table. A key is given a value once,
with two exceptions: a table that was made only because something inside it was named may be
opened, and a key that was given a list may be given anything else. To name something inside a
table once more ends the first exception for the table.
-/

namespace CallResolution.Toml

/-- What a key leads to. -/
inductive Node where
  /-- A single value. -/
  | scalar (s : Scalar)
  /-- A list of values. -/
  | list
  /-- A table. -/
  | table (entries : List (String × Node))
  /-- A list of tables, the last one first. -/
  | tables (last : List (String × Node)) (earlier : List (List (String × Node)))
  deriving Repr, Inhabited

/-- A table by its keys, in the order of their first use. -/
abbrev Table := List (String × Node)

/-- Replaces what a key leads to, or adds the key. -/
def Table.set (k : String) (n : Node) : Table → Table
  | [] => [(k, n)]
  | (k', n') :: t => if k = k' then (k, n) :: t else (k', n') :: Table.set k n t

/-- Changes the table that a node is, or the last one of its list. -/
def Node.inside? (f : Table → Option Table) : Node → Option Node
  | .table t => (f t).map .table
  | .tables t ts => (f t).map (.tables · ts)
  | _ => none

/-- Changes the table at a path. -/
def Table.at? (f : Table → Option Table) : Key → Table → Option Table
  | [], t => f t
  | k :: ks, t => do
    let n ← t.lookup k
    some (t.set k (← n.inside? (Table.at? f ks)))

/-- What a path leads to, where a list of tables stands for its last one. -/
def Table.find? : Key → Table → Option Node
  | [], t => some (.table t)
  | [k], t => t.lookup k
  | k :: ks, t =>
    match t.lookup k with
    | some (.table u) => Table.find? ks u
    | some (.tables u _) => Table.find? ks u
    | _ => none

/-- A settings file as far as it was read. -/
structure Settings where
  /-- The keys in the order in which they are written. -/
  keys : List Key := []
  /-- The table. -/
  root : Table := []
  /-- The path of the table that keys belong to. -/
  context : Key := []
  /-- The tables that were made only because something inside them was named. -/
  passed : List Key := []
  /-- The keys that were given a list last. -/
  lists : List Key := []
  deriving Repr, Inhabited

/-- A step of putting a settings file together. -/
abbrev SettingsM := StateT Settings Option

namespace Settings

/-- Notes a key that is written. -/
def note (k : Key) : SettingsM Unit :=
  modify fun s => { s with keys := s.keys ++ [k] }

/-- Says whether a key was given a list. A blank key stands for the table it belongs to. -/
def setIsList (k : String) (isList : Bool) : SettingsM Unit :=
  modify fun s =>
    let path := if k ≠ "" then s.context ++ [k] else if s.context.isEmpty then [""] else s.context
    let others := s.lists.filter (· ≠ path)
    { s with lists := if isList then path :: others else others }

/-- Gives a key of the open table a value. -/
def setValue (k : String) (n : Node) : SettingsM Unit := do
  let s ← get
  let path := s.context ++ [k]
  let passed := s.passed.filter (· ≠ path)
  match (← s.root.find? s.context) with
  | .scalar _ | .list => failure
  | .table t | .tables t _ =>
    if (t.lookup k).isNone || path ∈ s.lists then
      let passed := if (t.lookup k).isNone then s.passed else passed
      set { s with root := ← s.root.at? (fun t => some (t.set k n)) s.context, passed }
    else if path ∈ s.passed then set { s with passed }
    else failure

/-- Makes the tables on the way to a table that are missing. -/
def passThrough : (done : Key) → Key → SettingsM Unit
  | _, [] => return
  | done, k :: ks => do
    let s ← get
    let path := done ++ [k]
    match s.root.find? path with
    | some (.scalar _) | some .list => failure
    | some _ => passThrough path ks
    | none =>
      set { s with root := ← s.root.at? (fun t => some (t.set k (.table []))) done, passed := path :: s.passed }
      passThrough path ks

/-- Adds a table to the list of tables at a key. -/
def addElement (k : String) : SettingsM Unit := do
  let s ← get
  let add (t : Table) : Option Table :=
    match t.lookup k with
    | none => some (t.set k (.tables [] []))
    | some (.tables u us) => some (t.set k (.tables [] (u :: us)))
    | some _ => none
  set { s with root := ← s.root.at? add s.context }

/-- Opens the table at a path, or adds one to the list of tables there. -/
def enter (path : Key) (isElement : Bool) : SettingsM Unit := do
  let last ← path.getLast?
  passThrough [] path.dropLast
  modify ({ · with context := path.dropLast })
  if isElement then addElement last else setValue last (.table [])
  modify ({ · with context := path })

/-- Opens a table because something inside it is named. -/
def enterPassing (path : Key) : SettingsM Unit := do
  modify fun s => { s with passed := path :: s.passed.filter (· ≠ path) }
  enter path false

/-- Opens the tables on the way to the last part of a key. -/
def enterParts : Key → SettingsM Unit
  | [] => return
  | k :: ks => do
    enterPassing ((← get).context ++ [k])
    enterParts ks

mutual

/-- What a value is as a node. What stands in a table on one line is put into the table of the
file at once. -/
def value (isItem : Bool) (k : String) : Value → SettingsM Node
  | .scalar s => return .scalar s
  | .list vs => do
    setIsList k true
    items k vs
    return .list
  | .inline es => do
    let outer := (← get).context
    let path := outer ++ [k]
    modify fun s => { s with passed := path :: s.passed.filter (· ≠ path) }
    enter path isItem
    let t ← entries path [] es
    modify ({ · with context := outer })
    return .table t

/-- Reads the items of a list. -/
def items (k : String) : List Value → SettingsM Unit
  | [] => return
  | v :: vs => do
    let _ ← value true k v
    items k vs

/-- Reads the entries of the table on one line at a path, and adds them to a table by the last
parts of their keys. -/
def entries (path : Key) : Table → List (Key × Value) → SettingsM Table
  | t, [] => return t
  | t, (k, v) :: es => do
    let last ← k.getLast?
    enterParts k.dropLast
    note ((← get).context ++ [last])
    let n ← value false last v
    setValue last n
    setIsList last v.isList
    modify ({ · with context := path })
    entries path (t.set last n) es

end

/-- Adds a statement. -/
def add : Statement → SettingsM Unit
  | .table k => do
    enter k false
    setIsList "" false
    note k
  | .element k => do
    enter k true
    setIsList "" false
    note k
  | .assign k v => do
    let outer := (← get).context
    let last ← k.getLast?
    enterParts k.dropLast
    note ((← get).context ++ [last])
    let n ← value false last v
    setValue last n
    setIsList last v.isList
    modify ({ · with context := outer })

/-- Reads a settings file. A mark at the start that tells the order of bytes does not count.
-/
def ofText? (src : String) : Option Settings := do
  let src := if src.startsWith "\uFEFF" then String.ofList (src.toList.drop 1) else src
  let (_, s) ← ((← statements? src).forM add).run {}
  return s

/-- Whether a key of a table at the top has a value. -/
def defines (s : Settings) (table key : String) : Bool :=
  match s.root.lookup table with
  | some (.table t) => (t.lookup key).isSome
  | _ => false

end Settings

/-- A part of a key as it is written. -/
def shownPart (k : String) : String :=
  if k ≠ "" && k.all isKeyPart then k
  else
    let char (c : Char) : String :=
      if c = '"' then "\\\"" else if c = '\\' then "\\\\"
      else if c = '\x08' then "\\b" else if c = '\t' then "\\t" else if c = '\n' then "\\n"
      else if c = '\x0c' then "\\f" else if c = '\r' then "\\r"
      else if c.toNat < 0x20 || c.toNat = 0x7F then "\\u" ++ Text.padZeros 4 (String.ofList (Nat.toDigits 16 c.toNat))
      else String.singleton c
    "\"" ++ String.join (k.toList.map char) ++ "\""

/-- A key as it is written. -/
def shownKey (k : Key) : String :=
  ".".intercalate (k.map shownPart)

end CallResolution.Toml
