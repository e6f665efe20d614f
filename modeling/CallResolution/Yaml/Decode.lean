import CallResolution.Text.Quoted
import CallResolution.Text.Utf8
import CallResolution.Yaml.Node

/-!
# Reading values off nodes

Values of a known type are read off the nodes of a document. What does not fit is noted and
reading goes on, so that one pass finds every misfit. Entries with unknown keys are passed
over, and items of a list that are nothing are left out.

An entry whose key is the sign of merging adds the entries of other mappings. They come last,
and each counts only when the mapping and those merged before it have no entry of its name.
-/

namespace CallResolution.Yaml

open Text

/-- Something that does not fit. -/
inductive Misfit where
  /-- A node is of another kind than wanted. -/
  | kind (node : Node) (wanted : String)
  /-- A key occurs twice. -/
  | repeated (key : Node) (first : Node)
  deriving Repr, Inhabited

/-- The first ten bytes of a text in messages, or fewer with three dots when there are more.
-/
def shortened (s : String) : String :=
  let b := bytesOf s
  if 10 < b.length then textOf (b.take 7) ++ "..." else s

/-- What is said of a misfit. -/
def Misfit.message : Misfit → String
  | .kind n wanted =>
    let tick := String.singleton (Char.ofNat 0x60)
    let value := if n.tag = seqTag || n.tag = mapTag then "" else " " ++ tick ++ shortened n.text ++ tick
    s!"line {n.mark.line + 1}: cannot unmarshal {n.tag}{value} into {wanted}"
  | .repeated key first =>
    s!"line {key.mark.line + 1}: mapping key {quote key.text} already defined at line {first.mark.line + 1}"

/-- Why reading is broken off. -/
inductive Halt (ε : Type) where
  /-- A node is malformed in itself. -/
  | malformed (f : Fault)
  /-- A reason of the reader. -/
  | refused (e : ε)
  deriving Repr

/-- A step of reading values off nodes, which may be broken off for a reason `ε`. -/
abbrev DecodeM (ε : Type) := StateT (List Misfit) (Except (Halt ε))

/-! ## Texts that are written as bytes -/

/-- The value of a digit in base 64. -/
def base64Value? (c : Char) : Option Nat :=
  if 'A' ≤ c && c ≤ 'Z' then some (c.toNat - 'A'.toNat)
  else if 'a' ≤ c && c ≤ 'z' then some (c.toNat - 'a'.toNat + 26)
  else if c.isDigit then some (c.toNat - '0'.toNat + 52)
  else if c = '+' then some 62
  else if c = '/' then some 63
  else none

/-- The bytes that digits in base 64 write, four digits for three bytes. -/
def base64Bytes? : List Char → Option Bytes
  | [] => some []
  | [a, b, '=', '='] => do
    let n := 64 * (← base64Value? a) + (← base64Value? b)
    return [(n / 16).toUInt8]
  | [a, b, c, '='] => do
    let n := 4096 * (← base64Value? a) + 64 * (← base64Value? b) + (← base64Value? c)
    return [(n / 1024).toUInt8, (n / 4).toUInt8]
  | a :: b :: c :: d :: r => do
    let n := 262144 * (← base64Value? a) + 4096 * (← base64Value? b) + 64 * (← base64Value? c) + (← base64Value? d)
    return (n / 65536).toUInt8 :: (n / 256).toUInt8 :: n.toUInt8 :: (← base64Bytes? r)
  | _ => none

namespace Decode

variable {ε : Type}

/-- Breaks reading off at a malformed node. -/
def malformed {α : Type} (f : Fault) : DecodeM ε α :=
  throw (.malformed f)

/-- Notes something that does not fit. -/
def misfit (m : Misfit) : DecodeM ε Unit :=
  modify (· ++ [m])

/-- The node itself, where only its name is written. -/
def resolved : Node → DecodeM ε Node
  | .reference _ _ (some n) => return n
  | .reference _ _ none => malformed .anchor
  | n => return n

/-- What a scalar gives. -/
def scalarValue (tag text : String) : DecodeM ε ScalarValue :=
  if tag = binaryTag then
    match base64Bytes? (text.toList.filter fun c => c ≠ '\n' && c ≠ '\r') with
    | some b => return .text (textOf b)
    | none => malformed .tag
  else match taggedValue? tag text with
    | some v => return v
    | none => malformed .tag

/-- Whether a node is nothing. -/
def isNothing (n : Node) : DecodeM ε Bool := do
  if n.isNull then
    let _ ← scalarValue n.tag n.text
    return true
  else return false

/-- The repeated keys among entries. -/
def repeatedKeys : List (Node × Node) → List Misfit
  | [] => []
  | (k, _) :: rest =>
    ((rest.filter fun e => k.sameKey e.1).map fun e => .repeated e.1 k) ++ repeatedKeys rest

/-- Notes that a node does not fit; a mapping with repeated keys is reported for these alone.
-/
def refuse (n : Node) (wanted : String) : DecodeM ε Unit := do
  match n with
  | .scalar _ tag s =>
    let _ ← scalarValue tag s
    misfit (.kind n wanted)
  | .map _ _ entries =>
    match repeatedKeys entries with
    | [] => misfit (.kind n wanted)
    | ms => modify (· ++ ms)
  | _ => misfit (.kind n wanted)

/-- Reads a text, which may be spelled as a number or truth value. Nothing gives none, and
neither does what does not fit. -/
def text? (n : Node) : DecodeM ε (Option String) := do
  match n with
  | .scalar _ tag s =>
    match ← scalarValue tag s with
    | .null => return none
    | .text t => return some t
    | _ => return some s
  | _ =>
    refuse n "string"
    return none

/-- Reads a text; nothing is the empty one. -/
def text (n : Node) : DecodeM ε String := do
  return (← text? n).getD ""

/-- The words that count as truth values where one is wanted. -/
def wordTruth? : String → Option Bool
  | "y" | "Y" | "yes" | "Yes" | "YES" | "on" | "On" | "ON" => some true
  | "n" | "N" | "no" | "No" | "NO" | "off" | "Off" | "OFF" => some false
  | _ => none

/-- The truth value that a scalar counts as; nothing counts as false. -/
def truthOf? : ScalarValue → Option Bool
  | .null => some false
  | .truth b => some b
  | .text s => wordTruth? s
  | .other => none

/-- Reads a truth value. -/
def truth (n : Node) : DecodeM ε Bool := do
  match n with
  | .scalar _ tag s =>
    match truthOf? (← scalarValue tag s) with
    | some b => return b
    | none =>
      refuse n "bool"
      return false
  | _ =>
    refuse n "bool"
    return false

/-- Reads a value that may be left out. -/
def optional {α : Type} (read : Node → DecodeM ε α) (n : Node) : DecodeM ε (Option α) := do
  if ← isNothing n then return none else return some (← read n)

/-- Reads the items of a list. -/
def items {α : Type} (read : Node → DecodeM ε α) : List Node → DecodeM ε (List α)
  | [] => return []
  | n :: ns => do
    let n ← resolved n
    if ← isNothing n then items read ns
    else
      let a ← read n
      return a :: (← items read ns)

/-- Reads a list. -/
def list {α : Type} (wanted : String) (read : Node → DecodeM ε α) (n : Node) : DecodeM ε (List α) := do
  match n with
  | .seq _ _ ns => items read ns
  | _ =>
    if ← isNothing n then return []
    else
      refuse n wanted
      return []

/-- Reads a list of texts. -/
def texts (n : Node) : DecodeM ε (List String) :=
  list "[]string" text n

/-! ## Mappings -/

/-- The key of an entry. A key that is nothing has no name, unless `nullKey` takes its
spelling for a name. -/
def key? (nullKey : Bool) (k : Node) : DecodeM ε (Option String) := do
  if nullKey && k.isNull && k.text = "null" then return some "null"
  else text? (← resolved k)

/-- Whether a key is a text in itself, and not by its spelling only. -/
def isTextKey (nullKey : Bool) (k : Node) : Bool :=
  (nullKey && k.isNull && k.text = "null")
    || (match k with
      | .scalar _ tag _ => tag ∉ checkedTags
      | .reference _ _ (some (.scalar _ tag _)) => tag ∉ checkedTags
      | _ => false)

/-- A record that is being filled. -/
structure Filling (α : Type) where
  /-- The record so far. -/
  value : α
  /-- The names that count no more, where mappings are merged. -/
  taken : Option (List String) := none
  /-- What is to be merged. -/
  merge : Option Node := none
  deriving Repr

/-- Reads entries into a record. -/
def fields {α : Type} (nullKey : Bool) (set_ : String → Node → α → DecodeM ε α) :
    Filling α → List (Node × Node) → DecodeM ε (Filling α)
  | f, [] => return f
  | f, (k, v) :: rest => do
    if k.isMerge then fields nullKey set_ { f with merge := some v } rest
    else match ← key? nullKey k with
      | none => fields nullKey set_ f rest
      | some name =>
        if f.taken.any (name ∈ ·) then fields nullKey set_ f rest
        else
          let value ← set_ name (← resolved v) f.value
          fields nullKey set_ { f with value, taken := f.taken.map (name :: ·) } rest

/-- The names of the entries of a mapping. -/
def names (nullKey : Bool) : List (Node × Node) → DecodeM ε (List String)
  | [] => return []
  | (k, _) :: rest => do
    let later ← names nullKey rest
    if isTextKey nullKey k then return (← key? nullKey k).toList ++ later else return later

/-- The mapping that a node to be merged is. -/
def mergedMapping : Node → DecodeM ε Node
  | .map m t es => return .map m t es
  | .reference _ _ (some (.map m t es)) => return .map m t es
  | _ => malformed .merge

mutual

/-- Reads a mapping into a record, down to a depth of merged mappings. -/
def fill {α : Type} (set_ : String → Node → α → DecodeM ε α) :
    Nat → (nullKey : Bool) → Filling α → Node → DecodeM ε (Filling α)
  | 0, _, f, _ => return f
  | depth + 1, nullKey, f, n => do
    match n with
    | .map _ _ entries =>
      match repeatedKeys entries with
      | [] =>
        let f ← fields nullKey set_ { f with merge := none } entries
        match f.merge with
        | none => return f
        | some m =>
          let taken ← (match f.taken with
            | some names => pure names
            | none => names nullKey entries : DecodeM ε (List String))
          mergeFrom set_ depth { f with taken := some taken, merge := none } m
      | ms =>
        modify (· ++ ms)
        return f
    | _ => return f

/-- Merges a mapping, or the mappings of a list, into a record. -/
def mergeFrom {α : Type} (set_ : String → Node → α → DecodeM ε α) :
    Nat → Filling α → Node → DecodeM ε (Filling α)
  | 0, f, _ => return f
  | depth + 1, f, m => do
    match m with
    | .seq _ _ ms => mergeAll set_ depth f ms
    | m => fill set_ depth false f (← mergedMapping m)

/-- Merges several mappings into a record, one after the other. -/
def mergeAll {α : Type} (set_ : String → Node → α → DecodeM ε α) :
    Nat → Filling α → List Node → DecodeM ε (Filling α)
  | 0, f, _ => return f
  | _ + 1, f, [] => return f
  | depth + 1, f, m :: ms => do
    let f ← fill set_ depth false f (← mergedMapping m)
    mergeAll set_ depth f ms

end

/-- How deep mappings can be merged: deeper than any document goes. -/
def mergeDepth : Nat := 100000

/-- Reads a mapping into a record. -/
def record {α : Type} (wanted : String) (nullKey : Bool) (set_ : String → Node → α → DecodeM ε α) (blank : α)
    (n : Node) : DecodeM ε α := do
  match n with
  | .map _ _ _ => return (← fill set_ mergeDepth nullKey { value := blank } n).value
  | _ =>
    if ← isNothing n then return blank
    else
      refuse n wanted
      return blank

end Decode

end CallResolution.Yaml
