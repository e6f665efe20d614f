import CallResolution.Text.Decimal
import CallResolution.Text.Utf8
import CallResolution.Yaml.Cursor

/-!
# Tags, names of nodes and directives

The words that may stand in front of a node or a document. A tag is written in full between
angle brackets, or as a handle with a suffix; a directive tells what a handle stands for.
Readers give the word and the number of characters read.
-/

namespace CallResolution.Yaml

open Text

/-- A directive. -/
inductive Directive where
  /-- The version of the notation. -/
  | version (major minor : Nat)
  /-- What a handle of tags stands for. -/
  | tag (handle expansion : String)
  deriving DecidableEq, Repr, Inhabited

/-- Whether a character may stand in a name. -/
def isNamePart (c : Char) : Bool :=
  c.isAlphanum || c = '_' || c = '-'

/-- Whether a character may stand in a tag. -/
def isTagPart (c : Char) : Bool :=
  isNamePart c || c ∈ [';', '/', '?', ':', '@', '&', '=', '+', '$', ',', '.', '!', '~', '*', '\'', '(', ')', '[', ']', '%']

/-- Reads the name of a node behind its mark. It ends before a blank or one of some
indicators. -/
def readName (cs : List Char) : Except Fault (String × Nat) :=
  let name := cs.takeWhile isNamePart
  let after := cs.drop name.length
  let ends := startsBlank after || after.head?.any (· ∈ ['?', ':', ',', ']', '\x7d', '%', '@', Char.ofNat 0x60])
  if name.isEmpty || !ends then .error .anchor else .ok (String.ofList name, name.length)

/-- The bytes of a tag, in which two hexadecimal digits behind a percent sign are one byte. -/
def tagBytes? : List Char → Option Bytes
  | [] => some []
  | '%' :: a :: b :: r => do
    let n := 16 * (← hexValue? a) + (← hexValue? b)
    return n.toUInt8 :: (← tagBytes? r)
  | '%' :: _ => none
  | c :: r => do return bytesOf (String.singleton c) ++ (← tagBytes? r)

/-- Reads the rest of a tag, `head` being what was read of it. -/
def readTagRest (head cs : List Char) : Except Fault (String × Nat) :=
  let word := cs.takeWhile isTagPart
  match (tagBytes? (head ++ word)).bind text? with
  | some t => .ok (t, word.length)
  | none => .error .tag

/-- Reads a handle: an exclamation mark, possibly with a name and another one. -/
def readHandle : List Char → List Char
  | '!' :: r =>
    let name := r.takeWhile isNamePart
    '!' :: name ++ (if (r.drop name.length).head? = some '!' then ['!'] else [])
  | _ => []

/-- Reads a tag: its handle, which a tag in full does not have, its suffix, and the number of
characters. -/
def readTag (cs : List Char) : Except Fault (String × String × Nat) := do
  let (handle, suffix, n) ← (match cs with
    | '!' :: '<' :: r => do
      let (suffix, n) ← readTagRest [] r
      if n = 0 || (r.drop n).head? ≠ some '>' then throw .tag
      return ("", suffix, n + 3)
    | _ => do
      let handle := readHandle cs
      let r := cs.drop handle.length
      if 1 < handle.length && handle.getLast? = some '!' then
        let (suffix, n) ← readTagRest [] r
        if n = 0 then throw .tag
        return (String.ofList handle, suffix, handle.length + n)
      else
        let (suffix, n) ← readTagRest handle.tail r
        return (if suffix = "" then ("", "!", handle.length + n) else ("!", suffix, handle.length + n)) :
    Except Fault (String × String × Nat))
  if startsBlank (cs.drop n) then return (handle, suffix, n) else throw .tag

/-- Reads a number of a version, of one or two digits. -/
def readVersionPart (cs : List Char) : Except Fault (Nat × List Char) :=
  let digits := cs.takeWhile Char.isDigit
  if digits.isEmpty || 2 < digits.length then .error .directive
  else .ok (decimalValue digits, cs.drop digits.length)

/-- Reads what stands behind the name of a directive. -/
def readDirectiveValue (name : String) (cs : List Char) : Except Fault (Directive × List Char) := do
  let cs := cs.dropWhile isBlank
  if name = "YAML" then
    let (major, r) ← readVersionPart cs
    match r with
    | '.' :: r =>
      let (minor, r) ← readVersionPart r
      return (.version major minor, r)
    | _ => throw .directive
  else if name = "TAG" then
    let handle := readHandle cs
    let r := cs.drop handle.length
    if handle.isEmpty || handle.getLast? ≠ some '!' || !r.head?.any isBlank then throw .directive
    let r := r.dropWhile isBlank
    let (expansion, n) ← readTagRest [] r
    if n = 0 || !startsBlank (r.drop n) then throw .directive
    return (.tag (String.ofList handle) expansion, r.drop n)
  else throw .directive

/-- Reads a directive behind its percent sign, up to the end of its line. -/
def readDirective (cs : List Char) : Except Fault (Directive × Nat) := do
  let name := cs.takeWhile isNamePart
  let r := cs.drop name.length
  if name.isEmpty || !startsBlank r then throw .directive
  let (d, r) ← readDirectiveValue (String.ofList name) r
  let r := r.dropWhile isBlank
  let r := if r.head? = some '#' then r.dropWhile (!isBreak ·) else r
  if r.isEmpty || r.head?.any isBreak then return (d, cs.length - r.length) else throw .directive

/-! ## What handles stand for -/

/-- The handles that need no directive. -/
def plainHandles : List (String × String) :=
  [("!", "!"), ("!!", "tag:yaml.org,2002:")]

/-- The handles that directives give. No handle and no version may be given twice, and only
one version is known. -/
def handlesOf? : (versioned : Bool) → (given : List (String × String)) → List Directive → Option (List (String × String))
  | _, given, [] => some (given ++ plainHandles)
  | versioned, given, .version major minor :: ds =>
    if versioned || major ≠ 1 || minor ≠ 1 then none else handlesOf? true given ds
  | versioned, given, .tag handle expansion :: ds =>
    if (given.lookup handle).isSome then none else handlesOf? versioned (given ++ [(handle, expansion)]) ds

/-- The short form of a tag: those of the notation itself start with two exclamation marks. -/
def shortTag (tag : String) : String :=
  let long := "tag:yaml.org,2002:"
  if tag.startsWith long then "!!" ++ String.ofList (tag.toList.drop long.length) else tag

/-- The short form of a tag with a handle, if something stands for the handle. A lone
exclamation mark is no tag. -/
def fullTag? (handles : List (String × String)) (handle suffix : String) : Except Fault (Option String) :=
  if handle = "" then .ok (if suffix = "!" then none else some (shortTag suffix))
  else match handles.lookup handle with
    | some expansion => .ok (some (shortTag (expansion ++ suffix)))
    | none => .error .tag

end CallResolution.Yaml
