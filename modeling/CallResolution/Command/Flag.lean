import CallResolution.Text.Quoted

/-!
# Flags

A flag has a name and a value: a text, a truth value or a whole number. Flags stand anywhere
between the other arguments, with their value behind an equals sign or in the next argument; a
truth value may be left out.
-/

namespace CallResolution.Command

open Text

/-- The value of a flag. -/
inductive FlagValue where
  /-- A text. -/
  | text (s : String)
  /-- A truth value. -/
  | truth (b : Bool)
  /-- A whole number. -/
  | number (n : Int)
  deriving DecidableEq, Repr, Inhabited

/-- Whether a value is a truth value. -/
def FlagValue.isTruth : FlagValue → Bool
  | .truth _ => true
  | _ => false

/-- A flag. -/
structure Flag where
  /-- The name. -/
  name : String
  /-- The value when the flag is not given; its kind is the kind of the flag. -/
  default : FlagValue
  /-- The letter that stands for the name. -/
  letter? : Option Char := none
  /-- What the flag is for. -/
  about : String := ""
  deriving DecidableEq, Repr, Inhabited

/-- The flag as it is shown in messages. -/
def Flag.shown (f : Flag) : String :=
  match f.letter? with
  | some c => s!"-{c}, --{f.name}"
  | none => s!"--{f.name}"

/-- The word for the values of a flag; a flag with a truth value needs none. -/
def FlagValue.word : FlagValue → String
  | .text _ => "string"
  | .truth _ => ""
  | .number _ => "int"

/-- A default that is worth telling. -/
def FlagValue.defaultNote : FlagValue → String
  | .text "" | .truth false | .number 0 => ""
  | .text s => s!" (default {quote s})"
  | .truth true => " (default true)"
  | .number n => s!" (default {n})"

/-! ## Values -/

/-- Why a text is no whole number of 64 bits. -/
inductive NumberFault where
  /-- It is not written like a number. -/
  | form
  /-- It is too large. -/
  | range
  deriving DecidableEq, Repr, Inhabited

/-- What a fault says. -/
def NumberFault.words : NumberFault → String
  | .form => "invalid syntax"
  | .range => "value out of range"

/-- The value of a digit, letters being digits from ten on. -/
def digitValue? (c : Char) : Option Nat :=
  if c.isDigit then some (c.toNat - 48)
  else if c.isAlpha then some (c.toLower.toNat - 87)
  else none

/-- Adds a digit to a number of at most 64 bits. Underscores add nothing. -/
def pushDigit (base n : Nat) (c : Char) : Except NumberFault Nat :=
  if c = '_' then .ok n
  else match digitValue? c with
    | none => .error .form
    | some d =>
      if base ≤ d then .error .form
      else if 0x10000000000000000 ≤ n * base + d then .error .range
      else .ok (n * base + d)

/-- The base that the start of a number tells, and the digits after it. A leading zero alone
tells base eight. -/
def splitBase : List Char → Nat × List Char
  | '0' :: c :: d :: r =>
    if c.toLower = 'b' then (2, d :: r)
    else if c.toLower = 'o' then (8, d :: r)
    else if c.toLower = 'x' then (16, d :: r)
    else (8, c :: d :: r)
  | '0' :: r => (8, r)
  | cs => (10, cs)

/-- Whether every underscore stands between digits, where `after` tells that a digit or a base
stands in front. -/
def underscoresFit (after : Bool) : List Char → Bool
  | [] => true
  | ['_'] => false
  | '_' :: c :: r => after && c ≠ '_' && underscoresFit true r
  | _ :: r => underscoresFit true r

/-- Reads a number without a sign. -/
def readDigits (cs : List Char) : Except NumberFault Nat :=
  if cs.isEmpty then .error .form
  else do
    let (base, ds) := splitBase cs
    let n ← ds.foldlM (pushDigit base) 0
    if underscoresFit (base ≠ 10) ds then return n else throw .form

/-- Reads a whole number of 64 bits. -/
def readNumber (s : String) : Except NumberFault Int :=
  match s.toList with
  | '-' :: cs => do
    let n ← readDigits cs
    if 0x8000000000000000 < n then throw .range else return -n
  | '+' :: cs => do
    let n ← readDigits cs
    if 0x8000000000000000 ≤ n then throw .range else return n
  | cs => do
    let n ← readDigits cs
    if 0x8000000000000000 ≤ n then throw .range else return n

/-- Reads a truth value. -/
def readTruth? : String → Option Bool
  | "1" | "t" | "T" | "true" | "TRUE" | "True" => some true
  | "0" | "f" | "F" | "false" | "FALSE" | "False" => some false
  | _ => none

/-! ## Faults -/

/-- What is wrong with a flag on a command line. -/
inductive FlagFault where
  /-- An argument looks like a flag without a name. -/
  | form (arg : String)
  /-- There is no such flag. -/
  | unknown (name : String)
  /-- There is no flag with a letter of a group of letters. -/
  | unknownLetter (c : Char) (group : String)
  /-- The value is missing. -/
  | noValue (name : String)
  /-- The value is of the wrong kind. -/
  | invalid (value : String) (flag : Flag) (reason : String)
  deriving DecidableEq, Repr, Inhabited

/-- A character between single quotes. -/
def quoteSingle (c : Char) : String :=
  let inner := if c = '\'' then ['\\', '\''] else if c = '"' then ['"'] else quoteChar c
  "'" ++ String.ofList inner ++ "'"

/-- What a fault says. -/
def FlagFault.message : FlagFault → String
  | .form arg => "bad flag syntax: " ++ arg
  | .unknown name => "unknown flag: --" ++ name
  | .unknownLetter c group => s!"unknown shorthand flag: {quoteSingle c} in -{group}"
  | .noValue name => "flag needs an argument: --" ++ name
  | .invalid value flag reason => s!"invalid argument {quote value} for {quote flag.shown} flag: {reason}"

/-- Reads the value of a flag. -/
def Flag.read (f : Flag) (s : String) : Except FlagFault FlagValue :=
  match f.default with
  | .text _ => .ok (.text s)
  | .truth _ =>
    match readTruth? s with
    | some b => .ok (.truth b)
    | none => .error (.invalid s f s!"strconv.ParseBool: parsing {quote s}: invalid syntax")
  | .number _ =>
    match readNumber s with
    | .ok n => .ok (.number n)
    | .error e => .error (.invalid s f s!"strconv.ParseInt: parsing {quote s}: {e.words}")

/-! ## Command lines -/

/-- A command line taken apart. -/
structure Line where
  /-- The flags there are. -/
  flags : List Flag
  /-- The flags that were given, the last one first. -/
  given : List (String × FlagValue) := []
  /-- The other arguments. -/
  args : List String := []
  deriving Repr, Inhabited

namespace Line

/-- The flag with a name. -/
def flag? (l : Line) (name : String) : Option Flag :=
  l.flags.find? (·.name = name)

/-- Whether a flag was given. -/
def isGiven (l : Line) (name : String) : Bool :=
  (l.given.lookup name).isSome

/-- The value of a flag. -/
def value? (l : Line) (name : String) : Option FlagValue :=
  l.given.lookup name <|> (l.flag? name).map (·.default)

/-- The value of a flag with a text. -/
def text (l : Line) (name : String) : String :=
  match l.value? name with
  | some (.text s) => s
  | _ => ""

/-- The value of a flag with a truth value. -/
def truth (l : Line) (name : String) : Bool :=
  l.value? name = some (.truth true)

/-- The value of a flag with a number. -/
def number (l : Line) (name : String) : Int :=
  match l.value? name with
  | some (.number n) => n
  | _ => 0

/-- Sets a flag. -/
def set (l : Line) (f : Flag) (s : String) : Except FlagFault Line := do
  return { l with given := (f.name, ← f.read s) :: l.given }

/-- Takes a flag by name, with the argument after it. The result tells whether that argument
belongs to the flag. -/
def takeNamed (l : Line) (arg : String) (next? : Option String) : Except FlagFault (Line × Bool) :=
  let body := (arg.drop 2).toString
  let parts := body.splitOn "="
  let name := parts.headD ""
  if name = "" || name.startsWith "-" then .error (.form arg)
  else match l.flag? name with
    | none => .error (.unknown name)
    | some f =>
      if 1 < parts.length then return (← l.set f ("=".intercalate (parts.drop 1)), false)
      else if f.default.isTruth then return (← l.set f "true", false)
      else match next? with
        | none => .error (.noValue name)
        | some v => return (← l.set f v, true)

/-- What a flag for a test runner starts with. Such flags mean nothing here and are passed
over. -/
def testPrefix : List Char := "test.".toList

/-- Takes a group of letters, all of which stand for flags with truth values. -/
def takeLetters (l : Line) : List Char → Except FlagFault Line
  | [] => .ok l
  | c :: r =>
    if testPrefix.isPrefixOf (c :: r) then .ok l
    else match l.flags.find? (·.letter? = some c) with
    | none =>
      let first := Char.ofNat ((bytesOf (String.ofList (c :: r))).headD 0).toNat
      .error (.unknownLetter first (String.ofList (c :: r)))
    | some f =>
      match r with
      | '=' :: v :: vs => l.set f (String.ofList (v :: vs))
      | _ => do (← l.set f "true").takeLetters r

/-- Takes the arguments one after another. -/
def take (l : Line) : List String → Except FlagFault Line
  | [] => .ok l
  | "--" :: rest => .ok { l with args := l.args ++ rest }
  | arg :: rest =>
    if !arg.startsWith "-" || arg = "-" then { l with args := l.args ++ [arg] }.take rest
    else if arg.startsWith "--" then
      match l.takeNamed arg rest.head? with
      | .error f => .error f
      | .ok (l, true) => l.take (rest.drop 1)
      | .ok (l, false) => l.take rest
    else match l.takeLetters (arg.toList.drop 1) with
      | .error f => .error f
      | .ok l => l.take rest
termination_by args => args.length
decreasing_by all_goals grind

end Line

end CallResolution.Command
