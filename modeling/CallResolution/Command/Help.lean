import CallResolution.Command.Invocation

/-!
# Explanations

What the tool says about itself and its commands: a line on what a command does, how it is
called, the commands below it and tables of its flags. The entries of a table start in one
column, three blanks behind the widest name.
-/

namespace CallResolution.Command

open Text

/-! ## Tables -/

/-- A flag as it stands in a table. Names with and without a letter start in one column. -/
def Flag.entry (f : Flag) : String :=
  let lead := match f.letter? with
    | some c => s!"  -{c}, --"
    | none => "      --"
  let word := f.default.word
  lead ++ f.name ++ (if word = "" then "" else " " ++ word)

/-- A text, filled with blanks. -/
def padTo (n : Nat) (s : String) : String :=
  s ++ String.ofList (List.replicate (n - s.length) ' ')

/-- A table of flags in the order of their names. -/
def flagTable (fs : List Flag) : String :=
  let sorted := fs.mergeSort fun f g => !(g.name < f.name)
  let width := sorted.foldl (fun w f => max w f.entry.length) 0
  "\n".intercalate (sorted.map fun f => padTo (width + 3) f.entry ++ f.about ++ f.default.defaultNote)

/-- The least width of the column of command names. -/
def commandColumn : Nat := 11

/-- A table of commands with what they do. -/
def commandTable (rows : List (String × String)) : String :=
  String.join (rows.map fun (name, about) => s!"\n  {padTo commandColumn name} {about}")

/-! ## Commands -/

/-- What a command does, in a line. -/
def Verb.about : Verb → String
  | .resolve => "Resolve every call site of the given fixtures"
  | .dump => "Dump the loaded universe of a fixture and its resolutions"
  | .version => "Show the jopa version"
  | .help => "Help about any command"
  | .completion => "Generate the autocompletion script for the specified shell"

/-- What a command does, at length. -/
def Verb.description : Verb → String
  | .help =>
    "Help provides help for any command in the application.\nSimply type jopa help [path to command] for full details."
  | .completion =>
    "Generate the autocompletion script for jopa for the specified shell.\n"
      ++ "See each sub-command's help for details on how to use the generated script."
  | v => v.about

/-- The arguments of a command. -/
def Verb.parameters : Verb → String
  | .resolve => " <fixture.yaml|dir>..."
  | .dump => " <fixture.yaml>"
  | .help => " [command]"
  | .version | .completion => ""

/-- The shells that command lines can be completed for. -/
def shells : List String := ["bash", "fish", "powershell", "zsh"]

/-! ## Explanations -/

/-- The ways to call something that has commands below it. -/
def callsWithCommands (path : String) (rows : List (String × String)) : String :=
  s!"Usage:\n  {path} [command]\n\nAvailable Commands:" ++ commandTable rows

/-- Where to look for more. -/
def moreHelp (path : String) : String :=
  s!"\n\nUse \"{path} [command] --help\" for more information about a command."

/-- How the tool is called. -/
def usage : String :=
  let verbs := Verb.all.mergeSort fun v w => !(w.name < v.name)
  callsWithCommands toolName (verbs.map fun v => (v.name, v.about))
    ++ "\n\nFlags:\n" ++ flagTable plainFlags ++ moreHelp toolName ++ "\n"

/-- How a command is called. -/
def Verb.usage (v : Verb) : String :=
  let path := toolName ++ " " ++ v.name
  let tables := "\n\nFlags:\n" ++ flagTable (helpFlag v.name :: v.ownFlags)
    ++ "\n\nGlobal Flags:\n" ++ flagTable sharedFlags
  match v with
  | .completion =>
    callsWithCommands path (shells.map fun s => (s, "Generate the autocompletion script for " ++ s)) ++ tables
      ++ moreHelp path ++ "\n"
  | _ => s!"Usage:\n  {path}{v.parameters} [flags]" ++ tables ++ "\n"

/-- Explains the tool, or one of its commands. -/
def helpText : Option Verb → String
  | none => "jopa resolves method calls and instance creations described in YAML fixtures\n\n" ++ usage
  | some v => v.description ++ "\n\n" ++ v.usage

/-- Whether a text can stand between backquotes. -/
def fitsBackquotes (s : String) : Bool :=
  s.toList.all fun c => c = '\t' || ' ' ≤ c && c ≠ '\x60' && c ≠ '\x7f' && c ≠ '\ufeff'

/-- What the tool says about words that name no command. -/
def noTopicText (words : List String) : String :=
  let shown := words.map fun w => if fitsBackquotes w then "\x60" ++ w ++ "\x60" else quote w
  "Unknown help topic [" ++ " ".intercalate shown ++ "]\n" ++ usage

end CallResolution.Command
