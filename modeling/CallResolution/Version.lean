import CallResolution.Text.JsonText
import CallResolution.Text.Style
import CallResolution.Text.Words

/-!
# Versions

What a build is called: its version, and the commit and the date when they are known.
-/

namespace CallResolution

open Text

/-- A build of the tool. -/
structure Build where
  /-- The version. -/
  version : String
  /-- The commit it was made from, blank when unknown. -/
  commit : String := ""
  /-- When it was made, blank when unknown. -/
  date : String := ""
  deriving DecidableEq, Repr, Inhabited

namespace Build

/-- This build. -/
def current : Build :=
  { version := "0.1.0-dev" }

/-- The version with its three numbers in colours. What follows the first hyphen is kept
plain, and a version that does not consist of three parts is left as it is. -/
def coloredVersion (b : Build) : String :=
  let core := (b.version.splitOn "-").headD ""
  let suffix := "-".intercalate ((b.version.splitOn "-").drop 1)
  match core.splitOn "." with
  | [major, minor, patch] =>
    let paint (code : Nat) : String → String := (Style.boldColor code).paint true
    paint 33 major ++ "." ++ paint 32 minor ++ "." ++ paint 34 patch ++ (if suffix = "" then "" else "-" ++ suffix)
  | _ => b.version

/-- The build on one line. -/
def banner (b : Build) (colored : Bool) : String :=
  let extra := (if b.commit = "" then [] else ["commit " ++ b.commit]) ++ (if b.date = "" then [] else ["built " ++ b.date])
  "jopa " ++ (if colored then b.coloredVersion else b.version)
    ++ (if extra.isEmpty then "" else " (" ++ ", ".intercalate extra ++ ")")

/-- The build as a document. -/
def document (b : Build) : String :=
  let known (k v : String) : List (String × JsonValue) := if trimBlanks v = "" then [] else [(k, .text (trimBlanks v))]
  (JsonValue.object ([("tool", .text "jopa"), ("version", .text (trimBlanks b.version))]
    ++ known "git_commit" b.commit ++ known "build_date" b.date)).indented 0 ++ "\n"

end Build

end CallResolution
