/-!
# Paths

Slash-separated paths as text, and the lexical operations on them: cleaning, joining,
splitting off the directory and the last element, and writing one path relative to another.
Nothing here looks at a disk.
-/

namespace CallResolution.Source.Path

/-- The parts between the slashes of a path. -/
def components (p : String) : List String :=
  (p.toList.splitOn '/').map String.ofList

/-- Whether a path starts at the root. -/
def isAbsolute (p : String) : Bool :=
  p.startsWith "/"

/-- Adds one component to the reversed list of cleaned components. A blank or a dot adds
nothing, and two dots take back the component before them, unless there is none to take back.
-/
def pushComponent (rooted : Bool) (done : List String) (c : String) : List String :=
  if c = "" || c = "." then done
  else if c = ".." then
    match done with
    | [] => if rooted then [] else [".."]
    | last :: rest => if last = ".." then ".." :: done else rest
  else c :: done

/-- The components of a path after cleaning, first to last. -/
def cleanComponents (p : String) : List String :=
  ((components p).foldl (pushComponent (isAbsolute p)) []).reverse

/-- Writes cleaned components as a path; an empty relative path is the dot. -/
def ofComponents (rooted : Bool) (cs : List String) : String :=
  if rooted then "/" ++ "/".intercalate cs
  else if cs.isEmpty then "." else "/".intercalate cs

/-- The shortest path that names the same place lexically. -/
def clean (p : String) : String :=
  ofComponents (isAbsolute p) (cleanComponents p)

/-- Joins two paths and cleans the result; a blank part is left out. -/
def join (a b : String) : String :=
  if a = "" then (if b = "" then "" else clean b)
  else if b = "" then clean a
  else clean (a ++ "/" ++ b)

/-- The path seen from the root, for a relative path below the directory `cwd`. -/
def absolute (cwd p : String) : String :=
  if isAbsolute p then clean p else join cwd p

/-- The last element of a path; blank is the dot and the root is a slash. -/
def baseName (p : String) : String :=
  if p = "" then "."
  else match ((components p).filter (· ≠ "")).getLast? with
    | some c => c
    | none => "/"

/-- What stands before the last slash, cleaned. -/
def directory (p : String) : String :=
  match (components p).reverse with
  | [] | [_] => "."
  | _ :: rest =>
    let dir := "/".intercalate rest.reverse
    if dir = "" then (if isAbsolute p then "/" else ".") else clean (dir ++ "/")

/-- A path without the slashes at its end; the root keeps one. -/
def dropSlashes (p : String) : String :=
  match p.toList.reverse.dropWhile (· = '/') with
  | [] => if p = "" then "" else "/"
  | cs => String.ofList cs.reverse

/-- What stands before the last element, with the slash between them. -/
def upToLast (p : String) : String :=
  String.ofList ((p.toList.reverse.dropWhile (· = '/')).dropWhile (· ≠ '/')).reverse

/-- The suffix of the last element from its last dot on, blank when it has none. -/
def extension (p : String) : String :=
  match ((components p).getLastD "").splitOn "." |>.reverse with
  | [] | [_] => ""
  | ext :: _ => "." ++ ext

/-- Takes the components of `pre` off the front of `cs`. -/
def below? : (pre cs : List String) → Option (List String)
  | [], cs => some cs
  | _ :: _, [] => none
  | p :: ps, c :: cs => if p = c then below? ps cs else none

/-- Writes `p` relative to `base` when it lies at or below it, and as a path from the root
otherwise. Both are read from the directory `cwd`. -/
def relativeTo (cwd p base : String) : String :=
  let target := absolute cwd p
  match below? (cleanComponents (absolute cwd base)) (cleanComponents target) with
  | some rest => ofComponents false rest
  | none => target

end CallResolution.Source.Path
