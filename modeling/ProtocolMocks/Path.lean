/-!
# Paths

A path is a sequence of steps with slashes in between. It starts at the root or in a working
directory; blank steps and single dots stay in place, and a double dot goes up.
-/

namespace ProtocolMocks.Path

/-- The steps of a path as they are written. -/
def split (path : String) : List String := (path.toList.splitOn '/').map String.ofList

/-- Whether a step stays in place. -/
def stays (step : String) : Bool := step == "" || step == "."

/-- The steps of a path without those that stay in place. -/
def steps (path : String) : List String := (split path).filter (!stays ·)

/-- Whether a path starts at the root of the file system. -/
def isAbsolute (path : String) : Bool := path.toList.head? == some '/'

/-- Where a path starts. -/
def start (workingDir : List String) (path : String) : List String :=
  if isAbsolute path then [] else workingDir

/-- The path from the root that leads where a path leads. -/
def absolute (workingDir : List String) (path : String) : String :=
  if isAbsolute path then path else "/" ++ String.join (workingDir.map (· ++ "/")) ++ path

/-- The way from one place to another, both given by their steps from the root. -/
def way : List String → List String → List String
  | [], target => target
  | origin, [] => origin.map fun _ => ".."
  | here :: origin, step :: target =>
    if here = step then way origin target
    else ".." :: origin.map (fun _ => "..") ++ step :: target

/-- The path from the working directory that leads where a path from the root leads. -/
def relative (workingDir : List String) (path : String) : String :=
  "/".intercalate (way workingDir (steps path))

/-- The path with an ending added to its last name; a path that does not end in a name has none. -/
def withEnding? (ending path : String) : Option String :=
  match (split path).reverse.dropWhile stays with
  | name :: front =>
    if name = ".." then none else some ("/".intercalate ((name ++ ending) :: front).reverse)
  | [] => none

end ProtocolMocks.Path
