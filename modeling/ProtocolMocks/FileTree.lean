import ProtocolMocks.FileSystem
import ProtocolMocks.Path
import ProtocolMocks.Span

/-!
# A tree of files and directories

The tree of a whole file system, seen from one of its directories. Paths are followed step by step
from the root or from that directory, and above the root there is only the root.
-/

namespace ProtocolMocks

/-- The files and directories below the root, each by its steps. -/
structure FileTree where
  files : List (List String × ByteArray)
  dirs : List (List String)

namespace FileTree

/-- The longest name of a file, in bytes. -/
def nameLimit : Nat := 255

/-- The shortest path that is too long, in bytes. -/
def pathLimit : Nat := 4096

/-- Whether the steps lead to a directory: the root, a listed one, or one that holds something. -/
def isDir (tree : FileTree) (location : List String) : Bool :=
  location.isEmpty || tree.dirs.any (location.isPrefixOf ·) ||
    tree.files.any fun (file, _) => location.isPrefixOf file && location != file

/-- The content of the file that the steps lead to. -/
def file? (tree : FileTree) (location : List String) : Option ByteArray :=
  tree.files.lookup location

/-- Goes one step on from a place that exists. -/
def step (tree : FileTree) (location : List String) (name : String) :
    Except FileError (List String) :=
  if !tree.isDir location then .error .notDirectory
  else if name = "" ∨ name = "." then .ok location
  else if name = ".." then .ok location.dropLast
  else if nameLimit < byteLength name.toList then .error .nameTooLong
  else if tree.isDir (location ++ [name]) || (tree.file? (location ++ [name])).isSome then
    .ok (location ++ [name])
  else .error .notFound

/-- Goes along steps from a place. -/
def walk (tree : FileTree) (location : List String) (steps : List String) :
    Except FileError (List String) :=
  steps.foldlM tree.step location

/-- Whether a path is one that can lead somewhere. -/
def checkPath (path : String) : Except FileError Unit :=
  if pathLimit ≤ byteLength path.toList then .error .nameTooLong
  else if path = "" then .error .notFound
  else .ok ()

/-- The place that a path leads to. -/
def locate (tree : FileTree) (workingDir : List String) (path : String) :
    Except FileError (List String) := do
  checkPath path
  tree.walk (Path.start workingDir path) (Path.split path)

/-- The content of the file at a path. -/
def bytes (tree : FileTree) (workingDir : List String) (path : String) :
    Except FileError ByteArray := do
  match tree.file? (← tree.locate workingDir path) with
  | some content => .ok content
  | none => .error .isDirectory

/-- Reads the files of the tree; relative paths start in the root unless another directory is
given. -/
def read (tree : FileTree) (workingDir : List String := []) : FileReader :=
  ⟨workingDir, fun path => .ofOutcome (tree.bytes workingDir path)⟩

/-- Replaces the content of a file, or adds the file at the end. -/
def putFile (location : List String) (content : ByteArray) :
    List (List String × ByteArray) → List (List String × ByteArray)
  | [] => [(location, content)]
  | (other, old) :: files =>
    if other = location then (location, content) :: files
    else (other, old) :: putFile location content files

/-- The tree after a text is written to a path. A path that ends in a slash or in dots is taken for
a directory. -/
def write (tree : FileTree) (workingDir : List String) (path text : String) :
    Except FileError FileTree := do
  checkPath path
  let steps := ((Path.split path).reverse.dropWhile (· == "")).reverse
  let location ← tree.walk (Path.start workingDir path) steps.dropLast
  if !tree.isDir location then .error .notDirectory
  match steps.getLast? with
  | none => .error .isDirectory
  | some name =>
    if name = "." ∨ name = ".." ∨ steps.length < (Path.split path).length then .error .isDirectory
    else if nameLimit < byteLength name.toList then .error .nameTooLong
    else if tree.isDir (location ++ [name]) then .error .isDirectory
    else .ok { tree with files := putFile (location ++ [name]) text.toUTF8 tree.files }

/-- The tree as a file system that is used from a working directory. -/
def system (workingDir : List String) : FileSystem FileTree where
  reader tree := tree.read workingDir
  write tree path text := tree.write workingDir path text

end FileTree

end ProtocolMocks
