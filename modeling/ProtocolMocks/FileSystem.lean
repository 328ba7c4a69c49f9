/-!
# Reading and writing files

What a program learns of a file system are the outcomes of reading and writing at paths, the
directory in which relative paths start, and which paths lead to regular files. A file that is there
may still refuse to be read.
-/

namespace ProtocolMocks

/-- Why a file cannot be read or written. -/
inductive FileError where
  | notFound
  | notDirectory
  | isDirectory
  | nameTooLong
  /-- The content is not UTF-8. -/
  | notText
  /-- Any other reason, in the words of the system. -/
  | refused (reason : String)
deriving DecidableEq, Repr

/-- The text shown to the user. -/
def FileError.message : FileError → String
  | .notFound => "No such file or directory (os error 2)"
  | .notDirectory => "Not a directory (os error 20)"
  | .isDirectory => "Is a directory (os error 21)"
  | .nameTooLong => "File name too long (os error 36)"
  | .notText => "stream did not contain valid UTF-8"
  | .refused reason => reason

/-- What a path shows: whether it leads to a regular file, and what reading there yields. -/
structure FileView where
  /-- Whether there is a regular file, which need not be readable. -/
  isFile : Bool
  /-- The outcome of reading. -/
  bytes : Except FileError ByteArray

namespace FileView

/-- A file with a content that can be read. -/
def holding (content : ByteArray) : FileView := ⟨true, .ok content⟩

/-- No file. -/
def absent : FileView := ⟨false, .error .notFound⟩

/-- What a path shows where every file can be read. -/
def ofOutcome (outcome : Except FileError ByteArray) : FileView := ⟨outcome.isOk, outcome⟩

end FileView

/-- A way to read files: the directory in which relative paths start, by its steps from the root,
and what each path shows. -/
structure FileReader where
  workingDir : List String
  view : String → FileView

namespace FileReader

/-- Reads a file as text. -/
def readText (read : FileReader) (path : String) : Except FileError String := do
  match String.fromUTF8? (← (read.view path).bytes) with
  | some text => .ok text
  | none => .error .notText

/-- Reads files that are listed by path; there are no others. -/
def ofList (workingDir : List String) (views : List (String × FileView)) : FileReader :=
  ⟨workingDir, fun path => (views.lookup path).getD .absent⟩

end FileReader

/-- A file system: how files can be read in each of its states, and the state after a text is
written to a path. A state in which writing fails stays as it is. -/
structure FileSystem (State : Type) where
  reader : State → FileReader
  write : State → String → String → Except FileError State

end ProtocolMocks
