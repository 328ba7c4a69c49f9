import ProtocolMocks.FileSystem
import ProtocolMocks.Mock
import ProtocolMocks.Number.Shortest
import ProtocolMocks.Path
import ProtocolMocks.Settings.Setting
import ProtocolMocks.Text.Quoted

/-!
# Layered settings

The options of the generator come from built-in defaults, from files, and from overrides. Files are
layered over the defaults in order, and overrides over all files, wherever they stand. The result is
read field by field, with simple conversions between texts, numbers and truth values.
-/

namespace ProtocolMocks

/-- What is layered over the defaults. -/
inductive SettingsLayer where
  /-- A file that has to be there. -/
  | file (path : String)
  /-- A file that is left out if it is not there or cannot be read as text. -/
  | optionalFile (path : String)
  /-- A value for the setting at a path. -/
  | override (path : String) (value : Scalar)
deriving DecidableEq, Repr

/-- The kind of a setting that a field cannot be read from. -/
inductive SettingKind where
  | unset
  | list
  | table
  | text (s : String)
deriving DecidableEq, Repr

/-- How a message names the kind. -/
def SettingKind.description : SettingKind → String
  | .unset => "unit value"
  | .list => "sequence"
  | .table => "map"
  | .text s => "string " ++ Text.quoted s

/-- What a field holds. -/
inductive FieldType where
  | text
  | boolean
deriving DecidableEq, Repr

/-- How a message names the type. -/
def FieldType.description : FieldType → String
  | .text => "a string"
  | .boolean => "a boolean"

/-- Why there are no settings. -/
inductive SettingsError where
  | fileNotFound (path : String)
  | unreadableFile (error : FileError)
  /-- A file is not a configuration document. -/
  | malformedFile (path : String)
  | malformedPath (error : KeyPathError)
  /-- A field is of a kind that its type cannot be read from. -/
  | wrongType (found : SettingKind) (expected : FieldType) (key : String) (origin : Option String)
  /-- All options together are a single value. -/
  | notOptions (found : Scalar)
  /-- All options together are a list that ends before its fourth item. -/
  | tooFewOptions (length : Nat)
  | missingField (name : String)
deriving DecidableEq, Repr

/-- How a message shows a single value in place of all options. -/
def Scalar.description : Scalar → String
  | .unset => "unit value"
  | .boolean b => "boolean `" ++ (if b then "true" else "false") ++ "`"
  | .integer n => "integer `" ++ toString n ++ "`"
  | .float x => "floating point `" ++ x.textWithFraction ++ "`"
  | .text s => "string " ++ Text.quoted s

/-- The text shown to the user. -/
def SettingsError.message : SettingsError → String
  | .fileNotFound path => "configuration file \"" ++ path ++ "\" not found"
  | .unreadableFile error => error.message
  | .malformedFile path => "TOML parse error in " ++ path
  | .malformedPath error => error.message
  | .wrongType found expected key origin =>
    "invalid type: " ++ found.description ++ ", expected " ++ expected.description ++
      " for key `" ++ key ++ "`" ++ ((origin.map (" in " ++ ·)).getD "")
  | .notOptions found => "invalid type: " ++ found.description ++ ", expected struct MockConfig"
  | .tooFewOptions length =>
    "invalid length " ++ toString length ++ ", expected struct MockConfig with 4 elements"
  | .missingField name => "missing field `" ++ name ++ "`"

namespace Setting

/-- The kind and origin of a setting that cannot be read. -/
def mismatch (expected : FieldType) (key : String) : Setting → SettingsError
  | scalar origin (.text s) => .wrongType (.text s) expected key origin
  | scalar origin _ => .wrongType .unset expected key origin
  | list origin _ => .wrongType .list expected key origin
  | table origin _ => .wrongType .table expected key origin

/-- Reads a text; truth values and numbers have one. -/
def readText (key : String) : Setting → Except SettingsError String
  | scalar _ (.text s) => .ok s
  | scalar _ (.boolean b) => .ok (if b then "true" else "false")
  | scalar _ (.integer n) => .ok (toString n)
  | scalar _ (.float x) => .ok x.text
  | s => .error (mismatch .text key s)

/-- Reads a truth value; numbers are true unless they are zero, and some words count in any letter
case. -/
def readBoolean (key : String) : Setting → Except SettingsError Bool
  | scalar _ (.boolean b) => .ok b
  | scalar _ (.integer n) => .ok (n != 0)
  | scalar _ (.float x) => .ok (!x.isZero)
  | scalar origin (.text s) =>
    let word := Text.lowercase s
    if word ∈ ["1", "true", "on", "yes"] then .ok true
    else if word ∈ ["0", "false", "off", "no"] then .ok false
    else .error (.wrongType (.text word) .boolean key origin)
  | s => .error (mismatch .boolean key s)

end Setting

namespace Settings

/-- The key that holds the options of the generator. -/
def optionsKey : String := "mock"

/-- The settings that everything else is layered over. -/
def defaults : Setting :=
  let options : MockOptions := {}
  let text (s : String) : Setting := .scalar none (.text s)
  .table none [(optionsKey, .table none
    [("marker", text options.marker), ("suffix", text options.suffix),
      ("indent", text options.indent),
      ("conform_to_protocol", .scalar none (.boolean options.conformToProtocol))])]

/-- Reads a field that may be missing. -/
def readField? {α : Type} (read : String → Setting → Except SettingsError α)
    (entries : Setting.Entries) (name : String) : Except SettingsError (Option α) :=
  (entries.lookup name).mapM (read (optionsKey ++ "." ++ name))

/-- A field that has to be there. -/
def require {α : Type} (name : String) : Option α → Except SettingsError α
  | some a => .ok a
  | none => .error (.missingField name)

/-- Reads the options from a table. Fields of a wrong type are noticed before missing ones. -/
def readTable (entries : Setting.Entries) : Except SettingsError MockOptions := do
  let marker ← readField? Setting.readText entries "marker"
  let suffix ← readField? Setting.readText entries "suffix"
  let indent ← readField? Setting.readText entries "indent"
  let conform ← readField? Setting.readBoolean entries "conform_to_protocol"
  return ⟨← require "marker" marker, ← require "suffix" suffix, ← require "indent" indent,
    ← require "conform_to_protocol" conform⟩

/-- Reads one item of a list of options. -/
def readItem {α : Type} (read : String → Setting → Except SettingsError α)
    (items : List Setting) (i : Nat) : Except SettingsError α :=
  match items[i]? with
  | some item => read (optionsKey ++ "[" ++ toString i ++ "]") item
  | none => .error (.tooFewOptions i)

/-- Reads the options from a list, which gives the fields in order. Further items do not count. -/
def readList (items : List Setting) : Except SettingsError MockOptions := do
  let marker ← readItem Setting.readText items 0
  let suffix ← readItem Setting.readText items 1
  let indent ← readItem Setting.readText items 2
  let conform ← readItem Setting.readBoolean items 3
  return ⟨marker, suffix, indent, conform⟩

/-- Reads the options from a tree of settings. -/
def readOptions (root : Setting) : Except SettingsError MockOptions := do
  match ← require optionsKey (root.asTable.2.lookup optionsKey) with
  | .scalar _ value => .error (.notOptions value)
  | .list _ items => readList items
  | .table _ entries => readTable entries

/-- The ending of a file that may be left out of its path. -/
def fileEnding : String := ".toml"

/-- The paths at which a configuration file is looked for, from the root: the path itself, and the
path with the ending added. -/
def candidates (workingDir : List String) (path : String) : List String :=
  let whole := Path.absolute workingDir path
  whole :: (Path.withEnding? fileEnding whole).toList

/-- The path of a configuration file, the first candidate that leads to a file. -/
def findFile? (read : FileReader) (path : String) : Option String :=
  (candidates read.workingDir path).find? fun candidate => (read.view candidate).isFile

/-- The files that a layer may be read from. -/
def sources (workingDir : List String) : SettingsLayer → List String
  | .file path | .optionalFile path => candidates workingDir path
  | .override _ _ => []

/-- The entries of a configuration file. They come from its path as seen from the working
directory. -/
def readFile (read : FileReader) (path : String) : Except SettingsError Setting.Entries := do
  match findFile? read path with
  | none => .error (.fileNotFound path)
  | some found =>
    match read.readText found with
    | .error error => .error (.unreadableFile error)
    | .ok document =>
      let origin := Path.relative read.workingDir found
      match Toml.parse? document with
      | none => .error (.malformedFile origin)
      | some entries => .ok (Setting.ofEntries (some origin) entries)

/-- The entries of a configuration file that may be missing; one that cannot be read as text counts
as missing. -/
def readOptionalFile (read : FileReader) (path : String) :
    Except SettingsError Setting.Entries :=
  match readFile read path with
  | .error (.fileNotFound _) => .ok []
  | .error (.unreadableFile _) => .ok []
  | outcome => outcome

/-- The paths and values of the overrides, in order. -/
def overrides : List SettingsLayer → Except SettingsError (List (KeyPath × Scalar))
  | [] => .ok []
  | .override path value :: layers =>
    match KeyPath.parse path with
    | .ok path => (overrides layers).map ((path, value) :: ·)
    | .error e => .error (.malformedPath e)
  | _ :: layers => overrides layers

/-- The entries of the files, in order. -/
def files (read : FileReader) : List SettingsLayer → Except SettingsError (List Setting.Entries)
  | [] => .ok []
  | .file path :: layers => do
    let entries ← readFile read path
    return entries :: (← files read layers)
  | .optionalFile path :: layers => do
    let entries ← readOptionalFile read path
    return entries :: (← files read layers)
  | .override _ _ :: layers => files read layers

/-- The tree of all settings. The files are gathered in a tree of their own first, whose keys are
read as paths once more. -/
def gather (files : List Setting.Entries) (overrides : List (KeyPath × Scalar)) : Setting :=
  let base := Setting.assignEntries defaults.asTable.2 .emptyTable
  let layered := files.foldl (fun tree entries => Setting.assignEntries entries tree) base
  let whole := Setting.assignEntries layered.asTable.2 .emptyTable
  overrides.foldl (fun tree (path, value) => Setting.assign path (.scalar none value) tree) whole

/-- The options that layers over the defaults amount to. Paths of overrides are checked before any
file is read. -/
def load (read : FileReader) (layers : List SettingsLayer) : Except SettingsError MockOptions := do
  let overrides ← overrides layers
  let files ← files read layers
  readOptions (gather files overrides)

/-- Readers that agree on the candidates find the same file. -/
theorem findFile?_congr {read other : FileReader} {path : String}
    (hdir : read.workingDir = other.workingDir)
    (h : ∀ source ∈ sources read.workingDir (.file path), read.view source = other.view source) :
    findFile? read path = findFile? other path := by
  rw [findFile?, findFile?, ← hdir]
  rw [sources] at h
  generalize candidates read.workingDir path = paths at h
  induction paths with
  | nil => rfl
  | cons candidate paths ih =>
    rw [List.find?_cons, List.find?_cons, h candidate List.mem_cons_self,
      ih fun source hsource => h source (List.mem_cons_of_mem _ hsource)]

/-- What is read of a configuration file depends on its candidates alone. -/
theorem readFile_congr {read other : FileReader} {path : String}
    (hdir : read.workingDir = other.workingDir)
    (h : ∀ source ∈ sources read.workingDir (.file path), read.view source = other.view source) :
    readFile read path = readFile other path := by
  rw [readFile, readFile, ← findFile?_congr hdir h, ← hdir]
  cases hfound : findFile? read path with
  | none => rfl
  | some found =>
    have hview : read.view found = other.view found := h found (List.mem_of_find?_eq_some hfound)
    simp only [FileReader.readText, hview]

/-- The files of layers depend on their sources alone. -/
theorem files_congr {read other : FileReader} {layers : List SettingsLayer}
    (hdir : read.workingDir = other.workingDir)
    (h : ∀ layer ∈ layers, ∀ source ∈ sources read.workingDir layer,
      read.view source = other.view source) :
    files read layers = files other layers := by
  induction layers with
  | nil => rfl
  | cons layer layers ih =>
    simp only [List.mem_cons, forall_eq_or_imp] at h
    have tail := ih h.2
    cases layer with
    | file path => simp only [files, tail, readFile_congr hdir h.1]
    | optionalFile path => simp only [files, readOptionalFile, tail, readFile_congr hdir h.1]
    | override _ _ => simp only [files, tail]

/-- The options depend on no other files than those that the layers may be read from. -/
theorem load_congr {read other : FileReader} {layers : List SettingsLayer}
    (hdir : read.workingDir = other.workingDir)
    (h : ∀ layer ∈ layers, ∀ source ∈ sources read.workingDir layer,
      read.view source = other.view source) :
    load read layers = load other layers := by
  simp only [load, files_congr hdir h]

end Settings

end ProtocolMocks
