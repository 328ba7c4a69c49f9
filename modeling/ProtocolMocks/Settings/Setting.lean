import ProtocolMocks.Settings.KeyPath
import ProtocolMocks.Text.Lowercase
import ProtocolMocks.Toml

/-!
# Trees of settings

Settings from several places are gathered in one tree. Keys do not depend on letter case: they are
stored in lower case. A table is merged into what is there, key by key; anything else replaces what
is there. A setting remembers the file it came from, except for tables that merging made.
-/

namespace ProtocolMocks

/-- A setting without parts. -/
inductive Scalar where
  /-- A place in a list to which nothing was assigned. -/
  | unset
  | boolean (b : Bool)
  | integer (n : Int)
  | float (x : Binary64)
  | text (s : String)
deriving DecidableEq, Repr

/-- A setting and the file it came from, if any. -/
inductive Setting where
  | scalar (origin : Option String) (value : Scalar)
  | list (origin : Option String) (items : List Setting)
  | table (origin : Option String) (entries : List (String × Setting))

namespace Setting

/-- The entries of a table of settings. -/
abbrev Entries := List (String × Setting)

mutual

/-- The setting that a value of a document stands for. Dates are texts. -/
def ofValue (origin : Option String) : Toml.Value → Setting
  | .text s => scalar origin (.text s)
  | .integer n => scalar origin (.integer n)
  | .float x => scalar origin (.float x)
  | .boolean b => scalar origin (.boolean b)
  | .moment s => scalar origin (.text s)
  | .array items => list origin (ofValues origin items)
  | .table entries => table origin (ofEntries origin entries)

/-- The settings that the items of a list stand for. -/
def ofValues (origin : Option String) : List Toml.Value → List Setting
  | [] => []
  | v :: vs => ofValue origin v :: ofValues origin vs

/-- The settings that the entries of a table stand for. -/
def ofEntries (origin : Option String) : List (String × Toml.Value) → Entries
  | [] => []
  | entry :: entries => ofEntry origin entry :: ofEntries origin entries

/-- The setting that an entry of a table stands for. -/
def ofEntry (origin : Option String) : String × Toml.Value → String × Setting
  | (key, v) => (key, ofValue origin v)

end

/-- A place in a list to which nothing was assigned. -/
def blank : Setting := scalar none .unset

/-- A table without entries. -/
def emptyTable : Setting := table none []

/-- Gives a key another setting, or adds the key at the end. -/
def put (key : String) (s : Setting) : Entries → Entries
  | [] => [(key, s)]
  | (other, old) :: entries =>
    if other = key then (key, s) :: entries else (other, old) :: put key s entries

/-- The origin and the entries of a setting seen as a table; what is not a table gives way to an
empty one. -/
def asTable : Setting → Option String × Entries
  | table origin entries => (origin, entries)
  | _ => (none, [])

/-- The origin and the items of a setting seen as a list; what is not a list gives way to an empty
one. -/
def asList : Setting → Option String × List Setting
  | list origin items => (origin, items)
  | _ => (none, [])

mutual

/-- Assigns a setting to a key of a target. The members of a table are assigned one by one, so that
a table without members changes nothing but a missing key. -/
def merge (key : String) : Setting → Setting → Setting
  | table _ members, target =>
    let (origin, entries) := target.asTable
    let old := (entries.lookup (Text.lowercase key)).getD emptyTable
    table origin (put (Text.lowercase key) (mergeMembers members old) entries)
  | s, target =>
    let (origin, entries) := target.asTable
    table origin (put (Text.lowercase key) s entries)

/-- Assigns the members of a table to a target in order. -/
def mergeMembers : Entries → Setting → Setting
  | [], target => target
  | member :: members, target => mergeMembers members (mergeMember member target)

/-- Assigns one member of a table to a target. -/
def mergeMember : String × Setting → Setting → Setting
  | (key, s), target => merge key s target

end

/-- The position in a list of a given length that an index names. A negative index that counts
beyond the front names none. -/
def position? (i : Int) (length : Nat) : Option Nat :=
  if 0 ≤ i then some i.toNat else if i.natAbs ≤ length then some (length - i.natAbs) else none

/-- Changes the item at an index, after adding blanks so that there is one. -/
def changeItem (i : Int) (f : Setting → Setting) (target : Setting) : Setting :=
  let (origin, items) := target.asList
  match position? i items.length with
  | some n =>
    let items := items ++ List.replicate (n + 1 - items.length) blank
    list origin (items.modify n f)
  | none => list origin items

/-- Assigns a setting to the end of a path below a target. Steps on the way that are missing or of
another kind are made anew. -/
def assignBelow (s : Setting) : List PathStep → Setting → Setting
  | [], _ => s
  | [.key name], target => merge name s target
  | .key name :: steps, target =>
    let (origin, entries) := target.asTable
    let old := (entries.lookup (Text.lowercase name)).getD blank
    table origin (put (Text.lowercase name) (assignBelow s steps old) entries)
  | .index i :: steps, target => changeItem i (assignBelow s steps) target

/-- Assigns a setting to a path. -/
def assign (path : KeyPath) (s : Setting) (target : Setting) : Setting :=
  assignBelow s (.key path.first :: path.steps) target

/-- Assigns the entries of a table in order. A key that spells a path is assigned to that path. -/
def assignEntries (entries : Entries) (target : Setting) : Setting :=
  entries.foldl
    (fun target (key, s) =>
      match KeyPath.parse key with
      | .ok path => assign path s target
      | .error _ => merge key s target)
    target

end Setting

end ProtocolMocks
