import ProtocolMocks.Toml.Value

/-!
# Tables under construction

A table may be spread over a document. While it is read, each table remembers how it came about,
because that decides what may still be added to it:

* an explicit table was opened by a line of its own and can be opened only once;
* an implied table is a step on the way to another table and can still be opened;
* a dotted table is a step of a dotted key, and only dotted keys and tables below it add to it.
-/

namespace ProtocolMocks.Toml

/-- How a table came about. -/
inductive TableKind where
  | explicit
  | implied
  | dotted
deriving DecidableEq, Repr

/-- What a key stands for while a document is read. -/
inductive Node where
  | value (v : Value)
  | table (kind : TableKind) (entries : List (String × Node))
  /-- An array of tables with at least one table; lines add to the last. -/
  | tables (front : List (List (String × Node))) (last : List (String × Node))

namespace Node

/-- The entries of a table under construction. -/
abbrev Entries := List (String × Node)

/-- Gives a key another node, or adds the key at the end. -/
def put (key : String) (node : Node) : Entries → Entries
  | [] => [(key, node)]
  | (other, old) :: entries =>
    if other = key then (key, node) :: entries else (other, old) :: put key node entries

/-- Changes the table at the end of a path. Missing steps become tables of the given kind. A dotted
path may not pass through an explicit table, and no path passes through a value. -/
def change (step : TableKind) (f : TableKind → Entries → Option Entries) :
    List String → TableKind → Entries → Option Entries
  | [], kind, entries => f kind entries
  | key :: path, _, entries =>
    match entries.lookup key with
    | none => do return put key (.table step (← change step f path step [])) entries
    | some (.value _) => none
    | some (.table kind inner) =>
      if step = .dotted ∧ kind = .explicit then none
      else do return put key (.table kind (← change step f path kind inner)) entries
    | some (.tables front last) => do
      return put key (.tables front (← change step f path .explicit last)) entries

/-- Adds a key that is not there yet. -/
def addNew (key : String) (node : Node) (entries : Entries) : Option Entries :=
  match entries.lookup key with
  | none => some (entries ++ [(key, node)])
  | some _ => none

/-- Assigns a value to a dotted key. The path must end in a table that dotted keys made, unless it
is empty. -/
def assign (path : List String) (key : String) (v : Value) (kind : TableKind)
    (entries : Entries) : Option Entries :=
  change .dotted
    (fun kind entries =>
      if kind = .dotted ↔ path = [] then none else addNew key (.value v) entries)
    path kind entries

/-- Opens a table by a line of its own. -/
def openTable (key : String) (entries : Entries) : Option Entries :=
  match entries.lookup key with
  | none => some (entries ++ [(key, .table .explicit [])])
  | some (.table .implied inner) => some (put key (.table .explicit inner) entries)
  | some _ => none

/-- Opens the next table of an array of tables. -/
def openNext (key : String) (entries : Entries) : Option Entries :=
  match entries.lookup key with
  | none => some (entries ++ [(key, .tables [] [])])
  | some (.tables front last) => some (put key (.tables (front ++ [last]) []) entries)
  | some _ => none

/-- The entries of an inline table, given its assignments in order. -/
def ofAssignments (assignments : List (List String × String × Value)) : Option Entries :=
  assignments.foldlM (fun entries (path, key, v) => assign path key v .explicit entries) []

mutual

/-- The value that a finished node stands for. -/
def close : Node → Value
  | .value v => v
  | .table _ entries => .table (closeEntries entries)
  | .tables front last => .array (closeTables front ++ [.table (closeEntries last)])

/-- The entries of a finished table. -/
def closeEntries : List (String × Node) → List (String × Value)
  | [] => []
  | entry :: entries => closeEntry entry :: closeEntries entries

/-- One entry of a finished table. -/
def closeEntry : String × Node → String × Value
  | (key, node) => (key, close node)

/-- The tables of a finished array of tables. -/
def closeTables : List (List (String × Node)) → List Value
  | [] => []
  | entries :: rest => .table (closeEntries entries) :: closeTables rest

end

end Node

end ProtocolMocks.Toml
