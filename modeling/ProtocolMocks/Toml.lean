import ProtocolMocks.Toml.Statement

/-!
# Configuration documents

`Toml.parse?` reads a document into the entries of its root table, or rejects it. A byte order mark
at the front does not count.
-/

namespace ProtocolMocks.Toml

/-- A document so far: the root table, and the path of the table that was opened last. -/
structure Draft where
  root : Node.Entries
  current : List String

namespace Draft

/-- Applies a change to the table that holds the last part of a path, and goes on in that table. -/
def openAt (path : List String) (f : String → Node.Entries → Option Node.Entries)
    (draft : Draft) : Option Draft := do
  let key ← path.getLast?
  let root ← Node.change .implied (fun _ entries => f key entries) path.dropLast .explicit
    draft.root
  return ⟨root, path⟩

/-- Carries out one statement. -/
def add (draft : Draft) : Statement → Option Draft
  | .table path => draft.openAt path Node.openTable
  | .arrayTable path => draft.openAt path Node.openNext
  | .entry path key v => do
    let root ← Node.change .implied (Node.assign path key v) draft.current .explicit draft.root
    return { draft with root }

end Draft

/-- The entries of the root table of a document. -/
def parse? (document : String) : Option (List (String × Value)) := do
  let cs := match document.toList with
    | '\ufeff' :: cs => cs
    | cs => cs
  let statements ← readStatements (cs.length + 1) cs
  let draft ← statements.foldlM Draft.add ⟨[], []⟩
  return Node.closeEntries draft.root

end ProtocolMocks.Toml
