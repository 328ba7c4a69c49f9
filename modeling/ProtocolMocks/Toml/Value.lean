import ProtocolMocks.Number.Binary64

/-!
# Configuration values

What a configuration document can assign to a key. A date is kept as its normalised text.
-/

namespace ProtocolMocks.Toml

/-- A value of a document. -/
inductive Value where
  | text (s : String)
  | integer (n : Int)
  | float (x : Binary64)
  | boolean (b : Bool)
  | moment (text : String)
  | array (items : List Value)
  | table (entries : List (String × Value))

/-- A reader takes a value off the front of a text, or rejects the text. -/
abbrev Reader (α : Type) := List Char → Option (α × List Char)

end ProtocolMocks.Toml
