import ProtocolMocks.Toml.Moment
import ProtocolMocks.Toml.Node

/-!
# Statements of a document

A document is a sequence of lines that open a table, open the next table of an array, or assign a
value to a key. Values nest at most 79 levels deep, and a dotted key has at most 79 parts.
-/

namespace ProtocolMocks.Toml

/-- The first nesting depth and number of key parts that is rejected. -/
def nestingLimit : Nat := 80

/-- One line of a document. -/
inductive Statement where
  | table (path : List String)
  | arrayTable (path : List String)
  | entry (path : List String) (key : String) (value : Value)

/-- Characters of a key without quotes. -/
def isBareKeyPart (c : Char) : Bool := c.isAlphanum || c == '-' || c == '_'

/-- One part of a key. -/
def readKeyPart : Reader String := fun cs =>
  match cs with
  | '"' :: _ => readLineString cs
  | '\'' :: _ => readLineString cs
  | _ =>
    let word := cs.takeWhile isBareKeyPart
    if word.isEmpty then none else some (String.ofList word, cs.dropWhile isBareKeyPart)

/-- The parts of a dotted key; blanks may stand around each of them. -/
def readKeyParts : Nat → Reader (List String)
  | 0, _ => none
  | fuel + 1, cs => do
    let (part, cs) ← readKeyPart (skipBlanks cs)
    match skipBlanks cs with
    | '.' :: cs =>
      let (parts, cs) ← readKeyParts fuel cs
      return (part :: parts, cs)
    | cs => return ([part], cs)

/-- A dotted key within the limit. -/
def readKey : Reader (List String) := fun cs => do
  let (parts, cs) ← readKeyParts (cs.length + 1) cs
  if parts.length < nestingLimit then some (parts, cs) else none

/-- A key, an equals sign and a value: the path and the last part of the key, and the value. -/
def readAssignment (readValue : Reader Value) :
    Reader (List String × String × Value) := fun cs => do
  let (parts, cs) ← readKey cs
  let cs ← expect '=' cs
  let (value, cs) ← readValue (skipBlanks cs)
  return ((parts.dropLast, ← parts.getLast?, value), cs)

/-- The items of an array and its closing bracket; a comma may stand after the last item. -/
def readItems (readValue : Reader Value) : Nat → Reader (List Value)
  | 0, _ => none
  | fuel + 1, cs =>
    match skipLayout cs with
    | ']' :: rest => some ([], rest)
    | cs => do
      let (item, cs) ← readValue cs
      match skipLayout cs with
      | ']' :: rest => return ([item], rest)
      | ',' :: rest =>
        let (items, rest) ← readItems readValue fuel rest
        return (item :: items, rest)
      | _ => none

/-- The entries of an inline table that is not empty, and its closing brace. -/
def readEntries (readValue : Reader Value) : Nat → Reader (List (List String × String × Value))
  | 0, _ => none
  | fuel + 1, cs => do
    let (entry, cs) ← readAssignment readValue cs
    match skipBlanks cs with
    | '}' :: rest => return ([entry], rest)
    | ',' :: rest =>
      let (entries, rest) ← readEntries readValue fuel rest
      return (entry :: entries, rest)
    | _ => none

/-- An inline table, read after its opening brace. -/
def readInlineTable (readValue : Reader Value) : Reader Value := fun cs =>
  match skipBlanks cs with
  | '}' :: rest => some (.table [], rest)
  | _ => do
    let (entries, rest) ← readEntries readValue (cs.length + 1) cs
    return (.table (Node.closeEntries (← Node.ofAssignments entries)), rest)

/-- A value in which so many levels of arrays and inline tables may still be opened. -/
def readValue : Nat → Reader Value
  | depth, cs =>
    match cs with
    | '"' :: _ | '\'' :: _ => (readString cs).map fun (s, rest) => (.text s, rest)
    | '[' :: rest =>
      match depth with
      | 0 => none
      | depth + 1 =>
        (readItems (readValue depth) (rest.length + 1) rest).map fun (items, rest) =>
          (.array items, rest)
    | '{' :: rest =>
      match depth with
      | 0 => none
      | depth + 1 => readInlineTable (readValue depth) rest
    | 't' :: 'r' :: 'u' :: 'e' :: rest => some (.boolean true, rest)
    | 'f' :: 'a' :: 'l' :: 's' :: 'e' :: rest => some (.boolean false, rest)
    | _ => readScalar cs

/-- A value of a document. -/
def readTopValue : Reader Value := readValue (nestingLimit - 1)

/-- A statement without the end of its line. -/
def readStatement : Reader Statement
  | '[' :: '[' :: cs => do
    let (path, cs) ← readKey cs
    let cs ← expect ']' cs
    let cs ← expect ']' cs
    return (.arrayTable path, cs)
  | '[' :: cs => do
    let (path, cs) ← readKey cs
    let cs ← expect ']' cs
    return (.table path, cs)
  | cs => do
    let ((path, key, value), cs) ← readAssignment readTopValue cs
    return (.entry path key value, cs)

/-- The statements of a document. -/
def readStatements : Nat → List Char → Option (List Statement)
  | 0, _ => none
  | _ + 1, [] => some []
  | fuel + 1, cs =>
    match afterLine? cs with
    | some rest => readStatements fuel rest
    | none => do
      let (statement, rest) ← readStatement (skipBlanks cs)
      let rest ← afterLine? rest
      return statement :: (← readStatements fuel rest)

end ProtocolMocks.Toml
