/-!
# Paths to settings

A path names a setting by the keys and list indices that lead to it, as in `mock.suffix` or
`mock[0]`. A key is made of ASCII letters, digits, blanks, underscores and hyphens. An index may be
negative and then counts from the end; blanks and tabs may stand around it.
-/

namespace ProtocolMocks

/-- A step below the first key of a path. -/
inductive PathStep where
  | key (name : String)
  | index (i : Int)
deriving DecidableEq, Repr

/-- A path to a setting. -/
structure KeyPath where
  first : String
  steps : List PathStep
deriving DecidableEq, Repr

/-- Why a text is not a path. -/
inductive KeyPathError where
  /-- The text does not start with a key. -/
  | missingKey
  /-- A bracket is not followed by an index. -/
  | missingIndex
  /-- An index does not fit into 64 bits. -/
  | indexOutOfRange
  /-- Neither a key, nor an index, nor the bracket that closes one. -/
  | unexpectedCharacter
deriving DecidableEq, Repr

/-- The text shown to the user. -/
def KeyPathError.message : KeyPathError → String
  | .missingKey => "IsA"
  | .missingIndex => "Digit"
  | .indexOutOfRange => "Map on Result"
  | .unexpectedCharacter => "Char"

namespace KeyPath

/-- The characters of a key. -/
def isKeyPart (c : Char) : Bool := c.isAlphanum || c == ' ' || c == '_' || c == '-'

/-- Blanks around an index. -/
def isBlank (c : Char) : Bool := c == ' ' || c == '\t'

/-- Takes a key, which is not empty, off the front of a text. -/
def takeKey? (cs : List Char) : Option (String × List Char) :=
  let key := cs.takeWhile isKeyPart
  if key.isEmpty then none else some (String.ofList key, cs.dropWhile isKeyPart)

/-- The number that decimal digits spell. -/
def numberOf (digits : List Char) : Nat :=
  digits.foldl (fun n c => 10 * n + (c.toNat - '0'.toNat)) 0

/-- Takes an index and the bracket that closes it, read after the opening bracket. -/
def takeIndex (cs : List Char) : Except KeyPathError (Int × List Char) :=
  let cs := cs.dropWhile isBlank
  let (negative, cs) := match cs with
    | '-' :: cs => (true, cs)
    | cs => (false, cs)
  let digits := cs.takeWhile Char.isDigit
  let i : Int := if negative then -numberOf digits else numberOf digits
  if digits.isEmpty then .error .missingIndex
  else if i < Int64.minValue.toInt ∨ Int64.maxValue.toInt < i then .error .indexOutOfRange
  else
    match (cs.dropWhile Char.isDigit).dropWhile isBlank with
    | ']' :: cs => .ok (i, cs)
    | _ => .error .unexpectedCharacter

/-- The steps below the first key. The fuel bounds their number. -/
def takeSteps : Nat → List Char → Except KeyPathError (List PathStep)
  | _, [] => .ok []
  | 0, _ => .error .unexpectedCharacter
  | fuel + 1, '.' :: cs =>
    match takeKey? cs with
    | some (name, cs) => (takeSteps fuel cs).map (.key name :: ·)
    | none => .error .unexpectedCharacter
  | fuel + 1, '[' :: cs => do
    let (i, cs) ← takeIndex cs
    return .index i :: (← takeSteps fuel cs)
  | _, _ => .error .unexpectedCharacter

/-- The path that a text spells. -/
def parse (text : String) : Except KeyPathError KeyPath :=
  match takeKey? text.toList with
  | none => .error .missingKey
  | some (first, cs) => (takeSteps cs.length cs).map (⟨first, ·⟩)

end KeyPath

end ProtocolMocks
