/-!
# JSON text

A value is laid out with one member per line and two blanks of indentation per level. Empty lists
and objects stay on one line, and nothing follows the last character of the value.
-/

namespace ProtocolMocks

/-- The part of JSON that the listings use. -/
inductive Json where
  | text (value : String)
  | number (value : Nat)
  | list (items : List Json)
  | object (members : List (String × Json))

namespace Json

/-- A digit of a hexadecimal escape. -/
def hexDigit (n : Nat) : Char := Nat.digitChar n

/-- A character inside a string. -/
def escapeChar (c : Char) : List Char :=
  if c = '"' then ['\\', '"']
  else if c = '\\' then ['\\', '\\']
  else if c = '\n' then ['\\', 'n']
  else if c = '\r' then ['\\', 'r']
  else if c = '\t' then ['\\', 't']
  else if c = '\x08' then ['\\', 'b']
  else if c = '\x0c' then ['\\', 'f']
  else if c.toNat < 0x20 then
    ['\\', 'u', '0', '0', hexDigit (c.toNat / 16), hexDigit (c.toNat % 16)]
  else [c]

/-- A string with its quotes. -/
def quote (s : String) : String := String.ofList ('"' :: s.toList.flatMap escapeChar ++ ['"'])

/-- The start of a line at a level. -/
def newline (level : Nat) : String := "\n" ++ String.ofList (List.replicate (2 * level) ' ')

mutual

/-- The text of a value that starts at a level of indentation. -/
def render (level : Nat) : Json → String
  | .text value => quote value
  | .number value => toString value
  | .list [] => "[]"
  | .list (item :: items) =>
    "[" ++ newline (level + 1) ++ render (level + 1) item ++ renderItems (level + 1) items ++
      newline level ++ "]"
  | .object [] => "\x7b\x7d"
  | .object (member :: members) =>
    "\x7b" ++ newline (level + 1) ++ renderMember (level + 1) member ++
      renderMembers (level + 1) members ++ newline level ++ "\x7d"

/-- A key with its value. -/
def renderMember (level : Nat) : String × Json → String
  | (key, value) => quote key ++ ": " ++ render level value

/-- The items after the first of a list. -/
def renderItems (level : Nat) : List Json → String
  | [] => ""
  | item :: items => "," ++ newline level ++ render level item ++ renderItems level items

/-- The members after the first of an object. -/
def renderMembers (level : Nat) : List (String × Json) → String
  | [] => ""
  | member :: members =>
    "," ++ newline level ++ renderMember level member ++ renderMembers level members

end

/-- The text of a value on its own. -/
def pretty (value : Json) : String := render 0 value

end Json

end ProtocolMocks
