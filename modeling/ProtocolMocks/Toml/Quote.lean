import ProtocolMocks.Toml.Layout
import ProtocolMocks.Toml.Value

/-!
# Strings of a document

There are four forms: in double quotes with escapes or in single quotes without, each on one line or
over several. In the forms over several lines a line end always stands for a newline, one directly
after the opening quotes does not count, and up to two quotes may stand next to the closing ones.
-/

namespace ProtocolMocks.Toml

/-- The value of a hexadecimal digit. -/
def hexValue? (c : Char) : Option Nat :=
  if c.isDigit then some (c.toNat - '0'.toNat)
  else if 'a' ≤ c ∧ c ≤ 'f' then some (c.toNat - 'a'.toNat + 10)
  else if 'A' ≤ c ∧ c ≤ 'F' then some (c.toNat - 'A'.toNat + 10)
  else none

/-- A number of exactly so many hexadecimal digits. -/
def readHex : Nat → Nat → Reader Nat
  | 0, value, cs => some (value, cs)
  | _ + 1, _, [] => none
  | count + 1, value, c :: cs => do
    let digit ← hexValue? c
    readHex count (16 * value + digit) cs

/-- The character with a code point, if there is one. -/
def charOf? (n : Nat) : Option Char := if n.isValidChar then some (Char.ofNat n) else none

/-- The character that an escape stands for, read after the backslash. -/
def readEscape : Reader Char
  | 'b' :: cs => some ('\x08', cs)
  | 'f' :: cs => some ('\x0c', cs)
  | 'n' :: cs => some ('\n', cs)
  | 'r' :: cs => some ('\r', cs)
  | 't' :: cs => some ('\t', cs)
  | '\\' :: cs => some ('\\', cs)
  | '"' :: cs => some ('"', cs)
  | 'u' :: cs => do
    let (n, cs) ← readHex 4 0 cs
    return (← charOf? n, cs)
  | 'U' :: cs => do
    let (n, cs) ← readHex 8 0 cs
    return (← charOf? n, cs)
  | _ => none

/-- Puts a character in front of a text that was read. -/
def prepend (c : Char) : List Char × List Char → List Char × List Char
  | (text, rest) => (c :: text, rest)

/-- The rest of a string in double quotes. The fuel bounds the number of characters. -/
def readBasic : Nat → Reader (List Char)
  | 0, _ => none
  | _ + 1, [] => none
  | _ + 1, '"' :: cs => some ([], cs)
  | fuel + 1, '\\' :: cs => do
    let (c, cs) ← readEscape cs
    (readBasic fuel cs).map (prepend c)
  | fuel + 1, c :: cs => if isPrintable c then (readBasic fuel cs).map (prepend c) else none

/-- The rest of a string in single quotes. -/
def readLiteral : Reader (List Char)
  | [] => none
  | '\'' :: cs => some ([], cs)
  | c :: cs => if isPrintable c then (readLiteral cs).map (prepend c) else none

/-- The end of a string that a run of at least three quotes closes: the text that is left and what
follows. Up to two quotes in front of the closing three belong to the text. -/
def closingQuotes? (quote : Char) (cs : List Char) : Option (List Char × List Char) :=
  let run := cs.takeWhile (· == quote)
  if run.length < 3 then none else some ((run.drop 3).take 2, cs.drop (min run.length 5))

/-- Leaves out the line end at the front, if there is one. -/
def skipNewline (cs : List Char) : List Char := (afterNewline? cs).getD cs

/-- What follows an escaped line end and the layout after it, read after the backslash. -/
def afterContinuation? (cs : List Char) : Option (List Char) :=
  (afterNewline? (skipBlanks cs)).map skipGap
where
  /-- Leaves out blanks and line ends. -/
  skipGap : List Char → List Char
    | '\r' :: '\n' :: cs => skipGap cs
    | c :: cs => if isBlank c || c = '\n' then skipGap cs else c :: cs
    | [] => []

/-- The rest of a string in three double quotes. -/
def readBasicLines : Nat → Reader (List Char)
  | 0, _ => none
  | fuel + 1, cs =>
    match closingQuotes? '"' cs with
    | some closed => some closed
    | none =>
      match cs with
      | [] => none
      | '\\' :: cs =>
        match afterContinuation? cs with
        | some cs => readBasicLines fuel cs
        | none => do
          let (c, cs) ← readEscape cs
          (readBasicLines fuel cs).map (prepend c)
      | c :: cs =>
        match afterNewline? (c :: cs) with
        | some cs => (readBasicLines fuel cs).map (prepend '\n')
        | none => if isPrintable c then (readBasicLines fuel cs).map (prepend c) else none

/-- The rest of a string in three single quotes. -/
def readLiteralLines : Nat → Reader (List Char)
  | 0, _ => none
  | fuel + 1, cs =>
    match closingQuotes? '\'' cs with
    | some closed => some closed
    | none =>
      match cs with
      | [] => none
      | c :: cs =>
        match afterNewline? (c :: cs) with
        | some cs => (readLiteralLines fuel cs).map (prepend '\n')
        | none => if isPrintable c then (readLiteralLines fuel cs).map (prepend c) else none

/-- A string on one line, as it may stand in a key. -/
def readLineString : Reader String
  | '"' :: cs => (readBasic (cs.length + 1) cs).map fun (text, rest) => (String.ofList text, rest)
  | '\'' :: cs => (readLiteral cs).map fun (text, rest) => (String.ofList text, rest)
  | _ => none

/-- A string in any form. -/
def readString : Reader String
  | '"' :: '"' :: '"' :: cs =>
    (readBasicLines (cs.length + 1) (skipNewline cs)).map fun (text, rest) =>
      (String.ofList text, rest)
  | '\'' :: '\'' :: '\'' :: cs =>
    (readLiteralLines (cs.length + 1) (skipNewline cs)).map fun (text, rest) =>
      (String.ofList text, rest)
  | cs => readLineString cs

end ProtocolMocks.Toml
