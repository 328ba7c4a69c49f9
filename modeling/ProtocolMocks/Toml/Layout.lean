/-!
# Blanks, comments and line ends of a document

A line ends with a newline or with a carriage return and a newline. A comment runs from a hash sign
to the end of its line and may hold any character but controls; a tab is allowed.
-/

namespace ProtocolMocks.Toml

/-- Blanks within a line. -/
def isBlank (c : Char) : Bool := c == ' ' || c == '\t'

/-- Whether a character may stand in a comment or, apart from its quote, in a literal string. -/
def isPrintable (c : Char) : Bool := c == '\t' || (0x20 ≤ c.toNat && c.toNat ≠ 0x7f)

/-- Leaves out the blanks at the front. -/
def skipBlanks (cs : List Char) : List Char := cs.dropWhile isBlank

/-- What follows the line end at the front, if there is one. -/
def afterNewline? : List Char → Option (List Char)
  | '\n' :: cs => some cs
  | '\r' :: '\n' :: cs => some cs
  | _ => none

/-- Leaves out the comment at the front, if there is one. -/
def skipComment : List Char → List Char
  | '#' :: cs => cs.dropWhile isPrintable
  | cs => cs

/-- What follows the current line, if nothing but blanks and a comment is left of it. -/
def afterLine? (cs : List Char) : Option (List Char) :=
  match skipComment (skipBlanks cs) with
  | [] => some []
  | rest => afterNewline? rest

/-- Leaves out blanks, line ends and comments, given whether the text starts inside a comment. -/
def skipLayoutFrom (inComment : Bool) : List Char → List Char
  | [] => []
  | c :: cs =>
    if c = '\n' then skipLayoutFrom false cs
    else if c = '\r' && cs.head? == some '\n' then skipLayoutFrom inComment cs
    else if inComment then if isPrintable c then skipLayoutFrom true cs else c :: cs
    else if isBlank c then skipLayoutFrom false cs
    else if c = '#' then skipLayoutFrom true cs
    else c :: cs

/-- Leaves out blanks, line ends and comments. -/
def skipLayout (cs : List Char) : List Char := skipLayoutFrom false cs

end ProtocolMocks.Toml
