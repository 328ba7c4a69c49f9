import ProtocolMocks.Span
import ProtocolMocks.Token

/-!
# Splitting a source into tokens

`scan` takes the longest token off the front of a non-empty text. It never fails: text without a
rule becomes `Token.unknown`. `lexemes` repeats it until nothing is left, and `locate` lays the
pieces end to end to give each token its span.

The main facts are that `scan` splits its input in two (`scan_text_append`) and always takes
something (`scan_text_ne_nil`), so that `lexemes` ends and its texts concatenate to the source
(`flatten_lexemes`).
-/

namespace ProtocolMocks

/-- A token together with the characters it was read from. -/
structure Lexeme where
  token : Token
  text : List Char
deriving DecidableEq, Repr

namespace Token

/-- Blanks within a line; a carriage return is one of them. -/
def isBlank (c : Char) : Bool := c == ' ' || c == '\t' || c == '\r'

/-- Identifiers are made of ASCII letters, digits and underscores. -/
def isIdentifierPart (c : Char) : Bool := c.isAlphanum || c == '_'

/-- An identifier does not start with a digit. -/
def isIdentifierStart (c : Char) : Bool := c.isAlpha || c == '_'

/-- Digits may be grouped by underscores after the first. -/
def isNumberPart (c : Char) : Bool := c.isDigit || c == '_'

/-- The words that are not identifiers. -/
def keywords : List (String × Token) :=
  [("protocol", .protocolKeyword), ("func", .func), ("class", .typeKeyword .classType),
   ("struct", .typeKeyword .structType), ("enum", .typeKeyword .enumType),
   ("extension", .typeKeyword .extensionType), ("import", .importKeyword), ("var", .varKeyword),
   ("let", .letKeyword), ("init", .initKeyword), ("typealias", .typealiasKeyword),
   ("associatedtype", .associatedtypeKeyword), ("static", .modifier), ("mutating", .modifier),
   ("throws", .modifier), ("rethrows", .modifier), ("async", .modifier), ("where", .modifier),
   ("public", .modifier), ("private", .modifier), ("fileprivate", .modifier),
   ("internal", .modifier)]

/-- The token that a word stands for. -/
def ofWord (word : String) : Token := (keywords.lookup word).getD (.identifier word)

/-- The characters that are a token on their own. -/
def punctuation : List (Char × Token) :=
  [(':', .colon), (',', .comma), ('{', .leftBrace), ('}', .rightBrace), ('(', .leftParen),
   (')', .rightParen), ('[', .leftBracket), (']', .rightBracket), ('<', .leftAngle),
   ('>', .rightAngle), ('.', .dot), ('?', .question), ('!', .bang), ('=', .equals),
   (';', .semicolon), ('&', .ampersand)]

/-- Splits the inside of a block comment, closing mark included, from what follows it. A comment
that is never closed takes everything. -/
def splitComment : List Char → List Char × List Char
  | [] => ([], [])
  | '*' :: '/' :: cs => (['*', '/'], cs)
  | c :: cs => (c :: (splitComment cs).1, (splitComment cs).2)

/-- Splits the longest string body from what follows it. A body is made of characters other than
the quote, the backslash and the newline, and of backslashes with the character they escape, which
may not be a newline. -/
def splitString : List Char → List Char × List Char
  | [] => ([], [])
  | ['\\'] => ([], ['\\'])
  | '\\' :: c :: cs =>
    if c = '\n' then ([], '\\' :: c :: cs)
    else ('\\' :: c :: (splitString cs).1, (splitString cs).2)
  | c :: cs =>
    if c = '"' ∨ c = '\n' then ([], c :: cs)
    else (c :: (splitString cs).1, (splitString cs).2)

/-- Takes the longest run of characters in a class, the given first character included. -/
def scanRun (inClass : Char → Bool) (kind : List Char → Token) (c : Char) (cs : List Char) :
    Lexeme × List Char :=
  (⟨kind (c :: cs.takeWhile inClass), c :: cs.takeWhile inClass⟩, cs.dropWhile inClass)

/-- Takes a comment, or a slash that opens none. -/
def scanSlash : List Char → Lexeme × List Char
  | '/' :: cs => (⟨.lineComment, '/' :: '/' :: cs.takeWhile (· != '\n')⟩, cs.dropWhile (· != '\n'))
  | '*' :: cs => (⟨.blockComment, '/' :: '*' :: (splitComment cs).1⟩, (splitComment cs).2)
  | cs => (⟨.unknown, ['/']⟩, cs)

/-- Takes a string literal. A string that does not close is unknown text as far as it goes. -/
def scanQuote (cs : List Char) : Lexeme × List Char :=
  match (splitString cs).2 with
  | '"' :: rest => (⟨.stringLiteral, '"' :: (splitString cs).1 ++ ['"']⟩, rest)
  | rest => (⟨.unknown, '"' :: (splitString cs).1⟩, rest)

/-- Takes an attribute, or an at sign without a name. -/
def scanAt : List Char → Lexeme × List Char
  | c :: cs =>
    if isIdentifierStart c then
      (⟨.attribute (String.ofList (c :: cs.takeWhile isIdentifierPart)),
        '@' :: c :: cs.takeWhile isIdentifierPart⟩, cs.dropWhile isIdentifierPart)
    else (⟨.unknown, ['@']⟩, c :: cs)
  | [] => (⟨.unknown, ['@']⟩, [])

/-- Takes an arrow, or a hyphen on its own. -/
def scanHyphen : List Char → Lexeme × List Char
  | '>' :: cs => (⟨.arrow, ['-', '>']⟩, cs)
  | cs => (⟨.unknown, ['-']⟩, cs)

/-- Takes the longest token off the front of the text `c :: cs`. -/
def scan (c : Char) (cs : List Char) : Lexeme × List Char :=
  if isBlank c then scanRun isBlank (fun _ => .whitespace) c cs
  else if c = '\n' then (⟨.newline, ['\n']⟩, cs)
  else if isIdentifierStart c then
    scanRun isIdentifierPart (fun word => ofWord (String.ofList word)) c cs
  else if c.isDigit then scanRun isNumberPart (fun _ => .numberLiteral) c cs
  else if c = '/' then scanSlash cs
  else if c = '"' then scanQuote cs
  else if c = '@' then scanAt cs
  else if c = '-' then scanHyphen cs
  else (⟨(punctuation.lookup c).getD .unknown, [c]⟩, cs)

/-- A comment that is split off and what is left make up the text. -/
theorem splitComment_append (cs : List Char) :
    (splitComment cs).1 ++ (splitComment cs).2 = cs := by
  fun_induction splitComment cs with
  | case1 => rfl
  | case2 cs => rfl
  | case3 c cs _ ih => simp [ih]

/-- A string that is split off and what is left make up the text. -/
theorem splitString_append (cs : List Char) :
    (splitString cs).1 ++ (splitString cs).2 = cs := by
  fun_induction splitString cs <;> simp_all

/-- What is scanned from a quote and what is left make up the text. -/
theorem scanQuote_append (cs : List Char) :
    (scanQuote cs).1.text ++ (scanQuote cs).2 = '"' :: cs := by
  have split := splitString_append cs
  unfold scanQuote
  split <;> simp_all

/-- What `scan` takes and what it leaves make up the text. -/
theorem scan_text_append (c : Char) (cs : List Char) :
    (scan c cs).1.text ++ (scan c cs).2 = c :: cs := by
  unfold scan
  repeat' split
  · simp [scanRun, List.takeWhile_append_dropWhile]
  · simp_all
  · simp [scanRun, List.takeWhile_append_dropWhile]
  · simp [scanRun, List.takeWhile_append_dropWhile]
  · unfold scanSlash
    split <;> simp_all [splitComment_append, List.takeWhile_append_dropWhile]
  · simp_all [scanQuote_append]
  · unfold scanAt
    repeat' split
    all_goals simp_all [List.takeWhile_append_dropWhile]
  · unfold scanHyphen
    split <;> simp_all
  · rfl

/-- Every scan takes at least one character. -/
theorem scan_text_ne_nil (c : Char) (cs : List Char) : (scan c cs).1.text ≠ [] := by
  unfold scan scanRun scanSlash scanQuote scanAt scanHyphen
  repeat' split
  all_goals simp

/-- What is scanned is not empty, so less of the text is left. -/
theorem length_scan_lt (c : Char) (cs : List Char) :
    (scan c cs).2.length < (c :: cs).length := by
  have split := congrArg List.length (scan_text_append c cs)
  have taken := List.length_pos_iff.2 (scan_text_ne_nil c cs)
  simp only [List.length_append] at split
  omega

end Token

/-- The tokens of a text in order, each with its characters. -/
def lexemes : List Char → List Lexeme
  | [] => []
  | c :: cs => (Token.scan c cs).1 :: lexemes (Token.scan c cs).2
termination_by cs => cs.length
decreasing_by exact Token.length_scan_lt c cs

/-- Nothing of the text is lost or added. -/
theorem flatten_lexemes (cs : List Char) : ((lexemes cs).map Lexeme.text).flatten = cs := by
  fun_induction lexemes cs with
  | case1 => rfl
  | case2 c cs ih => simp [ih, Token.scan_text_append]

/-- Lays lexemes end to end from a byte offset. -/
def locate : Nat → List Lexeme → List (Located Token)
  | _, [] => []
  | offset, l :: ls =>
    ⟨l.token, ⟨offset, offset + byteLength l.text⟩⟩ :: locate (offset + byteLength l.text) ls

/-- The tokens of a source with their spans. -/
def tokenize (source : String) : List (Located Token) := locate 0 (lexemes source.toList)

end ProtocolMocks
