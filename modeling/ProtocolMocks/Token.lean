/-!
# Tokens of a Swift source

Every character of a source belongs to exactly one token. Only the small part of the language that
protocol declarations and type names need is told apart precisely; the rest is still classified, so
that later stages leave it out on purpose.
-/

namespace ProtocolMocks

/-- The kinds of declaration that introduce or extend a named type. -/
inductive TypeKind where
  | classType
  | structType
  | enumType
  | extensionType
  | protocolType
deriving DecidableEq, Repr

/-- The keyword that introduces a declaration of this kind. -/
def TypeKind.keyword : TypeKind → String
  | .classType => "class"
  | .structType => "struct"
  | .enumType => "enum"
  | .extensionType => "extension"
  | .protocolType => "protocol"

/-- A classified piece of source text. -/
inductive Token where
  | whitespace
  | newline
  | lineComment
  | blockComment
  | stringLiteral
  | numberLiteral
  /-- A keyword that introduces a type declaration. -/
  | typeKeyword (kind : TypeKind)
  | func
  | importKeyword
  | varKeyword
  | letKeyword
  | initKeyword
  | typealiasKeyword
  | associatedtypeKeyword
  /-- Any modifier or effect keyword. -/
  | modifier
  /-- An attribute; the text leaves out the at sign. -/
  | attribute (name : String)
  | identifier (name : String)
  | arrow
  | colon
  | comma
  | leftBrace
  | rightBrace
  | leftParen
  | rightParen
  | leftBracket
  | rightBracket
  | leftAngle
  | rightAngle
  | dot
  | question
  | bang
  | equals
  | semicolon
  | ampersand
  /-- Text that no other kind describes. -/
  | unknown
deriving DecidableEq, Repr

namespace Token

/-- The keyword that opens a protocol declaration. -/
@[match_pattern] abbrev protocolKeyword : Token := typeKeyword .protocolType

/-- Layout and comments carry no meaning. -/
def isTrivia : Token → Bool
  | .whitespace | .newline | .lineComment | .blockComment => true
  | _ => false

/-- What a message calls the token. -/
def description : Token → String
  | .whitespace => "whitespace"
  | .newline => "newline"
  | .lineComment => "comment"
  | .blockComment => "comment"
  | .stringLiteral => "string literal"
  | .numberLiteral => "number literal"
  | .typeKeyword kind => kind.keyword
  | .func => "func"
  | .importKeyword => "import"
  | .varKeyword => "var"
  | .letKeyword => "let"
  | .initKeyword => "init"
  | .typealiasKeyword => "typealias"
  | .associatedtypeKeyword => "associatedtype"
  | .modifier => "modifier"
  | .attribute name => "@" ++ name
  | .identifier name => name
  | .arrow => "->"
  | .colon => ":"
  | .comma => ","
  | .leftBrace => "\x7b"
  | .rightBrace => "\x7d"
  | .leftParen => "("
  | .rightParen => ")"
  | .leftBracket => "["
  | .rightBracket => "]"
  | .leftAngle => "<"
  | .rightAngle => ">"
  | .dot => "."
  | .question => "?"
  | .bang => "!"
  | .equals => "="
  | .semicolon => ";"
  | .ampersand => "&"
  | .unknown => "unknown"

end Token

end ProtocolMocks
