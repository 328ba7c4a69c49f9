import ProtocolMocks.StructuralToken

/-!
# Grammar errors

A stream of structural tokens leaves the grammar at one token, or ends too early. The error tells
what would have been accepted there, what stands there instead, and where.
-/

namespace ProtocolMocks

/-- What the grammar accepts at the place where a stream leaves it. -/
inductive Expected where
  | protocolKeyword
  | protocolName
  | conformanceName
  | openingBrace
  | requirementOrClosingBrace
  | functionName
  | openingParen
  | argumentName
  | colon
  | typeName
  | commaOrClosingParen
  /-- Asked for only where the keyword has already been seen. -/
  | func
  /-- Asked for only where the brace has already been seen. -/
  | closingBrace
deriving DecidableEq, Repr

/-- How a message names the expectation. -/
def Expected.description : Expected → String
  | .protocolKeyword => "`protocol`"
  | .protocolName => "protocol name"
  | .conformanceName => "conformance name"
  | .openingBrace => "`\x7b`"
  | .requirementOrClosingBrace => "`func` or `\x7d`"
  | .functionName => "function name"
  | .openingParen => "`(`"
  | .argumentName => "argument name"
  | .colon => "`:`"
  | .typeName => "type name"
  | .commaOrClosingParen => "`,` or `)`"
  | .func => "`func`"
  | .closingBrace => "`\x7d`"

/-- The first place where a stream cannot be continued to a list of declarations. -/
structure GrammarError where
  expected : Expected
  /-- The token at that place, or nothing at the end of the stream. -/
  found : Option StructuralToken
  span : Span
deriving DecidableEq, Repr

/-- The text shown to the user. -/
def GrammarError.message (e : GrammarError) : String :=
  "Invalid syntax: expected " ++ e.expected.description ++
    match e.found with
    | some token => ", found " ++ token.description ++ " at byte " ++ toString e.span.start
    | none => ", found end of input"

end ProtocolMocks
