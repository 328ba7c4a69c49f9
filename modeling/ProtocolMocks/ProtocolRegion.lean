import ProtocolMocks.StructuralToken

/-!
# Protocol regions

Only the tokens of protocol declarations are parsed. A region starts at a `protocol` keyword outside
all earlier regions and ends with the brace that closes the first one opened after it, however many
blocks are nested in between. `structuralTokens` keeps the structural tokens of all regions.
-/

namespace ProtocolMocks

/-- Where a token stands relative to the protocol regions. -/
inductive Scope where
  | outside
  /-- After the keyword and before the first opening brace. -/
  | header
  /-- Inside the given number of open braces, at least one. -/
  | body (depth : Nat)
deriving DecidableEq, Repr

namespace Scope

/-- The scope after a token. -/
def next : Scope → Token → Scope
  | outside, .protocolKeyword => header
  | outside, _ => outside
  | header, .leftBrace => body 1
  | body depth, .leftBrace => body (depth + 1)
  | body 1, .rightBrace => outside
  | body depth, .rightBrace => body (depth - 1)
  | scope, _ => scope

/-- The scope after a run of tokens. -/
def after (scope : Scope) (tokens : List (Located Token)) : Scope :=
  tokens.foldl (fun scope token => scope.next token.value) scope

/-- Whether a token met in this scope belongs to a region. -/
def covers : Scope → Token → Bool
  | outside, .protocolKeyword => true
  | outside, _ => false
  | _, _ => true

end Scope

/-- The structural tokens of all regions, when the list is entered in the given scope. -/
def structuralTokensFrom : Scope → List (Located Token) → List (Located StructuralToken)
  | _, [] => []
  | scope, token :: tokens =>
    let rest := structuralTokensFrom (scope.next token.value) tokens
    if scope.covers token.value then
      match StructuralToken.ofToken? token.value with
      | some kept => ⟨kept, token.span⟩ :: rest
      | none => rest
    else rest

/-- The structural tokens of all protocol declarations, in order and with their spans. -/
def structuralTokens (tokens : List (Located Token)) : List (Located StructuralToken) :=
  structuralTokensFrom .outside tokens

end ProtocolMocks
