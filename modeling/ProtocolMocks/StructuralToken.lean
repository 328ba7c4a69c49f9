import ProtocolMocks.Span
import ProtocolMocks.Token

/-!
# Structural tokens

The tokens that the grammar of protocol declarations is written in. `ofToken?` projects a token
onto them, `toToken` reads one back, and the two are inverse to each other where both apply.
-/

namespace ProtocolMocks

/-- A token that the grammar of protocol declarations mentions. -/
inductive StructuralToken where
  | protocolKeyword
  | func
  | identifier (name : String)
  | colon
  | leftBrace
  | rightBrace
  | leftParen
  | rightParen
  | comma
  | arrow
deriving DecidableEq, Repr

namespace StructuralToken

/-- The structural token of the same kind and text, if the token has one. -/
def ofToken? : Token → Option StructuralToken
  | .protocolKeyword => some .protocolKeyword
  | .func => some .func
  | .identifier name => some (.identifier name)
  | .colon => some .colon
  | .leftBrace => some .leftBrace
  | .rightBrace => some .rightBrace
  | .leftParen => some .leftParen
  | .rightParen => some .rightParen
  | .comma => some .comma
  | .arrow => some .arrow
  | _ => none

/-- The token of the same kind and text. -/
def toToken : StructuralToken → Token
  | .protocolKeyword => .protocolKeyword
  | .func => .func
  | .identifier name => .identifier name
  | .colon => .colon
  | .leftBrace => .leftBrace
  | .rightBrace => .rightBrace
  | .leftParen => .leftParen
  | .rightParen => .rightParen
  | .comma => .comma
  | .arrow => .arrow

@[simp] theorem ofToken?_toToken (t : StructuralToken) : ofToken? t.toToken = some t := by
  cases t <;> rfl

/-- A token has a structural form if, and only if, it is the token of that form. -/
theorem ofToken?_eq_some_iff {t : Token} {s : StructuralToken} :
    ofToken? t = some s ↔ t = s.toToken := by
  constructor
  · intro h
    unfold ofToken? at h
    split at h <;> cases h <;> rfl
  · rintro rfl
    exact ofToken?_toToken s

/-- How a message shows the token. -/
def description : StructuralToken → String
  | .protocolKeyword => "`protocol`"
  | .func => "`func`"
  | .identifier name => "identifier `" ++ name ++ "`"
  | .colon => "`:`"
  | .leftBrace => "`\x7b`"
  | .rightBrace => "`\x7d`"
  | .leftParen => "`(`"
  | .rightParen => "`)`"
  | .comma => "`,`"
  | .arrow => "`->`"

end StructuralToken

end ProtocolMocks
