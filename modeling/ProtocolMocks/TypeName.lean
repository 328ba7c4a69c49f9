import ProtocolMocks.Span
import ProtocolMocks.Token

/-!
# Names of declared types

A type name is an identifier that follows a type keyword with nothing but trivia in between. The
listing therefore ignores `class func` and the constraint in `protocol P: class`.
-/

namespace ProtocolMocks

/-- A named type that a source declares or extends. -/
structure TypeName where
  kind : TypeKind
  name : String
deriving DecidableEq, Repr

/-- One line of the listing. -/
def TypeName.description (t : TypeName) : String := t.kind.keyword ++ " " ++ t.name

/-- The kind of declaration that a token introduces. -/
def Token.introducedKind? : Token → Option TypeKind
  | .typeKeyword kind => some kind
  | _ => none

/-- The names in a list without trivia, when the token before the list introduces the given kind. -/
def typeNamesAfter : Option TypeKind → List Token → List TypeName
  | _, [] => []
  | some kind, .identifier name :: tokens => ⟨kind, name⟩ :: typeNamesAfter none tokens
  | _, token :: tokens => typeNamesAfter token.introducedKind? tokens

/-- Every type that a token list declares or extends, in order. -/
def typeNames (tokens : List (Located Token)) : List TypeName :=
  typeNamesAfter none ((tokens.map Located.value).filter (!·.isTrivia))

end ProtocolMocks
