import ProtocolMocks.Token.Lexer
import ProtocolMocks.ProtocolRegion
import ProtocolMocks.Declaration.Parser
import ProtocolMocks.TypeName
import ProtocolMocks.Mock

/-!
# What can be learned from a source

The stages of reading a source, each named for what it produces. Only the grammar can reject a
source, so listing its tokens and its type names always succeeds.
-/

namespace ProtocolMocks.Source

/-- The structural tokens of the protocol declarations in a source. -/
def structuralTokens (source : String) : List (Located StructuralToken) :=
  ProtocolMocks.structuralTokens (tokenize source)

/-- The protocol declarations in a source. -/
def declarations (source : String) : Except GrammarError (List ProtocolDecl) :=
  parseDeclarations (structuralTokens source)

/-- The types that a source declares or extends. -/
def typeNames (source : String) : List TypeName := ProtocolMocks.typeNames (tokenize source)

/-- The mock classes for the selected protocols of a source. -/
def mocks (options : MockOptions) (source : String) : Except GrammarError String :=
  (declarations source).map (Mock.generate options)

end ProtocolMocks.Source

namespace ProtocolMocks.GrammarError

/-- The error as a failure of the stage that reads declarations. -/
def stageMessage (e : GrammarError) : String := "Stage 'parsing' failed: " ++ e.message

/-- The error as a failure to make something of a source. -/
def sourceMessage (e : GrammarError) : String := "Transform error: " ++ e.stageMessage

end ProtocolMocks.GrammarError
