import ProtocolMocks.Json
import ProtocolMocks.Source

/-!
# Inspecting a source

An inspection prints what one stage of reading a source yields, as JSON.
-/

namespace ProtocolMocks

/-- What can be printed about a source. -/
inductive Inspection where
  | tokens
  | structuralTokens
  | declarations
deriving DecidableEq, Repr

/-- Why nothing is printed. -/
inductive InspectionError where
  | unknownName (name : String)
  | grammar (error : GrammarError)
deriving DecidableEq, Repr

/-- The text shown to the user. -/
def InspectionError.message : InspectionError → String
  | .unknownName name => "Unknown transform: " ++ name
  | .grammar error => "Transform failed: " ++ error.sourceMessage

/-- A token that is told by its kind alone. -/
private def kindOnly (kind : String) : Json := .text kind

/-- A token that carries a text besides its kind. -/
private def kindWithText (kind text : String) : Json := .object [(kind, .text text)]

/-- The JSON form of a token: its kind, with the text of names and attributes. -/
def Token.toJson : Token → Json
  | .whitespace => kindOnly "Whitespace"
  | .newline => kindOnly "Newline"
  | .lineComment => kindOnly "LineComment"
  | .blockComment => kindOnly "BlockComment"
  | .stringLiteral => kindOnly "StringLiteral"
  | .numberLiteral => kindOnly "NumberLiteral"
  | .typeKeyword .protocolType => kindOnly "Protocol"
  | .typeKeyword .classType => kindOnly "Class"
  | .typeKeyword .structType => kindOnly "Struct"
  | .typeKeyword .enumType => kindOnly "Enum"
  | .typeKeyword .extensionType => kindOnly "Extension"
  | .func => kindOnly "Func"
  | .importKeyword => kindOnly "Import"
  | .varKeyword => kindOnly "Var"
  | .letKeyword => kindOnly "Let"
  | .initKeyword => kindOnly "Init"
  | .typealiasKeyword => kindOnly "Typealias"
  | .associatedtypeKeyword => kindOnly "Associatedtype"
  | .modifier => kindOnly "Modifier"
  | .attribute name => kindWithText "Attribute" name
  | .identifier name => kindWithText "Identifier" name
  | .arrow => kindOnly "Arrow"
  | .colon => kindOnly "Colon"
  | .comma => kindOnly "Comma"
  | .leftBrace => kindOnly "LeftBrace"
  | .rightBrace => kindOnly "RightBrace"
  | .leftParen => kindOnly "LeftParen"
  | .rightParen => kindOnly "RightParen"
  | .leftBracket => kindOnly "LeftBracket"
  | .rightBracket => kindOnly "RightBracket"
  | .leftAngle => kindOnly "LeftAngle"
  | .rightAngle => kindOnly "RightAngle"
  | .dot => kindOnly "Dot"
  | .question => kindOnly "Question"
  | .bang => kindOnly "Bang"
  | .equals => kindOnly "Equals"
  | .semicolon => kindOnly "Semicolon"
  | .ampersand => kindOnly "Ampersand"
  | .unknown => kindOnly "Unknown"

/-- The JSON form of a structural token is that of the token it stands for. -/
def StructuralToken.toJson (t : StructuralToken) : Json := t.toToken.toJson

/-- The JSON form of a token with its span. -/
def Located.toJson {α : Type} (valueJson : α → Json) (t : Located α) : Json :=
  .object [("token", valueJson t.value), ("start", .number t.span.start),
    ("end", .number t.span.stop)]

/-- The JSON form of a parameter; a missing label is left out. -/
def Parameter.toJson (p : Parameter) : Json :=
  .object ((p.label.map fun label => ("label", Json.text label)).toList ++
    [("name", .text p.name), ("type_name", .text p.typeName)])

/-- The JSON form of a required method. -/
def Requirement.toJson (r : Requirement) : Json :=
  .object [("name", .text r.name), ("arguments", .list (r.parameters.map Parameter.toJson)),
    ("return_type", .text r.returnType)]

/-- The JSON form of a protocol declaration. -/
def ProtocolDecl.toJson (p : ProtocolDecl) : Json :=
  .object [("name", .text p.name), ("functions", .list (p.requirements.map Requirement.toJson)),
    ("conformances", .list (p.conformances.map .text))]

namespace Inspection

/-- All inspections, in the order they are listed. -/
def all : List Inspection := [.tokens, .structuralTokens, .declarations]

/-- The name that selects the inspection. -/
def name : Inspection → String
  | .tokens => "token-core-json"
  | .structuralTokens => "token-structural-json"
  | .declarations => "declarations-json"

/-- The inspection of the given name. -/
def ofName? (name : String) : Option Inspection := all.find? (·.name == name)

/-- What the inspection prints about a source. -/
def run (source : String) : Inspection → Except GrammarError String
  | .tokens => .ok (Json.list ((tokenize source).map (·.toJson Token.toJson))).pretty
  | .structuralTokens =>
    .ok (Json.list ((Source.structuralTokens source).map (·.toJson StructuralToken.toJson))).pretty
  | .declarations =>
    (Source.declarations source).map fun ps => (Json.list (ps.map ProtocolDecl.toJson)).pretty

end Inspection

/-- What the inspection of the given name prints about a source. -/
def inspect (source name : String) : Except InspectionError String :=
  match Inspection.ofName? name with
  | none => .error (.unknownName name)
  | some inspection => (inspection.run source).mapError .grammar

end ProtocolMocks
