import ProtocolMocks.Inspection
import ProtocolMocks.Proofs.JsonReading

/-!
# Reading inspections back

What an inspection prints is a JSON list from which a reader, knowing the names of the kinds and of
the members, gets back what was inspected. The members of an object are looked up by name, so a
label that is left out is told apart from every label that is there.
-/

namespace ProtocolMocks

namespace Json

/-- The member of an object that has the name. -/
def member? (name : String) : Json → Option Json
  | .object members => members.lookup name
  | .text _ | .number _ | .list _ => none

/-- The text that the value is. -/
def text? : Json → Option String
  | .text value => some value
  | .number _ | .list _ | .object _ => none

/-- The number that the value is. -/
def number? : Json → Option Nat
  | .number value => some value
  | .text _ | .list _ | .object _ => none

/-- What the items of a list stand for, if each stands for something. -/
def listOf? {α : Type} (decode : Json → Option α) : Json → Option (List α)
  | .list items => items.mapM decode
  | .text _ | .number _ | .object _ => none

/-- A list is decoded from its form if each item is. -/
theorem listOf?_map {α : Type} {decode : Json → Option α} {encode : α → Json}
    (h : ∀ a, decode (encode a) = some a) (as : List α) :
    listOf? decode (.list (as.map encode)) = some as := by
  rw [listOf?]
  induction as with
  | nil => rfl
  | cons a as ih =>
    rw [List.map_cons, List.mapM_cons, h, ih]
    rfl

end Json

/-- The kinds of token by name; attributes and identifiers, which carry a text, are not among
them. -/
def tokenKinds : List (String × Token) :=
  [("Whitespace", .whitespace), ("Newline", .newline), ("LineComment", .lineComment),
   ("BlockComment", .blockComment), ("StringLiteral", .stringLiteral),
   ("NumberLiteral", .numberLiteral), ("Protocol", .protocolKeyword),
   ("Class", .typeKeyword .classType), ("Struct", .typeKeyword .structType),
   ("Enum", .typeKeyword .enumType), ("Extension", .typeKeyword .extensionType), ("Func", .func),
   ("Import", .importKeyword), ("Var", .varKeyword), ("Let", .letKeyword), ("Init", .initKeyword),
   ("Typealias", .typealiasKeyword), ("Associatedtype", .associatedtypeKeyword),
   ("Modifier", .modifier), ("Arrow", .arrow), ("Colon", .colon), ("Comma", .comma),
   ("LeftBrace", .leftBrace), ("RightBrace", .rightBrace), ("LeftParen", .leftParen),
   ("RightParen", .rightParen), ("LeftBracket", .leftBracket), ("RightBracket", .rightBracket),
   ("LeftAngle", .leftAngle), ("RightAngle", .rightAngle), ("Dot", .dot), ("Question", .question),
   ("Bang", .bang), ("Equals", .equals), ("Semicolon", .semicolon), ("Ampersand", .ampersand),
   ("Unknown", .unknown)]

/-- The token that a value stands for. -/
def Token.ofJson? : Json → Option Token
  | .text kind => tokenKinds.lookup kind
  | .object [("Attribute", .text name)] => some (.attribute name)
  | .object [("Identifier", .text name)] => some (.identifier name)
  | _ => none

theorem Token.ofJson?_toJson (t : Token) : ofJson? t.toJson = some t := by
  cases t with
  | typeKeyword kind => cases kind <;> rfl
  | _ => rfl

/-- The structural token that a value stands for. -/
def StructuralToken.ofJson? (value : Json) : Option StructuralToken :=
  (Token.ofJson? value).bind ofToken?

theorem StructuralToken.ofJson?_toJson (t : StructuralToken) : ofJson? t.toJson = some t := by
  rw [ofJson?, toJson, Token.ofJson?_toJson, Option.bind_some, ofToken?_toToken]

/-- The token with its span that a value stands for. -/
def Located.ofJson? {α : Type} (decode : Json → Option α) (value : Json) : Option (Located α) := do
  let token ← decode (← value.member? "token")
  let start ← (← value.member? "start").number?
  let stop ← (← value.member? "end").number?
  return ⟨token, ⟨start, stop⟩⟩

/-- A located value is decoded from its form if values are. -/
theorem Located.ofJson?_toJson {α : Type} {decode : Json → Option α} {encode : α → Json}
    (h : ∀ a, decode (encode a) = some a) (t : Located α) :
    ofJson? decode (t.toJson encode) = some t := by
  have htoken : (t.toJson encode).member? "token" = some (encode t.value) := rfl
  rw [ofJson?, htoken, Option.bind_eq_bind, Option.bind_some, h]
  rfl

/-- The parameter that a value stands for. -/
def Parameter.ofJson? (value : Json) : Option Parameter := do
  let label ← (value.member? "label").mapM Json.text?
  let name ← (← value.member? "name").text?
  let typeName ← (← value.member? "type_name").text?
  return ⟨label, name, typeName⟩

/-- A parameter is decoded from its form, with its label or without. -/
theorem Parameter.ofJson?_toJson (p : Parameter) : ofJson? p.toJson = some p := by
  obtain ⟨label, name, typeName⟩ := p
  cases label <;> rfl

/-- The required method that a value stands for. -/
def Requirement.ofJson? (value : Json) : Option Requirement := do
  let name ← (← value.member? "name").text?
  let parameters ← (← value.member? "arguments").listOf? Parameter.ofJson?
  let returnType ← (← value.member? "return_type").text?
  return ⟨name, parameters, returnType⟩

theorem Requirement.ofJson?_toJson (r : Requirement) : ofJson? r.toJson = some r := by
  have hname : r.toJson.member? "name" = some (.text r.name) := rfl
  have harguments : r.toJson.member? "arguments" =
      some (.list (r.parameters.map Parameter.toJson)) := rfl
  have hreturn : r.toJson.member? "return_type" = some (.text r.returnType) := rfl
  simp only [ofJson?, hname, harguments, hreturn, Option.bind_eq_bind, Option.bind_some,
    Json.listOf?_map Parameter.ofJson?_toJson, Json.text?]
  rfl

/-- The protocol declaration that a value stands for. -/
def ProtocolDecl.ofJson? (value : Json) : Option ProtocolDecl := do
  let name ← (← value.member? "name").text?
  let requirements ← (← value.member? "functions").listOf? Requirement.ofJson?
  let conformances ← (← value.member? "conformances").listOf? Json.text?
  return ⟨name, requirements, conformances⟩

theorem ProtocolDecl.ofJson?_toJson (p : ProtocolDecl) : ofJson? p.toJson = some p := by
  have hname : p.toJson.member? "name" = some (.text p.name) := rfl
  have hfunctions : p.toJson.member? "functions" =
      some (.list (p.requirements.map Requirement.toJson)) := rfl
  have hconformances : p.toJson.member? "conformances" =
      some (.list (p.conformances.map .text)) := rfl
  have htext : ∀ s, Json.text? (.text s) = some s := fun _ => rfl
  simp only [ofJson?, hname, hfunctions, hconformances, Option.bind_eq_bind, Option.bind_some,
    Json.listOf?_map Requirement.ofJson?_toJson, Json.listOf?_map htext, Json.text?]
  rfl

/-- The text is a JSON list, and its items stand for the given ones. -/
def Lists {α : Type} (decode : Json → Option α) (listing : String) (as : List α) : Prop :=
  ∃ items, Json.Spells (.list items) listing.toList ∧ Json.read? listing = some (.list items) ∧
    items.mapM decode = some as

section

variable {α : Type} {decode : Json → Option α} {encode : α → Json}

/-- The text of a list whose items have a JSON form. -/
def listing (encode : α → Json) (as : List α) : String := (Json.list (as.map encode)).pretty

/-- A listing is the printed form of its items. -/
theorem lists_listing (h : ∀ a, decode (encode a) = some a) (as : List α) :
    Lists decode (listing encode as) as :=
  ⟨as.map encode, Json.spells_render 0 _, Json.read?_pretty _, Json.listOf?_map h as⟩

/-- A text lists one list only. -/
theorem Lists.unique {text : String} {as bs : List α} (has : Lists decode text as)
    (hbs : Lists decode text bs) : as = bs := by
  obtain ⟨items, -, hread, hitems⟩ := has
  obtain ⟨others, -, hread', hothers⟩ := hbs
  rw [hread, Option.some.injEq, Json.list.injEq] at hread'
  rw [← hread', hitems] at hothers
  exact Option.some.inj hothers

/-- Two lists with the same listing are the same. -/
theorem listing_injective (h : ∀ a, decode (encode a) = some a) :
    Function.Injective (listing encode) := fun as bs heq =>
  (lists_listing h as).unique (heq ▸ lists_listing h bs)

end

/-- The tokens and the structural tokens of any source are listed, and its declarations if it
follows the grammar; otherwise there is only the error of the grammar. The listings are JSON lists
of just what was inspected, so lists that differ are never printed alike. -/
theorem inspections_read_back (source : String) :
    (∃ text, inspect source "token-core-json" = .ok text ∧
      Lists (Located.ofJson? Token.ofJson?) text (tokenize source) ∧
      text = listing (Located.toJson Token.toJson) (tokenize source)) ∧
    (∃ text, inspect source "token-structural-json" = .ok text ∧
      Lists (Located.ofJson? StructuralToken.ofJson?) text (structuralTokens (tokenize source)) ∧
      text = listing (Located.toJson StructuralToken.toJson) (structuralTokens (tokenize source))) ∧
    (match Source.declarations source with
      | .ok ps => ∃ text, inspect source "declarations-json" = .ok text ∧
          Lists ProtocolDecl.ofJson? text ps ∧ text = listing ProtocolDecl.toJson ps
      | .error error => inspect source "declarations-json" = .error (.grammar error)) ∧
    Function.Injective (listing (Located.toJson Token.toJson)) ∧
    Function.Injective (listing (Located.toJson StructuralToken.toJson)) ∧
    Function.Injective (listing ProtocolDecl.toJson) := by
  have htokens := Located.ofJson?_toJson Token.ofJson?_toJson
  have hstructural := Located.ofJson?_toJson StructuralToken.ofJson?_toJson
  have hdecls := ProtocolDecl.ofJson?_toJson
  have hinspect : inspect source "declarations-json" =
      ((Source.declarations source).map (listing ProtocolDecl.toJson)).mapError .grammar := rfl
  refine ⟨⟨_, rfl, lists_listing htokens _, rfl⟩, ⟨_, rfl, lists_listing hstructural _, rfl⟩, ?_,
    listing_injective htokens, listing_injective hstructural, listing_injective hdecls⟩
  rw [hinspect]
  cases Source.declarations source with
  | error error => rfl
  | ok ps => exact ⟨_, rfl, lists_listing hdecls ps, rfl⟩

end ProtocolMocks
