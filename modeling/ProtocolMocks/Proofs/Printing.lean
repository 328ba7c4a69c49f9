import ProtocolMocks.Mock.Member
import ProtocolMocks.Proofs.Grammar
import ProtocolMocks.Proofs.Reading
import ProtocolMocks.Proofs.Regions

/-!
# Printed declarations

Declarations are printed with the signature of each requirement on a line of its own. As long as all
names are plain identifiers, the lexer cuts the print apart where the printer put it together, and
what the grammar wants to see among its tokens spells the declaration.
-/

namespace ProtocolMocks

open Token

/-- The protocols that a declaration conforms to, behind a colon. -/
def ProtocolDecl.conformanceClause (p : ProtocolDecl) : String :=
  if p.conformances = [] then "" else ": " ++ ", ".intercalate p.conformances

/-- A requirement as a line in the body of a protocol. -/
def Requirement.line (indent : String) (r : Requirement) : String :=
  indent ++ r.signature ++ "\n"

/-- A protocol declaration as it is written in a source. -/
def ProtocolDecl.print (indent : String) (p : ProtocolDecl) : String :=
  "protocol " ++ p.name ++ p.conformanceClause ++ " \x7b\n" ++
    String.join (p.requirements.map (Requirement.line indent)) ++ "\x7d\n"

/-- A source that consists of protocol declarations. -/
def printDeclarations (indent : String) (decls : List ProtocolDecl) : String :=
  String.join (decls.map (ProtocolDecl.print indent))

example : printDeclarations "  " [⟨"P", [⟨"f", [], "Int"⟩], ["Q", "R"]⟩] =
    "protocol P: Q, R \x7b\n  func f() -> Int\n\x7d\n" := by decide

/-- All names of a parameter are identifiers. -/
structure Parameter.Plain (p : Parameter) : Prop where
  label : ∀ label ∈ p.label, PlainIdentifier label
  name : PlainIdentifier p.name
  typeName : PlainIdentifier p.typeName

instance : DecidablePred Parameter.Plain := fun p =>
  decidable_of_iff ((∀ label ∈ p.label, PlainIdentifier label) ∧ PlainIdentifier p.name ∧
    PlainIdentifier p.typeName)
    ⟨fun h => ⟨h.1, h.2.1, h.2.2⟩, fun h => ⟨h.label, h.name, h.typeName⟩⟩

/-- All names of a requirement are identifiers. -/
structure Requirement.Plain (r : Requirement) : Prop where
  name : PlainIdentifier r.name
  parameters : ∀ p ∈ r.parameters, p.Plain
  returnType : PlainIdentifier r.returnType

instance : DecidablePred Requirement.Plain := fun r =>
  decidable_of_iff (PlainIdentifier r.name ∧ (∀ p ∈ r.parameters, p.Plain) ∧
    PlainIdentifier r.returnType)
    ⟨fun h => ⟨h.1, h.2.1, h.2.2⟩, fun h => ⟨h.name, h.parameters, h.returnType⟩⟩

/-- All names of a declaration are identifiers. -/
structure ProtocolDecl.Plain (p : ProtocolDecl) : Prop where
  name : PlainIdentifier p.name
  requirements : ∀ r ∈ p.requirements, r.Plain
  conformances : ∀ name ∈ p.conformances, PlainIdentifier name

instance : DecidablePred ProtocolDecl.Plain := fun p =>
  decidable_of_iff (PlainIdentifier p.name ∧ (∀ r ∈ p.requirements, r.Plain) ∧
    ∀ name ∈ p.conformances, PlainIdentifier name)
    ⟨fun h => ⟨h.1, h.2.1, h.2.2⟩, fun h => ⟨h.name, h.requirements, h.conformances⟩⟩

/-- In front of the rest the text is read as the given structural tokens, none of them a brace, with
nothing but spacing between them. -/
def ReadsAs (text : List Char) (kept : List StructuralToken) (rest : List Char) : Prop :=
  Shows text (kept.map StructuralToken.toToken) rest ∧
    ∀ s ∈ kept, s ≠ .leftBrace ∧ s ≠ .rightBrace

/-- An empty text is read as no tokens. -/
theorem readsAs_nil (rest : List Char) : ReadsAs [] [] rest :=
  ⟨shows_nil rest, List.forall_mem_nil _⟩

/-- Two texts that are read as tokens in front of what follows them are read so next to each
other. -/
theorem ReadsAs.append {text text' rest : List Char} {kept kept' : List StructuralToken}
    (h : ReadsAs text kept (text' ++ rest)) (h' : ReadsAs text' kept' rest) :
    ReadsAs (text ++ text') (kept ++ kept') rest := by
  refine ⟨?_, List.forall_mem_append.2 ⟨h.2, h'.2⟩⟩
  rw [List.map_append]
  exact h.1.append h'.1

/-- Spacing has no structural form, so it may be left out first. -/
theorem filterMap_ofToken?_filter_isSpacing (tokens : List Token) :
    (tokens.filter (!·.isSpacing)).filterMap StructuralToken.ofToken? =
      tokens.filterMap StructuralToken.ofToken? := by
  rw [List.filterMap_filter]
  refine congrArg (tokens.filterMap ·) (funext fun t => ?_)
  cases t <;> rfl

/-- Spacing aside, the tokens are the structural ones, and there are no braces among them. -/
theorem ReadsAs.exists_braceless {text rest : List Char} {kept : List StructuralToken}
    (h : ReadsAs text kept rest) :
    ∃ tokens, tokensOf (text ++ rest) = tokens ++ tokensOf rest ∧ Braceless tokens ∧
      tokens.filterMap StructuralToken.ofToken? = kept := by
  obtain ⟨⟨tokens, htokens, hshown⟩, hbraces⟩ := h
  have hkept : tokens.filterMap StructuralToken.ofToken? = kept := by
    have hinverse : StructuralToken.ofToken? ∘ StructuralToken.toToken = some :=
      funext StructuralToken.ofToken?_toToken
    rw [← filterMap_ofToken?_filter_isSpacing, hshown, List.filterMap_map, hinverse,
      List.filterMap_some]
  have hnone : ∀ s : StructuralToken, s ∉ kept → s.toToken ∉ tokens := by
    intro s hs hmem
    refine hs ?_
    rw [← hkept]
    exact List.mem_filterMap.2 ⟨_, hmem, StructuralToken.ofToken?_toToken s⟩
  have hleft := hnone .leftBrace fun hmem => (hbraces _ hmem).1 rfl
  have hright := hnone .rightBrace fun hmem => (hbraces _ hmem).2 rfl
  refine ⟨tokens, htokens, fun t ht => ⟨?_, ?_⟩, hkept⟩
  · rintro rfl
    exact hleft ht
  · rintro rfl
    exact hright ht

theorem readsAs_name {name : String} (h : PlainIdentifier name) {rest : List Char}
    (hrest : Stops isIdentifierPart rest) : ReadsAs name.toList [.identifier name] rest :=
  ⟨shows_name h hrest, by simp⟩

theorem readsAs_func {rest : List Char} (hrest : Stops isIdentifierPart rest) :
    ReadsAs "func".toList [.func] rest := by
  exact ⟨shows_keyword "func" .func (by decide) hrest, by decide⟩

/-- A punctuation mark other than a brace is read as itself. -/
theorem readsAs_mark (c : Char) (s : StructuralToken) (h : (c, s.toToken) ∈ punctuation)
    (hbraces : s ≠ .leftBrace ∧ s ≠ .rightBrace) (rest : List Char) : ReadsAs [c] [s] rest :=
  ⟨shows_mark c s.toToken h rest, List.forall_mem_singleton.2 hbraces⟩

theorem readsAs_arrow (rest : List Char) : ReadsAs ['-', '>'] [.arrow] rest :=
  ⟨shows_arrow rest, by decide⟩

theorem readsAs_newline (rest : List Char) : ReadsAs ['\n'] [] rest :=
  ⟨shows_newline rest, List.forall_mem_nil _⟩

/-- A run of blanks is read as no tokens in front of anything that does not go on with blanks. -/
theorem readsAs_blanks {blanks rest : List Char} (h : ∀ c ∈ blanks, isBlank c = true)
    (hrest : Stops isBlank rest) : ReadsAs blanks [] rest :=
  ⟨shows_blanks h hrest, List.forall_mem_nil _⟩

theorem readsAs_space {rest : List Char} (hrest : Stops isBlank rest) : ReadsAs [' '] [] rest :=
  ⟨shows_space hrest, List.forall_mem_nil _⟩

/-- The text of an item starts with a word and is read as a spelling of the item in front of
anything that does not continue its last word. -/
structure Prints {α : Type} (Item : α → List StructuralToken → Prop) (value : α)
    (text : List Char) : Prop where
  starts : ∀ rest, Stops isBlank (text ++ rest)
  reads : ∀ rest, Stops isIdentifierPart rest → ∃ kept, Item value kept ∧ ReadsAs text kept rest

/-- A plain identifier is printed so that it is read again. -/
theorem prints_name {name : String} (h : PlainIdentifier name) :
    Prints SpelledName name name.toList where
  starts := h.shape.stops_isBlank
  reads _ hrest := ⟨_, .mk name, readsAs_name h hrest⟩

/-- The colon and the type behind a name. -/
theorem readsAs_typeClause {typeName : String} (h : PlainIdentifier typeName) {rest : List Char}
    (hrest : Stops isIdentifierPart rest) :
    ReadsAs (':' :: ' ' :: typeName.toList) [.colon, .identifier typeName] rest := by
  have hcolon := readsAs_mark ':' .colon (by decide) (by decide)
    (' ' :: (typeName.toList ++ rest))
  have hspace := readsAs_space (h.shape.stops_isBlank rest)
  exact hcolon.append (hspace.append (readsAs_name h hrest))

/-- A plain parameter is printed so that it is read again. -/
theorem prints_parameter {p : Parameter} (h : p.Plain) :
    Prints Parameter.SpelledBy p p.spelling.toList := by
  obtain ⟨label, name, typeName⟩ := p
  obtain ⟨hlabel, hname, htype⟩ := h
  have hclause : ∀ rest, Stops isIdentifierPart rest →
      ReadsAs (name.toList ++ ':' :: ' ' :: typeName.toList)
        [.identifier name, .colon, .identifier typeName] rest := by
    intro rest hrest
    have htypeClause := readsAs_typeClause htype hrest
    exact (readsAs_name hname (stops_cons_iff.2 rfl)).append htypeClause
  cases label with
  | none =>
    have htext : (Parameter.spelling ⟨none, name, typeName⟩).toList =
        name.toList ++ ':' :: ' ' :: typeName.toList := by
      simp [Parameter.spelling]
    rw [htext]
    refine ⟨fun rest => ?_, fun rest hrest => ⟨_, .unlabelled name typeName, hclause rest hrest⟩⟩
    rw [List.append_assoc]
    exact hname.shape.stops_isBlank _
  | some label =>
    have hlabel := hlabel label rfl
    have htext : (Parameter.spelling ⟨some label, name, typeName⟩).toList =
        label.toList ++ ([' '] ++ (name.toList ++ ':' :: ' ' :: typeName.toList)) := by
      simp [Parameter.spelling]
    rw [htext]
    refine ⟨fun rest => ?_, fun rest hrest => ⟨_, .labelled label name typeName, ?_⟩⟩
    · rw [List.append_assoc]
      exact hlabel.shape.stops_isBlank _
    · have hstop : Stops isBlank (name.toList ++ ':' :: ' ' :: typeName.toList ++ rest) := by
        rw [List.append_assoc]
        exact hname.shape.stops_isBlank _
      have hspace := readsAs_space hstop
      have hnext := hspace.append (hclause rest hrest)
      exact (readsAs_name hlabel (stops_cons_iff.2 rfl)).append hnext

/-- A list with commas is printed so that it is read again if each item is. -/
theorem prints_commaSeparated {α : Type} {Item : α → List StructuralToken → Prop}
    (spell : α → String) {values : List α} (hne : values ≠ [])
    (h : ∀ value ∈ values, Prints Item value (spell value).toList) :
    Prints (CommaSeparated Item) values (", ".intercalate (values.map spell)).toList := by
  induction values with
  | nil => exact absurd rfl hne
  | cons value values ih =>
    have hvalue := h value List.mem_cons_self
    cases values with
    | nil =>
      refine ⟨by simpa using hvalue.starts, fun rest hrest => ?_⟩
      obtain ⟨kept, hitem, hreads⟩ := hvalue.reads rest hrest
      exact ⟨kept, .single hitem, by simpa using hreads⟩
    | cons next values =>
      have hmore := ih (by simp) fun v hv => h v (List.mem_cons_of_mem value hv)
      generalize hback : (", ".intercalate ((next :: values).map spell)).toList = back at hmore
      have htext : (", ".intercalate ((value :: next :: values).map spell)).toList =
          (spell value).toList ++ ([','] ++ ([' '] ++ back)) := by
        rw [← hback, List.map_cons, List.map_cons, String.intercalate_cons_cons]
        simp
      rw [htext]
      constructor
      · intro rest
        rw [List.append_assoc]
        exact hvalue.starts _
      · intro rest hrest
        obtain ⟨keptBack, hitems, hreadsBack⟩ := hmore.reads rest hrest
        obtain ⟨keptFront, hitem, hreadsFront⟩ :=
          hvalue.reads ([','] ++ ([' '] ++ back) ++ rest) (stops_cons_iff.2 rfl)
        have hcomma := readsAs_mark ',' .comma (by decide) (by decide)
          ([' '] ++ back ++ rest)
        have hspace := readsAs_space (hmore.starts rest)
        refine ⟨_, .cons hitem hitems, ?_⟩
        exact hreadsFront.append (hcomma.append (hspace.append hreadsBack))

/-- The parameters of a plain requirement are printed so that they are read again. -/
theorem readsAs_parameters {ps : List Parameter} (h : ∀ p ∈ ps, p.Plain) (rest : List Char)
    (hrest : Stops isIdentifierPart rest) :
    ∃ kept, ParameterList ps kept ∧
      ReadsAs (", ".intercalate (ps.map Parameter.spelling)).toList kept rest := by
  by_cases hne : ps = []
  · subst hne
    exact ⟨[], .empty, readsAs_nil rest⟩
  · have hprints := prints_commaSeparated Parameter.spelling hne fun p hp =>
      prints_parameter (h p hp)
    obtain ⟨kept, hlist, hreads⟩ := hprints.reads rest hrest
    exact ⟨kept, .list hlist, hreads⟩

/-- The arrow is left out exactly for `Void`. -/
theorem readsAs_returnClause {r : Requirement} (h : PlainIdentifier r.returnType)
    {rest : List Char} (hrest : Stops isIdentifierPart rest) :
    ∃ kept, ReturnClause r.returnType kept ∧
      ReadsAs (if r.returnsValue then " -> " ++ r.returnType else "").toList kept rest := by
  by_cases hvalue : r.returnsValue = true
  · have htext : (if r.returnsValue then " -> " ++ r.returnType else "").toList =
        [' '] ++ (['-', '>'] ++ ([' '] ++ r.returnType.toList)) := by
      simp [hvalue]
    have hspace := readsAs_space (h.shape.stops_isBlank rest)
    have hclause := (readsAs_arrow _).append (hspace.append (readsAs_name h hrest))
    rw [htext]
    exact ⟨_, .written r.returnType, (readsAs_space (stops_cons_iff.2 rfl)).append hclause⟩
  · have hvoid : r.returnType = voidType := by
      simpa [Requirement.returnsValue] using hvalue
    rw [if_neg hvalue, hvoid]
    exact ⟨[], .omitted, readsAs_nil rest⟩

/-- A plain requirement is printed so that it is read again. -/
theorem prints_requirement {r : Requirement} (h : r.Plain) :
    Prints Requirement.SpelledBy r r.signature.toList := by
  have htext : r.signature.toList =
      "func".toList ++ ([' '] ++ (r.name.toList ++ (['('] ++
        ((", ".intercalate (r.parameters.map Parameter.spelling)).toList ++ ([')'] ++
          (if r.returnsValue then " -> " ++ r.returnType else "").toList))))) := by
    simp [Requirement.signature]
  rw [htext]
  refine ⟨fun rest => stops_cons_iff.2 rfl, fun rest hrest => ?_⟩
  obtain ⟨clause, hclause, hreadsClause⟩ := readsAs_returnClause h.returnType hrest
  have hclosing := (readsAs_mark ')' .rightParen (by decide) (by decide) _).append hreadsClause
  obtain ⟨inside, hinside, hreadsInside⟩ :=
    readsAs_parameters h.parameters ([')'] ++ _ ++ rest) (stops_cons_iff.2 rfl)
  have hopening := (readsAs_mark '(' .leftParen (by decide) (by decide) _).append
    (hreadsInside.append hclosing)
  have hname := (readsAs_name h.name (stops_cons_iff.2 rfl)).append hopening
  refine ⟨_, .mk hinside hclause, ?_⟩
  refine (readsAs_func (stops_cons_iff.2 rfl)).append ((readsAs_space ?_).append hname)
  rw [List.append_assoc]
  exact h.name.shape.stops_isBlank _

/-- The lines of a body are read as its requirements, whatever follows. -/
theorem readsAs_lines {indent : String} (hindent : ∀ c ∈ indent.toList, isBlank c = true)
    {rs : List Requirement} (h : ∀ r ∈ rs, r.Plain) (rest : List Char) :
    ∃ kept, Repeated Requirement.SpelledBy rs kept ∧
      ReadsAs (String.join (rs.map (Requirement.line indent))).toList kept rest := by
  induction rs with
  | nil => exact ⟨[], .nil, readsAs_nil rest⟩
  | cons r rs ih =>
    obtain ⟨keptBack, hrs, hreadsBack⟩ := ih fun r hr => h r (List.mem_cons_of_mem _ hr)
    generalize hback : (String.join (rs.map (Requirement.line indent))).toList = back at hreadsBack
    have htext : (String.join ((r :: rs).map (Requirement.line indent))).toList =
        indent.toList ++ (r.signature.toList ++ (['\n'] ++ back)) := by
      rw [← hback, List.map_cons, String.join_cons, Requirement.line]
      simp
    have hprints := prints_requirement (h r List.mem_cons_self)
    obtain ⟨keptFront, hr, hreadsFront⟩ :=
      hprints.reads (['\n'] ++ back ++ rest) (stops_cons_iff.2 rfl)
    have hline := hreadsFront.append ((readsAs_newline _).append hreadsBack)
    have hstop : Stops isBlank (r.signature.toList ++ (['\n'] ++ back) ++ rest) := by
      rw [List.append_assoc]
      exact hprints.starts _
    rw [htext]
    exact ⟨_, .cons hr hrs, (readsAs_blanks hindent hstop).append hline⟩

/-- The conformances of a plain declaration are printed so that they are read again. -/
theorem readsAs_conformanceClause {p : ProtocolDecl} (h : p.Plain) (rest : List Char)
    (hrest : Stops isIdentifierPart rest) :
    ∃ kept, ConformanceClause p.conformances kept ∧
      ReadsAs p.conformanceClause.toList kept rest := by
  unfold ProtocolDecl.conformanceClause
  by_cases hne : p.conformances = []
  · rw [if_pos hne, hne]
    exact ⟨[], .omitted, readsAs_nil rest⟩
  · have hprints := prints_commaSeparated id hne fun name hname =>
      prints_name (h.conformances name hname)
    rw [List.map_id] at hprints
    obtain ⟨kept, hnames, hreads⟩ := hprints.reads rest hrest
    have hclause := (readsAs_mark ':' .colon (by decide) (by decide) _).append
      ((readsAs_space (hprints.starts rest)).append hreads)
    have htext : (": " ++ ", ".intercalate p.conformances).toList =
        [':'] ++ ([' '] ++ (", ".intercalate p.conformances).toList) := by
      simp
    rw [if_neg hne, htext]
    exact ⟨_, .written hnames, hclause⟩

/-- What stands between the keyword and the opening brace. -/
theorem readsAs_header {p : ProtocolDecl} (h : p.Plain) (rest : List Char)
    (hrest : Stops isBlank rest) :
    ∃ clause, ConformanceClause p.conformances clause ∧
      ReadsAs ([' '] ++ (p.name.toList ++ (p.conformanceClause.toList ++ [' '])))
        (.identifier p.name :: clause) rest := by
  have hspace := readsAs_space hrest
  obtain ⟨clause, hclause, hreads⟩ :=
    readsAs_conformanceClause h ([' '] ++ rest) (stops_cons_iff.2 rfl)
  have hend := hreads.append hspace
  rw [List.append_nil] at hend
  refine ⟨clause, hclause, ?_⟩
  refine (readsAs_space ?_).append ((readsAs_name h.name ?_).append hend)
  · rw [List.append_assoc]
    exact h.name.shape.stops_isBlank _
  · unfold ProtocolDecl.conformanceClause
    split
    · exact stops_cons_iff.2 rfl
    · rw [String.toList_append]
      exact stops_cons_iff.2 rfl

/-- A keyword with a header and a body in braces is read as one region and a line break. -/
theorem tokensOf_region {header body rest : List Char} {keptHeader keptBody : List StructuralToken}
    (hheader : ReadsAs header keptHeader ('{' :: (body ++ '}' :: '\n' :: rest)))
    (hbody : ReadsAs body keptBody ('}' :: '\n' :: rest))
    (hstops : Stops isIdentifierPart (header ++ '{' :: (body ++ '}' :: '\n' :: rest))) :
    ∃ front back, Braceless front ∧ Braceless back ∧
      front.filterMap StructuralToken.ofToken? = keptHeader ∧
      back.filterMap StructuralToken.ofToken? = keptBody ∧
      tokensOf ("protocol".toList ++ (header ++ '{' :: (body ++ '}' :: '\n' :: rest))) =
        .protocolKeyword ::
          (front ++ .leftBrace :: (back ++ .rightBrace :: .newline :: tokensOf rest)) := by
  obtain ⟨front, hfront, hfrontBraceless, hfrontKept⟩ := hheader.exists_braceless
  obtain ⟨back, hback, hbackBraceless, hbackKept⟩ := hbody.exists_braceless
  refine ⟨front, back, hfrontBraceless, hbackBraceless, hfrontKept, hbackKept, ?_⟩
  have hprotocol : ("protocol", Token.protocolKeyword) ∈ keywords := by decide
  have hopening : ('{', Token.leftBrace) ∈ punctuation := by decide
  have hclosing : ('}', Token.rightBrace) ∈ punctuation := by decide
  have hline : tokensOf ('\n' :: rest) = .newline :: tokensOf rest :=
    tokensOf_append (.newline rest)
  have hend : tokensOf ('}' :: '\n' :: rest) = .rightBrace :: tokensOf ('\n' :: rest) :=
    tokensOf_append (.punctuation _ hclosing)
  have hblock : tokensOf ('{' :: (body ++ '}' :: '\n' :: rest)) =
      .leftBrace :: tokensOf (body ++ '}' :: '\n' :: rest) :=
    tokensOf_append (.punctuation _ hopening)
  have hkeyword := tokensOf_append (.keyword hprotocol hstops)
  rw [hkeyword, hfront, hblock, hback, hend, hline]

/-- A printed declaration is read as one region, the structural tokens of which spell it. -/
theorem tokensOf_print {indent : String} (hindent : ∀ c ∈ indent.toList, isBlank c = true)
    {p : ProtocolDecl} (h : p.Plain) (rest : List Char) :
    ∃ front back, Braceless front ∧ Braceless back ∧
      tokensOf ((p.print indent).toList ++ rest) = .protocolKeyword ::
        (front ++ .leftBrace :: (back ++ .rightBrace :: .newline :: tokensOf rest)) ∧
      p.SpelledBy (.protocolKeyword :: (front.filterMap StructuralToken.ofToken? ++
        .leftBrace :: (back.filterMap StructuralToken.ofToken? ++ [.rightBrace]))) := by
  obtain ⟨kept, hrs, hlines⟩ := readsAs_lines hindent h.requirements ('}' :: '\n' :: rest)
  generalize hlinesText : (String.join (p.requirements.map (Requirement.line indent))).toList =
    lines at hlines
  have hbody := (readsAs_newline _).append hlines
  obtain ⟨clause, hclause, hheader⟩ :=
    readsAs_header h ('{' :: (['\n'] ++ lines ++ '}' :: '\n' :: rest))
      (stops_cons_iff.2 rfl)
  obtain ⟨front, back, hfront, hback, hfrontKept, hbackKept, htokens⟩ :=
    tokensOf_region hheader hbody (stops_cons_iff.2 rfl)
  refine ⟨front, back, hfront, hback, ?_, ?_⟩
  · rw [← htokens, ← hlinesText]
    refine congrArg tokensOf ?_
    simp [ProtocolDecl.print]
  · rw [hfrontKept, hbackKept]
    exact .mk hclause hrs

end ProtocolMocks
