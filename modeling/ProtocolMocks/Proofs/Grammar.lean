import ProtocolMocks.Declaration.Parser

/-!
# The grammar of declarations

The grammar as a relation between declarations and the tokens that spell them. The readers take
exactly what the grammar allows: what they take spells the value that they return, and every
spelling of a value is read back as that value, whatever follows it.
-/

namespace ProtocolMocks

/-- Items one after the other. -/
inductive Repeated {α : Type} (Item : α → List StructuralToken → Prop) :
    List α → List StructuralToken → Prop
  | nil : Repeated Item [] []
  | cons {item items front back} : Item item front → Repeated Item items back →
      Repeated Item (item :: items) (front ++ back)

/-- At least one item, with a comma between neighbours. -/
inductive CommaSeparated {α : Type} (Item : α → List StructuralToken → Prop) :
    List α → List StructuralToken → Prop
  | single {item tokens} : Item item tokens → CommaSeparated Item [item] tokens
  | cons {item items front back} : Item item front → CommaSeparated Item items back →
      CommaSeparated Item (item :: items) (front ++ .comma :: back)

/-- A name is spelled by one identifier. -/
inductive SpelledName : String → List StructuralToken → Prop
  | mk (name : String) : SpelledName name [.identifier name]

/-- A parameter is a name, with a label in front or without one, and its type. -/
inductive Parameter.SpelledBy : Parameter → List StructuralToken → Prop
  | unlabelled (name typeName : String) :
      SpelledBy ⟨none, name, typeName⟩ [.identifier name, .colon, .identifier typeName]
  | labelled (label name typeName : String) :
      SpelledBy ⟨some label, name, typeName⟩
        [.identifier label, .identifier name, .colon, .identifier typeName]

/-- What stands between the parentheses of a requirement. -/
inductive ParameterList : List Parameter → List StructuralToken → Prop
  | empty : ParameterList [] []
  | list {ps tokens} : CommaSeparated Parameter.SpelledBy ps tokens → ParameterList ps tokens

/-- A return type may be left out if it is `Void`. -/
inductive ReturnClause : String → List StructuralToken → Prop
  | omitted : ReturnClause voidType []
  | written (typeName : String) : ReturnClause typeName [.arrow, .identifier typeName]

/-- A requirement is a method with its parameters and its return type. -/
inductive Requirement.SpelledBy : Requirement → List StructuralToken → Prop
  | mk {name ps result inside clause} : ParameterList ps inside → ReturnClause result clause →
      SpelledBy ⟨name, ps, result⟩
        (.func :: .identifier name :: .leftParen :: (inside ++ .rightParen :: clause))

/-- Conformances follow a colon. -/
inductive ConformanceClause : List String → List StructuralToken → Prop
  | omitted : ConformanceClause [] []
  | written {names tokens} : CommaSeparated SpelledName names tokens →
      ConformanceClause names (.colon :: tokens)

/-- A protocol declaration is a name with conformances and a body of requirements. -/
inductive ProtocolDecl.SpelledBy : ProtocolDecl → List StructuralToken → Prop
  | mk {name rs names clause body} : ConformanceClause names clause →
      Repeated Requirement.SpelledBy rs body →
      SpelledBy ⟨name, rs, names⟩
        (.protocolKeyword :: .identifier name ::
          (clause ++ .leftBrace :: (body ++ [.rightBrace])))

namespace Declaration

open Outcome

/-- Whatever the reader takes off the front of a stream spells the value that it returns. -/
def Sound {α : Type} (read : StructuralStream → Outcome α)
    (Item : α → List StructuralToken → Prop) : Prop :=
  ∀ stream value rest, read stream = done value rest →
    ∃ taken, stream = taken ++ rest ∧ Item value (taken.map Located.value)

/-- A name that was taken is spelled by its identifier. -/
theorem sound_takeName (expected : Expected) : Sound (takeName expected) SpelledName := by
  intro stream name rest h
  obtain ⟨span, rfl⟩ := takeName_eq_done_iff.1 h
  exact ⟨[⟨.identifier name, span⟩], rfl, SpelledName.mk name⟩

/-- Items that were read are spelled with commas between them, if each of them is spelled. -/
theorem sound_commaSeparated {α : Type} {item : Reader α}
    {Item : α → List StructuralToken → Prop} (hitem : Sound item.read Item) :
    Sound (commaSeparated item) (CommaSeparated Item) := by
  intro stream values rest h
  fun_induction commaSeparated item stream generalizing values with
  | case1 => cases h
  | case2 stream first after hfirst hcomma ih =>
    obtain ⟨items, hitems, rfl⟩ := map_eq_done_iff.1 h
    obtain ⟨span, more, rfl⟩ := atToken_eq_true_iff.1 hcomma
    obtain ⟨front, rfl, hfront⟩ := hitem _ _ _ hfirst
    obtain ⟨back, hback, hspelled⟩ := ih _ hitems
    rw [List.tail_cons] at hback
    refine ⟨front ++ ⟨.comma, span⟩ :: back, by simp [hback], ?_⟩
    rw [List.map_append, List.map_cons]
    exact CommaSeparated.cons hfront hspelled
  | case3 stream first after hfirst hcomma =>
    cases h
    obtain ⟨taken, rfl, htaken⟩ := hitem _ _ _ hfirst
    exact ⟨taken, rfl, CommaSeparated.single htaken⟩

/-- The conformances that were read are spelled by their clause, or by nothing. -/
theorem sound_conformances : Sound conformances ConformanceClause := by
  intro stream names rest h
  unfold conformances at h
  split at h
  · obtain ⟨_, after, hcolon, hnames⟩ := andThen_eq_done_iff.1 h
    obtain ⟨span, rfl⟩ := takeToken_eq_done_iff.1 hcolon
    obtain ⟨taken, rfl, htaken⟩ := sound_commaSeparated (sound_takeName _) _ _ _ hnames
    exact ⟨⟨.colon, span⟩ :: taken, rfl, ConformanceClause.written htaken⟩
  · cases h
    exact ⟨[], rfl, ConformanceClause.omitted⟩

/-- A type is read off a colon and an identifier. -/
theorem typeClause_eq_done_iff {stream rest : StructuralStream} {typeName : String} :
    typeClause stream = done typeName rest ↔
      ∃ span span', stream = ⟨.colon, span⟩ :: ⟨.identifier typeName, span'⟩ :: rest := by
  constructor
  · intro h
    obtain ⟨_, after, hcolon, hname⟩ := andThen_eq_done_iff.1 h
    obtain ⟨span, rfl⟩ := takeToken_eq_done_iff.1 hcolon
    obtain ⟨span', rfl⟩ := takeName_eq_done_iff.1 hname
    exact ⟨span, span', rfl⟩
  · rintro ⟨span, span', rfl⟩
    rfl

/-- A parameter that was read is spelled by one name or two, a colon and a type. -/
theorem sound_parameter : Sound parameter Parameter.SpelledBy := by
  intro stream p rest h
  obtain ⟨first, after, hfirst, hafter⟩ := andThen_eq_done_iff.1 h
  obtain ⟨span, rfl⟩ := takeName_eq_done_iff.1 hfirst
  unfold parameterAfter at hafter
  split at hafter
  · rename_i name span' more
    obtain ⟨typeName, htype, rfl⟩ := map_eq_done_iff.1 hafter
    obtain ⟨span₁, span₂, rfl⟩ := typeClause_eq_done_iff.1 htype
    exact ⟨[⟨.identifier first, span⟩, ⟨.identifier name, span'⟩, ⟨.colon, span₁⟩,
      ⟨.identifier typeName, span₂⟩], rfl, Parameter.SpelledBy.labelled first name typeName⟩
  · obtain ⟨typeName, htype, rfl⟩ := map_eq_done_iff.1 hafter
    obtain ⟨span₁, span₂, rfl⟩ := typeClause_eq_done_iff.1 htype
    exact ⟨[⟨.identifier first, span⟩, ⟨.colon, span₁⟩, ⟨.identifier typeName, span₂⟩], rfl,
      Parameter.SpelledBy.unlabelled first typeName⟩

/-- The parameters that were read are spelled with commas between them, or by nothing. -/
theorem sound_parameters : Sound parameters ParameterList := by
  intro stream ps rest h
  unfold parameters at h
  split at h
  · cases h
    exact ⟨[], rfl, ParameterList.empty⟩
  · obtain ⟨taken, rfl, htaken⟩ := sound_commaSeparated sound_parameter _ _ _ h
    exact ⟨taken, rfl, ParameterList.list htaken⟩

/-- The type of the result that was read is spelled behind an arrow, or by nothing. -/
theorem sound_returnType : Sound returnType ReturnClause := by
  intro stream typeName rest h
  unfold returnType at h
  split at h
  · rename_i harrow
    obtain ⟨span, after, rfl⟩ := atToken_eq_true_iff.1 harrow
    obtain ⟨span', hname⟩ := takeName_eq_done_iff.1 h
    rw [List.tail_cons] at hname
    subst hname
    exact ⟨[⟨.arrow, span⟩, ⟨.identifier typeName, span'⟩], rfl, ReturnClause.written typeName⟩
  · cases h
    exact ⟨[], rfl, ReturnClause.omitted⟩

/-- A requirement that was read is spelled by its name, its parameters and its result. -/
theorem sound_requirement : Sound requirement Requirement.SpelledBy := by
  intro stream r rest h
  obtain ⟨_, afterKeyword, hkeyword, h⟩ := andThen_eq_done_iff.1 h
  obtain ⟨name, afterName, hname, h⟩ := andThen_eq_done_iff.1 h
  obtain ⟨_, afterOpening, hopening, h⟩ := andThen_eq_done_iff.1 h
  obtain ⟨ps, afterParameters, hps, h⟩ := andThen_eq_done_iff.1 h
  obtain ⟨_, afterClosing, hclosing, h⟩ := andThen_eq_done_iff.1 h
  obtain ⟨typeName, htype, rfl⟩ := map_eq_done_iff.1 h
  obtain ⟨span₁, rfl⟩ := takeToken_eq_done_iff.1 hkeyword
  obtain ⟨span₂, rfl⟩ := takeName_eq_done_iff.1 hname
  obtain ⟨span₃, rfl⟩ := takeToken_eq_done_iff.1 hopening
  obtain ⟨inside, rfl, hinside⟩ := sound_parameters _ _ _ hps
  obtain ⟨span₄, rfl⟩ := takeToken_eq_done_iff.1 hclosing
  obtain ⟨clause, rfl, hclause⟩ := sound_returnType _ _ _ htype
  refine ⟨⟨.func, span₁⟩ :: ⟨.identifier name, span₂⟩ :: ⟨.leftParen, span₃⟩ ::
    (inside ++ ⟨.rightParen, span₄⟩ :: clause), by simp, ?_⟩
  simp only [List.map_cons, List.map_append]
  exact Requirement.SpelledBy.mk hinside hclause

/-- The requirements that were read are spelled one after the other. -/
theorem sound_requirements : Sound requirements (Repeated Requirement.SpelledBy) := by
  intro stream rs rest h
  fun_induction requirements stream generalizing rs with
  | case1 stream hfunc r after hr ih =>
    obtain ⟨rs', hrs, rfl⟩ := map_eq_done_iff.1 h
    obtain ⟨front, rfl, hfront⟩ := sound_requirement _ _ _ hr
    obtain ⟨back, rfl, hback⟩ := ih _ hrs
    refine ⟨front ++ back, by simp, ?_⟩
    rw [List.map_append]
    exact Repeated.cons hfront hback
  | case2 => cases h
  | case3 =>
    cases h
    exact ⟨[], rfl, Repeated.nil⟩
  | case4 => cases h

/-- A declaration that was read is spelled by its name, its conformances and its body. -/
theorem sound_protocolDecl : Sound protocolDecl ProtocolDecl.SpelledBy := by
  intro stream p rest h
  obtain ⟨_, afterKeyword, hkeyword, h⟩ := andThen_eq_done_iff.1 h
  obtain ⟨name, afterName, hname, h⟩ := andThen_eq_done_iff.1 h
  obtain ⟨names, afterNames, hnames, h⟩ := andThen_eq_done_iff.1 h
  obtain ⟨_, afterOpening, hopening, h⟩ := andThen_eq_done_iff.1 h
  obtain ⟨rs, afterRequirements, hrs, h⟩ := andThen_eq_done_iff.1 h
  obtain ⟨_, hclosing, rfl⟩ := map_eq_done_iff.1 h
  obtain ⟨span₁, rfl⟩ := takeToken_eq_done_iff.1 hkeyword
  obtain ⟨span₂, rfl⟩ := takeName_eq_done_iff.1 hname
  obtain ⟨clause, rfl, hclause⟩ := sound_conformances _ _ _ hnames
  obtain ⟨span₃, rfl⟩ := takeToken_eq_done_iff.1 hopening
  obtain ⟨body, rfl, hbody⟩ := sound_requirements _ _ _ hrs
  obtain ⟨span₄, rfl⟩ := takeToken_eq_done_iff.1 hclosing
  refine ⟨⟨.protocolKeyword, span₁⟩ :: ⟨.identifier name, span₂⟩ ::
    (clause ++ ⟨.leftBrace, span₃⟩ :: (body ++ [⟨.rightBrace, span₄⟩])), by simp, ?_⟩
  simp only [List.map_cons, List.map_append, List.map_nil]
  exact ProtocolDecl.SpelledBy.mk hclause hbody

/-- The declarations that were read are spelled one after the other. -/
theorem sound_protocolDecls : Sound protocolDecls (Repeated ProtocolDecl.SpelledBy) := by
  intro stream ps rest h
  fun_induction protocolDecls stream generalizing ps with
  | case1 =>
    cases h
    exact ⟨[], rfl, Repeated.nil⟩
  | case2 token more p after hp ih =>
    obtain ⟨ps', hps, rfl⟩ := map_eq_done_iff.1 h
    obtain ⟨front, hfront, hspelled⟩ := sound_protocolDecl _ _ _ hp
    obtain ⟨back, rfl, hback⟩ := ih _ hps
    refine ⟨front ++ back, by simp [hfront], ?_⟩
    rw [List.map_append]
    exact Repeated.cons hspelled hback
  | case3 => cases h

/-- A parameter does not start with the parenthesis that closes the list. -/
theorem atToken_bare_commaSeparated {values : List Parameter} {tokens : List StructuralToken}
    (h : CommaSeparated Parameter.SpelledBy values tokens) (rest : StructuralStream) :
    atToken .rightParen (bare tokens ++ rest) = false := by
  rcases h with ⟨hp⟩ | ⟨hp, _⟩ <;> cases hp <;> rfl

/-- Requirements never start with an arrow, so the one before them has no return type to take. -/
theorem atToken_bare_requirements {rs : List Requirement} {tokens : List StructuralToken}
    (h : Repeated Requirement.SpelledBy rs tokens) {rest : StructuralStream}
    (hrest : atToken .rightBrace rest = true) : atToken .arrow (bare tokens ++ rest) = false := by
  rcases h with _ | ⟨hr, _⟩
  · exact atToken_eq_false_of_atToken hrest (by decide)
  · cases hr
    rfl

/-- A name is read from its spelling. -/
theorem takeName_bare {name : String} {tokens : List StructuralToken}
    (h : SpelledName name tokens) (expected : Expected) (rest : StructuralStream) :
    takeName expected (bare tokens ++ rest) = done name rest := by
  cases h
  rfl

/-- A list is read to its end if no comma follows. -/
theorem commaSeparated_bare {α : Type} {item : Reader α} {Item : α → List StructuralToken → Prop}
    (hitem : ∀ value tokens, Item value tokens → ∀ rest,
      item.read (bare tokens ++ rest) = done value rest)
    {values : List α} {tokens : List StructuralToken} (h : CommaSeparated Item values tokens)
    {rest : StructuralStream} (hrest : atToken .comma rest = false) :
    commaSeparated item (bare tokens ++ rest) = done values rest := by
  induction h with
  | single hvalue =>
    rw [commaSeparated_eq, hitem _ _ hvalue, andThen_done, hrest]
    rfl
  | @cons value values front back hvalue _ ih =>
    rw [bare_append, List.append_assoc, commaSeparated_eq, hitem _ _ hvalue, andThen_done,
      bare_cons, List.cons_append, atToken_cons, List.tail_cons, ih]
    rfl

/-- Conformances are read from their spelling in front of a body. -/
theorem conformances_bare {names : List String} {tokens : List StructuralToken}
    (h : ConformanceClause names tokens) {rest : StructuralStream}
    (hrest : atToken .leftBrace rest = true) :
    conformances (bare tokens ++ rest) = done names rest := by
  have hcomma : atToken .comma rest = false := atToken_eq_false_of_atToken hrest (by decide)
  have hcolon : atToken .colon rest = false := atToken_eq_false_of_atToken hrest (by decide)
  cases h with
  | omitted =>
    rw [bare_nil, List.nil_append, conformances, hcolon]
    rfl
  | written hnames =>
    exact commaSeparated_bare (fun _ _ hname => takeName_bare hname _) hnames hcomma

/-- A parameter is read from its spelling, whatever comes behind it. -/
theorem parameter_bare {p : Parameter} {tokens : List StructuralToken} (h : p.SpelledBy tokens)
    (rest : StructuralStream) : parameter (bare tokens ++ rest) = done p rest := by
  cases h <;> rfl

/-- Parameters are read from their spelling in front of the parenthesis that closes the list. -/
theorem parameters_bare {ps : List Parameter} {tokens : List StructuralToken}
    (h : ParameterList ps tokens) {rest : StructuralStream}
    (hrest : atToken .rightParen rest = true) :
    parameters (bare tokens ++ rest) = done ps rest := by
  cases h with
  | empty =>
    rw [bare_nil, List.nil_append, parameters, if_pos hrest]
  | list hps =>
    have hcomma : atToken .comma rest = false := atToken_eq_false_of_atToken hrest (by decide)
    rw [parameters, atToken_bare_commaSeparated hps]
    exact commaSeparated_bare (fun _ _ hp => parameter_bare hp) hps hcomma

/-- The type of a result is read from its spelling if no other arrow comes behind it. -/
theorem returnType_bare {typeName : String} {tokens : List StructuralToken}
    (h : ReturnClause typeName tokens) {rest : StructuralStream}
    (hrest : atToken .arrow rest = false) :
    returnType (bare tokens ++ rest) = done typeName rest := by
  cases h with
  | omitted =>
    rw [bare_nil, List.nil_append, returnType, hrest]
    rfl
  | written => rfl

/-- A requirement is read from its spelling if no arrow comes behind it. -/
theorem requirement_bare {r : Requirement} {tokens : List StructuralToken}
    (h : r.SpelledBy tokens) {rest : StructuralStream} (hrest : atToken .arrow rest = false) :
    requirement (bare tokens ++ rest) = done r rest := by
  obtain ⟨hps, hclause⟩ := h
  rename_i name ps result inside clause
  have hparameters :
      parameters (bare inside ++ ⟨.rightParen, 0, 0⟩ :: (bare clause ++ rest)) =
        done ps (⟨.rightParen, 0, 0⟩ :: (bare clause ++ rest)) := parameters_bare hps rfl
  have hresult := returnType_bare hclause hrest
  simp only [bare_cons, bare_append, List.cons_append, List.append_assoc, requirement, takeToken,
    takeName, if_true, andThen_done, hparameters, hresult]
  rfl

/-- Requirements are read from their spelling in front of the brace that closes the body. -/
theorem requirements_bare {rs : List Requirement} {tokens : List StructuralToken}
    (h : Repeated Requirement.SpelledBy rs tokens) {rest : StructuralStream}
    (hrest : atToken .rightBrace rest = true) :
    requirements (bare tokens ++ rest) = done rs rest := by
  induction h with
  | nil =>
    have hfunc : atToken .func rest = false := atToken_eq_false_of_atToken hrest (by decide)
    rw [bare_nil, List.nil_append, requirements, hfunc, hrest]
    rfl
  | @cons r rs front back hr hrs ih =>
    have hfunc : atToken .func (bare front ++ (bare back ++ rest)) = true := by
      cases hr
      rfl
    rw [bare_append, List.append_assoc, requirements_of_atToken hfunc,
      requirement_bare hr (atToken_bare_requirements hrs hrest), andThen_done, ih]
    rfl

/-- A declaration is read from its spelling, whatever comes behind it. -/
theorem protocolDecl_bare {p : ProtocolDecl} {tokens : List StructuralToken}
    (h : p.SpelledBy tokens) (rest : StructuralStream) :
    protocolDecl (bare tokens ++ rest) = done p rest := by
  obtain ⟨hclause, hbody⟩ := h
  rename_i name rs names clause body
  have hrequirements : requirements (bare body ++ ⟨.rightBrace, 0, 0⟩ :: rest) =
      done rs (⟨.rightBrace, 0, 0⟩ :: rest) := requirements_bare hbody rfl
  have hnames : conformances
      (bare clause ++ ⟨.leftBrace, 0, 0⟩ :: (bare body ++ ⟨.rightBrace, 0, 0⟩ :: rest)) =
        done names (⟨.leftBrace, 0, 0⟩ :: (bare body ++ ⟨.rightBrace, 0, 0⟩ :: rest)) :=
    conformances_bare hclause rfl
  simp only [bare_cons, bare_append, bare_nil, List.cons_append, List.append_assoc,
    List.nil_append, protocolDecl, takeToken, takeName, if_true, andThen_done, hnames,
    hrequirements]
  rfl

/-- Declarations are read from their spelling, down to the last token. -/
theorem protocolDecls_bare {ps : List ProtocolDecl} {tokens : List StructuralToken}
    (h : Repeated ProtocolDecl.SpelledBy ps tokens) : protocolDecls (bare tokens) = done ps [] := by
  induction h with
  | nil => exact protocolDecls_nil
  | @cons p ps front back hp _ ih =>
    have hread := protocolDecl_bare hp (bare back)
    rw [bare_append]
    cases hstream : bare front ++ bare back with
    | nil =>
      cases hp
      cases hstream
    | cons token rest =>
      rw [protocolDecls_cons, ← hstream, hread, andThen_done, ih]
      rfl

end Declaration

end ProtocolMocks
