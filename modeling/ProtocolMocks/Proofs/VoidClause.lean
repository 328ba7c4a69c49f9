import ProtocolMocks.Proofs.Grammar

/-!
# Spans and `Void` clauses never matter

`OmitsVoid` relates two streams that are equal but for their spans and for some `-> Void` clauses
that the second leaves out. No reader can tell the two apart, so the outcome of parsing depends on
the tokens alone. Together with soundness and completeness, parsing is the one function that the
grammar describes.
-/

namespace ProtocolMocks

open Declaration Declaration.Outcome

/-- The second stream has the tokens of the first, less some `-> Void` clauses. -/
inductive OmitsVoid : StructuralStream → StructuralStream → Prop
  | nil : OmitsVoid [] []
  | keep {value span span' stream stream'} : OmitsVoid stream stream' →
      OmitsVoid (⟨value, span⟩ :: stream) (⟨value, span'⟩ :: stream')
  | drop {span₁ span₂ span₃ span' stream stream'} : atToken .arrow stream' = false →
      OmitsVoid stream stream' →
      OmitsVoid (⟨.rightParen, span₁⟩ :: ⟨.arrow, span₂⟩ :: ⟨.identifier voidType, span₃⟩ :: stream)
        (⟨.rightParen, span'⟩ :: stream')

namespace OmitsVoid

/-- Streams that differ in their spans alone have the same tokens. -/
theorem of_map_value_eq {stream stream' : StructuralStream}
    (h : stream.map Located.value = stream'.map Located.value) : OmitsVoid stream stream' := by
  induction stream generalizing stream' with
  | nil =>
    rw [List.map_nil, eq_comm, List.map_eq_nil_iff] at h
    subst h
    exact OmitsVoid.nil
  | cons token stream ih =>
    obtain ⟨token', rest, rfl, hvalue, hrest⟩ := List.map_eq_cons_iff.1 h.symm
    obtain ⟨value, span⟩ := token
    obtain ⟨value', span'⟩ := token'
    cases hvalue
    exact OmitsVoid.keep (ih hrest.symm)

/-- Both streams show the same token next. -/
theorem map_value_head? {stream stream' : StructuralStream} (h : OmitsVoid stream stream') :
    stream.head?.map Located.value = stream'.head?.map Located.value := by
  cases h <;> rfl

/-- Both streams go on with tokens of the same kind. -/
theorem atToken_eq {stream stream' : StructuralStream} (h : OmitsVoid stream stream')
    (kind : StructuralToken) : atToken kind stream = atToken kind stream' := by
  cases h <;> rfl

/-- Behind any token but a closing parenthesis the streams go on alike. -/
theorem tail {stream stream' : StructuralStream} {kind : StructuralToken}
    (h : OmitsVoid stream stream') (hat : atToken kind stream = true) (hkind : kind ≠ .rightParen) :
    OmitsVoid stream.tail stream'.tail := by
  cases h with
  | nil => exact OmitsVoid.nil
  | keep hrest => exact hrest
  | drop =>
    have hvalue : StructuralToken.rightParen = kind := by simpa using hat
    exact absurd hvalue.symm hkind

end OmitsVoid

/-- Both outcomes are of the same kind, with the same value or expectation, and the streams that
they leave are alike. -/
inductive Declaration.Outcome.Agree {α : Type} : Outcome α → Outcome α → Prop
  | done {value rest rest'} : OmitsVoid rest rest' → Agree (done value rest) (done value rest')
  | stuck {expected rest rest'} : OmitsVoid rest rest' →
      Agree (stuck expected rest) (stuck expected rest')

namespace Declaration

/-- Readers in a row agree if the second one does on streams that are alike. -/
theorem Outcome.Agree.andThen {α β : Type} {x y : Outcome α}
    {next : α → StructuralStream → Outcome β} (h : x.Agree y)
    (hnext : ∀ value rest rest', x = Outcome.done value rest → OmitsVoid rest rest' →
      (next value rest).Agree (next value rest')) : (x.andThen next).Agree (y.andThen next) := by
  cases h with
  | done hrest => exact hnext _ _ _ rfl hrest
  | stuck hrest => exact Agree.stuck hrest

/-- Values that agree still do after the same change. -/
theorem Outcome.Agree.map {α β : Type} {x y : Outcome α} {f : α → β} (h : x.Agree y) :
    (x.map f).Agree (y.map f) := by
  cases h with
  | done hrest => exact Agree.done hrest
  | stuck hrest => exact Agree.stuck hrest

variable {stream stream' : StructuralStream}

/-- Taking any token but a closing parenthesis leads to outcomes that agree. -/
theorem agree_takeToken {kind : StructuralToken} (hkind : kind ≠ .rightParen)
    (expected : Expected) (h : OmitsVoid stream stream') :
    (takeToken kind expected stream).Agree (takeToken kind expected stream') := by
  cases h with
  | nil => exact Agree.stuck OmitsVoid.nil
  | @keep value _ _ _ _ hrest =>
    by_cases hvalue : value = kind
    · simp only [takeToken, if_pos hvalue]
      exact Agree.done hrest
    · simp only [takeToken, if_neg hvalue]
      exact Agree.stuck (OmitsVoid.keep hrest)
  | drop harrow hrest =>
    simp only [takeToken, if_neg hkind.symm]
    exact Agree.stuck (OmitsVoid.drop harrow hrest)

/-- Taking a name leads to outcomes that agree. -/
theorem agree_takeName (expected : Expected) (h : OmitsVoid stream stream') :
    (takeName expected stream).Agree (takeName expected stream') := by
  cases h with
  | nil => exact Agree.stuck OmitsVoid.nil
  | @keep value _ _ _ _ hrest =>
    cases value with
    | identifier name => exact Agree.done hrest
    | _ => exact Agree.stuck (OmitsVoid.keep hrest)
  | drop harrow hrest => exact Agree.stuck (OmitsVoid.drop harrow hrest)

/-- Reading a list leads to outcomes that agree if reading an item does. -/
theorem agree_commaSeparated {α : Type} {item : Reader α}
    (hitem : ∀ stream stream', OmitsVoid stream stream' →
      (item.read stream).Agree (item.read stream'))
    (h : OmitsVoid stream stream') :
    (commaSeparated item stream).Agree (commaSeparated item stream') := by
  induction hlength : stream.length using Nat.strongRecOn generalizing stream stream' with
  | ind n ih =>
    subst hlength
    rw [commaSeparated_eq item stream, commaSeparated_eq item stream']
    refine (hitem _ _ h).andThen fun first rest rest' hfirst hrest => ?_
    have hshorter := item.shrinks _ _ _ hfirst
    rw [← hrest.atToken_eq .comma]
    split
    · rename_i hcomma
      have htail : rest.tail.length < stream.length := by
        rw [List.length_tail]
        omega
      exact (ih _ htail (hrest.tail hcomma (by decide)) rfl).map
    · exact Agree.done hrest

theorem agree_conformances (h : OmitsVoid stream stream') :
    (conformances stream).Agree (conformances stream') := by
  simp only [conformances, h.atToken_eq .colon]
  split
  · refine (agree_takeToken (by decide) _ h).andThen fun _ _ _ _ hrest => ?_
    exact agree_commaSeparated (fun _ _ => agree_takeName _) hrest
  · exact Agree.done h

theorem agree_typeClause (h : OmitsVoid stream stream') :
    (typeClause stream).Agree (typeClause stream') :=
  (agree_takeToken (by decide) _ h).andThen fun _ _ _ _ hrest => agree_takeName _ hrest

theorem agree_parameterAfter (first : String) (h : OmitsVoid stream stream') :
    (parameterAfter first stream).Agree (parameterAfter first stream') := by
  cases h with
  | nil =>
    simp only [parameterAfter]
    exact (agree_typeClause OmitsVoid.nil).map
  | @keep value _ _ _ _ hrest =>
    cases value with
    | identifier name => exact (agree_typeClause hrest).map
    | _ =>
      simp only [parameterAfter]
      exact (agree_typeClause (OmitsVoid.keep hrest)).map
  | drop harrow hrest =>
    simp only [parameterAfter]
    exact (agree_typeClause (OmitsVoid.drop harrow hrest)).map

theorem agree_parameter (h : OmitsVoid stream stream') :
    (parameter stream).Agree (parameter stream') :=
  (agree_takeName _ h).andThen fun _ _ _ _ => agree_parameterAfter _

theorem agree_parameters (h : OmitsVoid stream stream') :
    (parameters stream).Agree (parameters stream') := by
  simp only [parameters, h.atToken_eq .rightParen]
  split
  · exact Agree.done h
  · exact agree_commaSeparated (fun _ _ => agree_parameter) h

/-- Reading the type of a result leads to outcomes that agree. -/
theorem agree_returnType (h : OmitsVoid stream stream') :
    (returnType stream).Agree (returnType stream') := by
  simp only [returnType, h.atToken_eq .arrow]
  split
  · rename_i harrow
    exact agree_takeName _ (h.tail (h.atToken_eq .arrow ▸ harrow) (by decide))
  · exact Agree.done h

/-- Where the streams differ, a clause that says `Void` is read on one side only, and the missing
one counts as the same. -/
theorem agree_closing {f : String → Requirement} (expected : Expected)
    (h : OmitsVoid stream stream') :
    ((takeToken .rightParen expected stream).andThen fun _ rest => (returnType rest).map f).Agree
      ((takeToken .rightParen expected stream').andThen fun _ rest => (returnType rest).map f) := by
  cases h with
  | nil => exact Agree.stuck OmitsVoid.nil
  | @keep value _ _ _ _ hrest =>
    by_cases hvalue : value = .rightParen
    · simp only [takeToken, if_pos hvalue, andThen_done]
      exact (agree_returnType hrest).map
    · simp only [takeToken, if_neg hvalue, andThen_stuck]
      exact Agree.stuck (OmitsVoid.keep hrest)
  | drop harrow hrest =>
    simp only [takeToken, if_true, andThen_done, returnType, harrow]
    exact Agree.done hrest

/-- Reading a requirement leads to outcomes that agree, whether its clause is written or left
out. -/
theorem agree_requirement (h : OmitsVoid stream stream') :
    (requirement stream).Agree (requirement stream') := by
  refine (agree_takeToken (by decide) _ h).andThen fun _ _ _ _ h => ?_
  refine (agree_takeName _ h).andThen fun _ _ _ _ h => ?_
  refine (agree_takeToken (by decide) _ h).andThen fun _ _ _ _ h => ?_
  exact (agree_parameters h).andThen fun _ _ _ _ h => agree_closing _ h

theorem agree_requirements (h : OmitsVoid stream stream') :
    (requirements stream).Agree (requirements stream') := by
  induction hlength : stream.length using Nat.strongRecOn generalizing stream stream' with
  | ind n ih =>
    subst hlength
    by_cases hfunc : atToken .func stream = true
    · have hfunc' : atToken .func stream' = true := h.atToken_eq .func ▸ hfunc
      rw [requirements_of_atToken hfunc, requirements_of_atToken hfunc']
      refine (agree_requirement h).andThen fun r rest rest' hr hrest => ?_
      exact (ih _ (shrinks_requirement _ _ _ hr) hrest rfl).map
    · have hfunc' : ¬ atToken .func stream' = true := h.atToken_eq .func ▸ hfunc
      rw [requirements, if_neg hfunc, requirements, if_neg hfunc', ← h.atToken_eq .rightBrace]
      split
      · exact Agree.done h
      · exact Agree.stuck h

theorem agree_protocolDecl (h : OmitsVoid stream stream') :
    (protocolDecl stream).Agree (protocolDecl stream') := by
  refine (agree_takeToken (by decide) _ h).andThen fun _ _ _ _ h => ?_
  refine (agree_takeName _ h).andThen fun _ _ _ _ h => ?_
  refine (agree_conformances h).andThen fun _ _ _ _ h => ?_
  refine (agree_takeToken (by decide) _ h).andThen fun _ _ _ _ h => ?_
  refine (agree_requirements h).andThen fun _ _ _ _ h => ?_
  exact (agree_takeToken (by decide) _ h).map

theorem agree_protocolDecls (h : OmitsVoid stream stream') :
    (protocolDecls stream).Agree (protocolDecls stream') := by
  induction hlength : stream.length using Nat.strongRecOn generalizing stream stream' with
  | ind n ih =>
    subst hlength
    have hread := agree_protocolDecl h
    have hhead := h.map_value_head?
    cases stream with
    | nil =>
      cases stream' with
      | nil =>
        rw [protocolDecls_nil]
        exact Agree.done OmitsVoid.nil
      | cons => cases hhead
    | cons token rest =>
      cases stream' with
      | nil => cases hhead
      | cons token' rest' =>
        rw [protocolDecls_cons, protocolDecls_cons]
        refine hread.andThen fun p after after' hp hafter => ?_
        exact (ih _ (shrinks_protocolDecl _ _ _ hp) hafter rfl).map

end Declaration

/-- What an error says apart from its place. -/
def GrammarError.complaint (err : GrammarError) : Expected × Option StructuralToken :=
  (err.expected, err.found)

/-- Parsing does not depend on spans, nor on whether `Void` is written. -/
theorem OmitsVoid.parseDeclarations_eq {stream stream' : StructuralStream}
    (h : OmitsVoid stream stream') :
    (parseDeclarations stream).mapError GrammarError.complaint =
      (parseDeclarations stream').mapError GrammarError.complaint := by
  have hread := agree_protocolDecls h
  unfold parseDeclarations
  generalize protocolDecls stream = x at hread ⊢
  generalize protocolDecls stream' = y at hread ⊢
  cases hread with
  | done => rfl
  | @stuck expected rest rest' hrest =>
    have hhead := hrest.map_value_head?
    cases rest with
    | nil =>
      cases rest' with
      | nil => rfl
      | cons => cases hhead
    | cons token rest =>
      cases rest' with
      | nil => cases hhead
      | cons token' rest' =>
        have hvalue : token.value = token'.value := by simpa using hhead
        have hcomplaint : GrammarError.complaint (errorAt stream expected (token :: rest)) =
            GrammarError.complaint (errorAt stream' expected (token' :: rest')) := by
          simp only [GrammarError.complaint, errorAt, hvalue]
        exact congrArg Except.error hcomplaint

/-- Every spelling of declarations parses as these declarations. -/
theorem parseDeclarations_of_spelled {stream : StructuralStream} {decls : List ProtocolDecl}
    (h : Repeated ProtocolDecl.SpelledBy decls (stream.map Located.value)) :
    parseDeclarations stream = .ok decls := by
  have hbare : parseDeclarations (bare (stream.map Located.value)) = .ok decls := by
    rw [parseDeclarations, protocolDecls_bare h]
  have hspans : OmitsVoid (bare (stream.map Located.value)) stream :=
    OmitsVoid.of_map_value_eq (map_value_bare _)
  have heq := hspans.parseDeclarations_eq
  rw [hbare] at heq
  cases hstream : parseDeclarations stream with
  | ok decls' =>
    rw [hstream] at heq
    cases heq
    rfl
  | error err =>
    rw [hstream] at heq
    cases heq

/-- Whatever parses spells the declarations that it is parsed as. -/
theorem spelled_of_parseDeclarations {stream : StructuralStream} {decls : List ProtocolDecl}
    (h : parseDeclarations stream = .ok decls) :
    Repeated ProtocolDecl.SpelledBy decls (stream.map Located.value) := by
  unfold parseDeclarations at h
  split at h
  · rename_i decls' rest hread
    cases h
    obtain ⟨taken, rfl, htaken⟩ := sound_protocolDecls _ _ _ hread
    rw [rest_eq_nil_of_protocolDecls hread, List.append_nil]
    exact htaken
  · cases h

/-- Parsing is the function that the grammar describes: it accepts the spellings of declarations and
nothing else, each spelling has one meaning, spans play no part in the outcome, and streams that
come to the same when `-> Void` is left out have the same outcome. -/
theorem parseDeclarations_iff_spelled :
    (∀ stream decls, parseDeclarations stream = .ok decls ↔
      Repeated ProtocolDecl.SpelledBy decls (stream.map Located.value)) ∧
    (∀ tokens decls decls', Repeated ProtocolDecl.SpelledBy decls tokens →
      Repeated ProtocolDecl.SpelledBy decls' tokens → decls = decls') ∧
    (∀ stream stream' : StructuralStream,
      stream.map Located.value = stream'.map Located.value →
      (parseDeclarations stream).mapError GrammarError.complaint =
        (parseDeclarations stream').mapError GrammarError.complaint) ∧
    (∀ stream stream' shortest, OmitsVoid stream shortest → OmitsVoid stream' shortest →
      (parseDeclarations stream).mapError GrammarError.complaint =
        (parseDeclarations stream').mapError GrammarError.complaint) := by
  refine ⟨fun stream decls => ⟨spelled_of_parseDeclarations, parseDeclarations_of_spelled⟩,
    ?_, ?_, ?_⟩
  · intro tokens decls decls' h h'
    rw [← map_value_bare tokens] at h h'
    exact Except.ok.inj
      ((parseDeclarations_of_spelled h).symm.trans (parseDeclarations_of_spelled h'))
  · intro stream stream' h
    exact (OmitsVoid.of_map_value_eq h).parseDeclarations_eq
  · intro stream stream' shortest h h'
    exact h.parseDeclarations_eq.trans h'.parseDeclarations_eq.symm

/-- The tokens of `protocol P { func f() }`, with a return clause for `f` if asked for. -/
def withClause (clause : List StructuralToken) : StructuralStream :=
  bare ([.protocolKeyword, .identifier "P", .leftBrace, .func, .identifier "f", .leftParen,
    .rightParen] ++ clause ++ [.rightBrace])

/-- A protocol with one function reads the same with the clause and without it. -/
theorem void_clause_left_out :
    OmitsVoid (withClause [.arrow, .identifier voidType]) (withClause []) ∧
      parseDeclarations (withClause [.arrow, .identifier voidType]) =
        .ok [⟨"P", [⟨"f", [], voidType⟩], []⟩] ∧
      (parseDeclarations (withClause [.arrow, .identifier voidType])).mapError
          GrammarError.complaint =
        (parseDeclarations (withClause [])).mapError GrammarError.complaint := by
  have homits : OmitsVoid (withClause [.arrow, .identifier voidType]) (withClause []) :=
    .keep (.keep (.keep (.keep (.keep (.keep (.drop rfl (.keep .nil)))))))
  have hsame : OmitsVoid (withClause []) (withClause []) := OmitsVoid.of_map_value_eq rfl
  have hrequirement : Requirement.SpelledBy ⟨"f", [], voidType⟩
      [.func, .identifier "f", .leftParen, .rightParen, .arrow, .identifier voidType] :=
    .mk .empty (.written voidType)
  have hprotocol : ProtocolDecl.SpelledBy ⟨"P", [⟨"f", [], voidType⟩], []⟩
      ((withClause [.arrow, .identifier voidType]).map Located.value) :=
    .mk .omitted (.cons hrequirement .nil)
  obtain ⟨hiff, _, _, hvoid⟩ := parseDeclarations_iff_spelled
  exact ⟨homits, (hiff _ _).2 (.cons hprotocol .nil), hvoid _ _ _ homits hsame⟩

end ProtocolMocks
