import ProtocolMocks.Declaration
import ProtocolMocks.Declaration.Error

/-!
# Reading declarations from structural tokens

The grammar, with names standing for identifiers:

    program     := protocol*
    protocol    := "protocol" name (":" name ("," name)*)? "{" requirement* "}"
    requirement := "func" name "(" (parameter ("," parameter)*)? ")" ("->" name)?
    parameter   := name name? ":" name

Each reader takes its part off the front of the stream and hands on the rest. One token of
lookahead decides every choice, so a reader that fails stops at the very token that cannot be
accepted. A reader that succeeds takes something (`Outcome.Shrinks`), which is why the
repetitions end. Readers of parts that start with a fixed token check that token themselves, also
where the caller has just looked at it.
-/

namespace ProtocolMocks

/-- A stream of structural tokens. -/
abbrev StructuralStream := List (Located StructuralToken)

namespace Declaration

/-- Tokens as a stream, each with an empty span. -/
def bare (tokens : List StructuralToken) : StructuralStream := tokens.map (⟨·, 0, 0⟩)

@[simp] theorem bare_nil : bare [] = [] := rfl

@[simp] theorem bare_cons (token : StructuralToken) (tokens : List StructuralToken) :
    bare (token :: tokens) = ⟨token, 0, 0⟩ :: bare tokens := rfl

@[simp] theorem bare_append (xs ys : List StructuralToken) :
    bare (xs ++ ys) = bare xs ++ bare ys := List.map_append

@[simp] theorem map_value_bare (tokens : List StructuralToken) :
    (bare tokens).map Located.value = tokens := by
  rw [bare, List.map_map]
  exact List.map_id tokens

/-- The outcome of a reader. -/
inductive Outcome (α : Type) where
  /-- A value was read; the stream goes on after it. -/
  | done (value : α) (rest : StructuralStream)
  /-- The stream cannot be accepted from here on. -/
  | stuck (expected : Expected) (rest : StructuralStream)
deriving DecidableEq, Repr

namespace Outcome

/-- Goes on reading after a value. -/
def andThen {α β : Type} (x : Outcome α) (next : α → StructuralStream → Outcome β) : Outcome β :=
  match x with
  | done value rest => next value rest
  | stuck expected rest => stuck expected rest

/-- Changes the value that was read. -/
def map {α β : Type} (f : α → β) : Outcome α → Outcome β
  | done value rest => done (f value) rest
  | stuck expected rest => stuck expected rest

/-- A value that was read leaves a stream of fewer tokens than the bound. -/
def Shrinks {α : Type} (bound : Nat) (x : Outcome α) : Prop :=
  ∀ value rest, x = done value rest → rest.length < bound

@[simp] theorem andThen_done {α β : Type} (value : α) (rest : StructuralStream)
    (next : α → StructuralStream → Outcome β) : (done value rest).andThen next = next value rest :=
  rfl

@[simp] theorem andThen_stuck {α β : Type} (expected : Expected) (rest : StructuralStream)
    (next : α → StructuralStream → Outcome β) :
    (stuck expected rest).andThen next = stuck expected rest :=
  rfl

/-- Two readers in a row read a value if the first one reads a value and the second one goes on from
there. -/
theorem andThen_eq_done_iff {α β : Type} {x : Outcome α}
    {next : α → StructuralStream → Outcome β} {value : β} {rest : StructuralStream} :
    x.andThen next = done value rest ↔
      ∃ first middle, x = done first middle ∧ next first middle = done value rest := by
  cases x with
  | done first middle =>
    simp only [andThen_done, done.injEq]
    grind
  | stuck expected middle => simp

/-- A changed outcome has read what it was made of, and left the same tokens. -/
theorem map_eq_done_iff {α β : Type} {x : Outcome α} {f : α → β} {value : β}
    {rest : StructuralStream} :
    x.map f = done value rest ↔ ∃ first, x = done first rest ∧ f first = value := by
  cases x with
  | done first middle =>
    simp only [map, done.injEq]
    grind
  | stuck expected middle => simp [map]

/-- Two readers in a row leave fewer tokens than the first one was given. -/
theorem Shrinks.andThen {α β : Type} {x : Outcome α} {next : α → StructuralStream → Outcome β}
    {bound : Nat} (hx : x.Shrinks bound)
    (hnext : ∀ value rest, x = done value rest → (next value rest).Shrinks rest.length) :
    (x.andThen next).Shrinks bound := by
  intro value rest h
  obtain ⟨first, middle, hfirst, hlast⟩ := andThen_eq_done_iff.1 h
  exact Nat.lt_trans (hnext first middle hfirst value rest hlast) (hx first middle hfirst)

/-- Changing the value that was read leaves the tokens as they are. -/
theorem Shrinks.map {α β : Type} {x : Outcome α} {f : α → β} {bound : Nat}
    (hx : x.Shrinks bound) : (x.map f).Shrinks bound := by
  intro value rest h
  obtain ⟨first, hfirst, _⟩ := map_eq_done_iff.1 h
  exact hx first rest hfirst

end Outcome

open Outcome

/-- Whether the stream goes on with a token of the given kind. -/
def atToken (kind : StructuralToken) : StructuralStream → Bool
  | [] => false
  | token :: _ => token.value == kind

@[simp] theorem atToken_nil (kind : StructuralToken) : atToken kind [] = false := rfl

@[simp] theorem atToken_cons (kind : StructuralToken) (token : Located StructuralToken)
    (rest : StructuralStream) : atToken kind (token :: rest) = (token.value == kind) := rfl

/-- A stream goes on with a token of a kind if that token is at its front. -/
theorem atToken_eq_true_iff {kind : StructuralToken} {stream : StructuralStream} :
    atToken kind stream = true ↔ ∃ span rest, stream = ⟨kind, span⟩ :: rest := by
  cases stream with
  | nil => simp
  | cons token rest =>
    obtain ⟨value, span⟩ := token
    simp

/-- A stream goes on with a token of one kind only. -/
theorem atToken_eq_false_of_atToken {kind other : StructuralToken} {stream : StructuralStream}
    (h : atToken kind stream = true) (hne : kind ≠ other) : atToken other stream = false := by
  obtain ⟨span, rest, rfl⟩ := atToken_eq_true_iff.1 h
  simpa using hne

/-- Takes one token of a given kind. -/
def takeToken (kind : StructuralToken) (expected : Expected) : StructuralStream → Outcome Unit
  | [] => stuck expected []
  | token :: rest => if token.value = kind then done () rest else stuck expected (token :: rest)

/-- A token is taken off the front of the stream, and it is one of the kind that was asked for. -/
theorem takeToken_eq_done_iff {kind : StructuralToken} {expected : Expected}
    {stream rest : StructuralStream} {value : Unit} :
    takeToken kind expected stream = done value rest ↔ ∃ span, stream = ⟨kind, span⟩ :: rest := by
  cases stream with
  | nil => simp [takeToken]
  | cons token after =>
    obtain ⟨found, span⟩ := token
    by_cases h : found = kind
    · simp [takeToken, h]
    · simp [takeToken, h]

/-- At the token it asks for, a reader takes it. -/
theorem takeToken_of_atToken {kind : StructuralToken} {stream : StructuralStream}
    (h : atToken kind stream = true) (expected : Expected) :
    takeToken kind expected stream = done () stream.tail := by
  obtain ⟨span, rest, rfl⟩ := atToken_eq_true_iff.1 h
  exact takeToken_eq_done_iff.2 ⟨span, rfl⟩

/-- Takes one identifier. -/
def takeName (expected : Expected) : StructuralStream → Outcome String
  | ⟨.identifier name, _⟩ :: rest => done name rest
  | stream => stuck expected stream

/-- A name is taken off the front of the stream, and it is the text of an identifier. -/
theorem takeName_eq_done_iff {expected : Expected} {stream rest : StructuralStream}
    {name : String} :
    takeName expected stream = done name rest ↔
      ∃ span, stream = ⟨.identifier name, span⟩ :: rest := by
  unfold takeName
  split
  · simp
  · rename_i hstream
    constructor
    · rintro ⟨⟩
    · rintro ⟨span, rfl⟩
      exact absurd rfl (hstream name span rest)

/-- Taking a token leaves fewer of them. -/
theorem shrinks_takeToken (kind : StructuralToken) (expected : Expected)
    (stream : StructuralStream) : (takeToken kind expected stream).Shrinks stream.length := by
  intro value rest h
  obtain ⟨span, rfl⟩ := takeToken_eq_done_iff.1 h
  simp

theorem shrinks_takeName (expected : Expected) (stream : StructuralStream) :
    (takeName expected stream).Shrinks stream.length := by
  intro value rest h
  obtain ⟨span, rfl⟩ := takeName_eq_done_iff.1 h
  simp

/-- A reader that takes at least one token whenever it succeeds. -/
structure Reader (α : Type) where
  read : StructuralStream → Outcome α
  shrinks : ∀ stream, (read stream).Shrinks stream.length

/-- One or more items with a comma between neighbours. -/
def commaSeparated {α : Type} (item : Reader α) (stream : StructuralStream) : Outcome (List α) :=
  match _h : item.read stream with
  | stuck expected rest => stuck expected rest
  | done first rest =>
    if atToken .comma rest then (commaSeparated item rest.tail).map (first :: ·)
    else done [first] rest
termination_by stream.length
decreasing_by
  have := item.shrinks _ _ _ _h
  simp only [List.length_tail]
  omega

/-- Items are read one after the other for as long as there is a comma behind. -/
theorem commaSeparated_eq {α : Type} (item : Reader α) (stream : StructuralStream) :
    commaSeparated item stream = (item.read stream).andThen fun first rest =>
      if atToken .comma rest then (commaSeparated item rest.tail).map (first :: ·)
      else done [first] rest := by
  rw [commaSeparated]
  split <;> rename_i h <;> rw [h] <;> rfl

/-- Reading items leaves fewer tokens, since there is at least one item. -/
theorem shrinks_commaSeparated {α : Type} (item : Reader α) (stream : StructuralStream) :
    (commaSeparated item stream).Shrinks stream.length := by
  fun_induction commaSeparated item stream with
  | case1 => intro value final hdone; cases hdone
  | case2 stream first rest h hcomma ih =>
    intro value final hdone
    have := ih.map value final hdone
    have := item.shrinks _ _ _ h
    simp only [List.length_tail] at *
    omega
  | case3 stream first rest h hcomma =>
    intro value final hdone
    cases hdone
    exact item.shrinks _ _ _ h

/-- The conformances of a protocol, from the colon on. -/
def conformanceList (stream : StructuralStream) : Outcome (List String) :=
  (takeToken .colon .colon stream).andThen fun _ rest =>
    commaSeparated ⟨takeName .conformanceName, shrinks_takeName _⟩ rest

/-- The conformances of a protocol, none if there is no colon. -/
def conformances (stream : StructuralStream) : Outcome (List String) :=
  if atToken .colon stream then conformanceList stream else done [] stream

/-- A colon and the type name after it. -/
def typeClause (stream : StructuralStream) : Outcome String :=
  (takeToken .colon .colon stream).andThen fun _ rest => takeName .typeName rest

/-- What follows the first name of a parameter: of two names the first is the label. -/
def parameterAfter (first : String) : StructuralStream → Outcome Parameter
  | ⟨.identifier name, _⟩ :: rest => (typeClause rest).map (⟨some first, name, ·⟩)
  | stream => (typeClause stream).map (⟨none, first, ·⟩)

/-- One parameter. -/
def parameter (stream : StructuralStream) : Outcome Parameter :=
  (takeName .argumentName stream).andThen parameterAfter

theorem shrinks_typeClause (stream : StructuralStream) :
    (typeClause stream).Shrinks stream.length :=
  Shrinks.andThen (shrinks_takeToken _ _ stream) fun _ _ _ => shrinks_takeName _ _

/-- What follows the first name of a parameter takes up tokens, as there is a type in it. -/
theorem shrinks_parameterAfter (first : String) (stream : StructuralStream) :
    (parameterAfter first stream).Shrinks stream.length := by
  unfold parameterAfter
  split
  · intro value rest h
    exact Nat.lt_succ_of_lt ((shrinks_typeClause _).map value rest h)
  · exact (shrinks_typeClause _).map

theorem shrinks_parameter (stream : StructuralStream) :
    (parameter stream).Shrinks stream.length :=
  Shrinks.andThen (shrinks_takeName _ stream) fun _ _ _ => shrinks_parameterAfter _ _

/-- The parameters of a method, up to its closing parenthesis. -/
def parameters (stream : StructuralStream) : Outcome (List Parameter) :=
  if atToken .rightParen stream then done [] stream
  else commaSeparated ⟨parameter, shrinks_parameter⟩ stream

/-- The return type, `Void` if there is no arrow. -/
def returnType (stream : StructuralStream) : Outcome String :=
  if atToken .arrow stream then takeName .typeName stream.tail else done voidType stream

/-- One requirement, from its keyword on. -/
def requirement (stream : StructuralStream) : Outcome Requirement :=
  (takeToken .func .func stream).andThen fun _ rest =>
  (takeName .functionName rest).andThen fun name rest =>
  (takeToken .leftParen .openingParen rest).andThen fun _ rest =>
  (parameters rest).andThen fun ps rest =>
  (takeToken .rightParen .commaOrClosingParen rest).andThen fun _ rest =>
  (returnType rest).map (⟨name, ps, ·⟩)

/-- The clause that lists conformances never gives tokens back; it may be left out. -/
theorem length_le_conformances (stream : StructuralStream) :
    (conformances stream).Shrinks (stream.length + 1) := by
  unfold conformances
  split
  · intro value final hdone
    have hlist := Shrinks.andThen (shrinks_takeToken .colon .colon stream)
      (fun _ _ _ => shrinks_commaSeparated ⟨takeName .conformanceName, shrinks_takeName _⟩ _)
    exact Nat.lt_succ_of_lt (hlist value final hdone)
  · intro value final hdone
    cases hdone
    omega

/-- A list of parameters never gives tokens back; it may be empty. -/
theorem length_le_parameters (stream : StructuralStream) :
    (parameters stream).Shrinks (stream.length + 1) := by
  unfold parameters
  split
  · intro value final hdone
    cases hdone
    omega
  · intro value final hdone
    exact Nat.lt_succ_of_lt (shrinks_commaSeparated _ _ value final hdone)

/-- The clause that names the type of the result never gives tokens back; it may be left out. -/
theorem length_le_returnType (stream : StructuralStream) :
    (returnType stream).Shrinks (stream.length + 1) := by
  unfold returnType
  split
  · intro value final hdone
    have := shrinks_takeName _ _ value final hdone
    simp only [List.length_tail] at this
    omega
  · intro value final hdone
    cases hdone
    omega

theorem shrinks_requirement (stream : StructuralStream) :
    (requirement stream).Shrinks stream.length := by
  intro value final h
  obtain ⟨_, afterKeyword, hkeyword, h⟩ := andThen_eq_done_iff.1 h
  obtain ⟨name, afterName, hname, h⟩ := andThen_eq_done_iff.1 h
  obtain ⟨_, afterOpening, hopening, h⟩ := andThen_eq_done_iff.1 h
  obtain ⟨ps, afterParameters, hps, h⟩ := andThen_eq_done_iff.1 h
  obtain ⟨_, afterClosing, hclosing, h⟩ := andThen_eq_done_iff.1 h
  have := shrinks_takeToken _ _ _ _ _ hkeyword
  have := shrinks_takeName _ _ _ _ hname
  have := shrinks_takeToken _ _ _ _ _ hopening
  have := length_le_parameters _ _ _ hps
  have := shrinks_takeToken _ _ _ _ _ hclosing
  have := (length_le_returnType afterClosing).map value final h
  omega

/-- The requirements of a protocol, up to its closing brace. -/
def requirements (stream : StructuralStream) : Outcome (List Requirement) :=
  if atToken .func stream then
    match _h : requirement stream with
    | done r rest => (requirements rest).map (r :: ·)
    | stuck expected rest => stuck expected rest
  else if atToken .rightBrace stream then done [] stream
  else stuck .requirementOrClosingBrace stream
termination_by stream.length
decreasing_by exact shrinks_requirement _ _ _ ‹_›

/-- In front of a `func` there is one more requirement. -/
theorem requirements_of_atToken {stream : StructuralStream} (h : atToken .func stream = true) :
    requirements stream =
      (requirement stream).andThen fun r rest => (requirements rest).map (r :: ·) := by
  rw [requirements, if_pos h]
  split <;> rename_i hread <;> rw [hread] <;> rfl

/-- One protocol declaration. -/
def protocolDecl (stream : StructuralStream) : Outcome ProtocolDecl :=
  (takeToken .protocolKeyword .protocolKeyword stream).andThen fun _ rest =>
  (takeName .protocolName rest).andThen fun name rest =>
  (conformances rest).andThen fun names rest =>
  (takeToken .leftBrace .openingBrace rest).andThen fun _ rest =>
  (requirements rest).andThen fun rs rest =>
  (takeToken .rightBrace .closingBrace rest).map fun _ => ⟨name, rs, names⟩

/-- The requirements of a body never give tokens back; there may be none. -/
theorem length_le_requirements (stream : StructuralStream) :
    (requirements stream).Shrinks (stream.length + 1) := by
  fun_induction requirements stream with
  | case1 stream hfunc r rest h ih =>
    intro value final hdone
    have := ih.map value final hdone
    have := shrinks_requirement _ _ _ h
    omega
  | case2 => intro value final hdone; cases hdone
  | case3 =>
    intro value final hdone
    cases hdone
    omega
  | case4 => intro value final hdone; cases hdone

theorem shrinks_protocolDecl (stream : StructuralStream) :
    (protocolDecl stream).Shrinks stream.length := by
  intro value final h
  obtain ⟨_, afterKeyword, hkeyword, h⟩ := andThen_eq_done_iff.1 h
  obtain ⟨name, afterName, hname, h⟩ := andThen_eq_done_iff.1 h
  obtain ⟨names, afterNames, hnames, h⟩ := andThen_eq_done_iff.1 h
  obtain ⟨_, afterOpening, hopening, h⟩ := andThen_eq_done_iff.1 h
  obtain ⟨rs, afterRequirements, hrs, h⟩ := andThen_eq_done_iff.1 h
  have := shrinks_takeToken _ _ _ _ _ hkeyword
  have := shrinks_takeName _ _ _ _ hname
  have := length_le_conformances _ _ _ hnames
  have := shrinks_takeToken _ _ _ _ _ hopening
  have := length_le_requirements _ _ _ hrs
  have := (shrinks_takeToken _ _ afterRequirements).map value final h
  omega

/-- All declarations of a stream. -/
def protocolDecls (stream : StructuralStream) : Outcome (List ProtocolDecl) :=
  match stream with
  | [] => done [] []
  | token :: rest =>
    match _h : protocolDecl (token :: rest) with
    | done p rest => (protocolDecls rest).map (p :: ·)
    | stuck expected rest => stuck expected rest
termination_by stream.length
decreasing_by exact shrinks_protocolDecl _ _ _ ‹_›

@[simp] theorem protocolDecls_nil : protocolDecls [] = done [] [] := by rw [protocolDecls]

/-- As long as there are tokens there is one more declaration. -/
theorem protocolDecls_cons (token : Located StructuralToken) (rest : StructuralStream) :
    protocolDecls (token :: rest) =
      (protocolDecl (token :: rest)).andThen fun p rest => (protocolDecls rest).map (p :: ·) := by
  rw [protocolDecls]
  split <;> rename_i hread <;> rw [hread] <;> rfl

/-- Declarations are read to the end of the stream or not at all. -/
theorem rest_eq_nil_of_protocolDecls {stream rest : StructuralStream} {ps : List ProtocolDecl}
    (h : protocolDecls stream = done ps rest) : rest = [] := by
  fun_induction protocolDecls stream generalizing ps with
  | case1 =>
    cases h
    rfl
  | case2 token after p middle hp ih =>
    obtain ⟨ps', hps, _⟩ := map_eq_done_iff.1 h
    exact ih hps
  | case3 => cases h

/-- The offset at which a stream ends. -/
def endOffset (stream : StructuralStream) : Nat :=
  (stream.getLast?.map (·.span.stop)).getD 0

/-- The error for a stream that cannot be accepted from the given rest on. -/
def errorAt (stream : StructuralStream) (expected : Expected) : StructuralStream → GrammarError
  | token :: _ => ⟨expected, some token.value, token.span⟩
  | [] => ⟨expected, none, ⟨endOffset stream, endOffset stream⟩⟩

@[simp] theorem expected_errorAt (stream : StructuralStream) (expected : Expected)
    (rest : StructuralStream) : (errorAt stream expected rest).expected = expected := by
  cases rest <;> rfl

end Declaration

/-- The declarations that a stream of structural tokens spells out. -/
def parseDeclarations (stream : StructuralStream) : Except GrammarError (List ProtocolDecl) :=
  match Declaration.protocolDecls stream with
  | .done decls _ => .ok decls
  | .stuck expected rest => .error (Declaration.errorAt stream expected rest)

end ProtocolMocks
