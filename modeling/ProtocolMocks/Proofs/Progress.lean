import ProtocolMocks.Proofs.VoidClause

/-!
# The cursor moves forward

A reader that is started at some position of a stream leaves the cursor at a later one, inside the
stream or at its end, whether it reads a value or gets stuck. A value costs tokens: four for a
protocol or a requirement, three for a parameter, two for a list of conformances. Every loop is
therefore over after a number of passes that the tokens left bound, and a stream of so many tokens
has room for a fourth as many protocols and requirements together.
-/

namespace ProtocolMocks

namespace Declaration

open Outcome

/-- The reader hands on the back of its stream; a value has taken at least the tokens it costs. -/
def Outcome.Takes {α : Type} (x : Outcome α) (stream : StructuralStream) (cost : α → Nat) : Prop :=
  match x with
  | done value rest => rest <:+ stream ∧ rest.length + cost value ≤ stream.length
  | stuck _ rest => rest <:+ stream

namespace Outcome.Takes

variable {α β : Type} {x : Outcome α} {stream : StructuralStream} {cost : α → Nat}

/-- What takes some tokens takes no fewer than a smaller number. -/
theorem mono {less : α → Nat} (h : x.Takes stream cost) (hless : ∀ value, less value ≤ cost value) :
    x.Takes stream less := by
  cases x with
  | done value rest =>
    have := hless value
    have := h.2
    exact ⟨h.1, by omega⟩
  | stuck expected rest => exact h

/-- The tokens in front of the place where the reader was started count too. -/
theorem of_suffix {middle : StructuralStream} {paid : Nat} (h : x.Takes middle cost)
    (hsuffix : middle <:+ stream) (hpaid : middle.length + paid ≤ stream.length) :
    x.Takes stream fun value => cost value + paid := by
  cases x with
  | done value rest =>
    have hrest := h.2
    refine ⟨h.1.trans hsuffix, ?_⟩
    simp only
    omega
  | stuck expected rest => exact List.IsSuffix.trans h hsuffix

/-- What follows a value has to pay the part of the cost that is left. -/
theorem andThen {next : α → StructuralStream → Outcome β} {total : β → Nat}
    (hx : x.Takes stream cost)
    (hnext : ∀ value rest, x = done value rest →
      (next value rest).Takes rest fun last => total last - cost value) :
    (x.andThen next).Takes stream total := by
  cases x with
  | stuck expected rest => exact hx
  | done value rest =>
    have hall := (hnext value rest rfl).of_suffix hx.1 hx.2
    exact hall.mono fun last => by omega

/-- A changed value has taken as many tokens as the one that it was made of. -/
theorem map {f : α → β} {total : β → Nat} (hx : x.Takes stream cost)
    (htotal : ∀ value, total (f value) ≤ cost value) : (x.map f).Takes stream total := by
  have hvalue : x.Takes stream fun value => total (f value) := hx.mono htotal
  cases x <;> exact hvalue

end Outcome.Takes

section

variable (stream : StructuralStream)

theorem takes_takeToken (kind : StructuralToken) (expected : Expected) :
    (takeToken kind expected stream).Takes stream fun _ => 1 := by
  cases stream with
  | nil => exact List.suffix_refl []
  | cons token rest =>
    rw [takeToken]
    split
    · exact ⟨List.suffix_cons token rest, Nat.le_refl _⟩
    · exact List.suffix_refl _

theorem takes_takeName (expected : Expected) :
    (takeName expected stream).Takes stream fun _ => 1 := by
  unfold takeName
  split
  · exact ⟨List.suffix_cons _ _, Nat.le_refl _⟩
  · exact List.suffix_refl _

/-- Nothing is taken where the cursor stays. -/
theorem takes_done {α : Type} {cost : α → Nat} (value : α) (h : cost value = 0) :
    (done value stream).Takes stream cost := by
  refine ⟨List.suffix_refl _, Nat.le_of_eq ?_⟩
  rw [h, Nat.add_zero]

/-- A list with commas takes at least what its first item takes. -/
theorem takes_commaSeparated {α : Type} (item : Reader α) {least : Nat}
    (hitem : ∀ stream, (item.read stream).Takes stream fun _ => least) :
    (commaSeparated item stream).Takes stream fun _ => least := by
  fun_induction commaSeparated item stream with
  | case1 stream expected rest h =>
    have hfirst := hitem stream
    rwa [h] at hfirst
  | case2 stream first rest h hcomma ih =>
    have hfirst := hitem stream
    rw [h] at hfirst
    have hpaid : rest.tail.length + least ≤ stream.length :=
      Nat.le_trans (by simp) hfirst.2
    have hmore := ih.of_suffix ((List.tail_suffix rest).trans hfirst.1) hpaid
    exact hmore.map fun _ => Nat.le_add_right _ _
  | case3 stream first rest h hcomma =>
    have hfirst := hitem stream
    rwa [h] at hfirst

/-- A list of conformances takes its colon and one name at least. -/
theorem takes_conformanceList : (conformanceList stream).Takes stream fun _ => 2 :=
  (takes_takeToken stream _ _).andThen fun _ rest _ =>
    takes_commaSeparated rest _ fun stream => takes_takeName stream _

/-- Conformances may be left out, so they need not take any tokens. -/
theorem takes_conformances : (conformances stream).Takes stream fun _ => 0 := by
  unfold conformances
  split
  · exact (takes_conformanceList stream).mono fun _ => Nat.zero_le _
  · exact takes_done stream _ rfl

/-- A type takes its colon and its name. -/
theorem takes_typeClause : (typeClause stream).Takes stream fun _ => 2 :=
  (takes_takeToken stream _ _).andThen fun _ rest _ => takes_takeName rest _

/-- Behind its first name a parameter takes at least the tokens of its type. -/
theorem takes_parameterAfter (first : String) :
    (parameterAfter first stream).Takes stream fun _ => 2 := by
  unfold parameterAfter
  split
  · rename_i name span rest
    have hlabelled := (takes_typeClause rest).of_suffix
      (List.suffix_cons (⟨.identifier name, span⟩ : Located StructuralToken) rest) (Nat.le_refl _)
    exact hlabelled.map fun _ => Nat.le_add_right _ _
  · exact (takes_typeClause stream).map fun _ => Nat.le_refl _

/-- A parameter takes a name and the tokens of its type at least. -/
theorem takes_parameter : (parameter stream).Takes stream fun _ => 3 :=
  (takes_takeName stream _).andThen fun _ rest _ => takes_parameterAfter rest _

/-- Parameters may be left out, so they need not take any tokens. -/
theorem takes_parameters : (parameters stream).Takes stream fun _ => 0 := by
  unfold parameters
  split
  · exact takes_done stream _ rfl
  · exact (takes_commaSeparated stream _ takes_parameter).mono fun _ => Nat.zero_le _

/-- The type of a result may be left out, so it need not take any tokens. -/
theorem takes_returnType : (returnType stream).Takes stream fun _ => 0 := by
  unfold returnType
  split
  · have hname := (takes_takeName stream.tail .typeName).of_suffix (List.tail_suffix stream)
      (show stream.tail.length + 0 ≤ stream.length by simp)
    exact hname.mono fun _ => Nat.zero_le _
  · exact takes_done stream _ rfl

/-- A requirement takes `func`, a name and two parentheses at least. -/
theorem takes_requirement : (requirement stream).Takes stream fun _ => 4 := by
  refine (takes_takeToken stream _ _).andThen fun _ rest _ => ?_
  refine (takes_takeName rest _).andThen fun _ rest _ => ?_
  refine (takes_takeToken rest _ _).andThen fun _ rest _ => ?_
  refine (takes_parameters rest).andThen fun _ rest _ => ?_
  refine (takes_takeToken rest _ _).andThen fun _ rest _ => ?_
  exact (takes_returnType rest).map fun _ => Nat.le_refl _

/-- Requirements take four tokens each. -/
theorem takes_requirements : (requirements stream).Takes stream fun rs => 4 * rs.length := by
  fun_induction requirements stream with
  | case1 stream hfunc r rest h ih =>
    have hfirst := takes_requirement stream
    rw [h] at hfirst
    have hpaid : rest.length + 4 ≤ stream.length := hfirst.2
    refine (ih.of_suffix hfirst.1 hpaid).map fun rs => ?_
    rw [List.length_cons]
    omega
  | case2 stream hfunc expected rest h =>
    have hfirst := takes_requirement stream
    rwa [h] at hfirst
  | case3 => exact takes_done _ _ rfl
  | case4 => exact List.suffix_refl _

/-- A declaration takes `protocol`, a name and two braces, and the tokens of its requirements. -/
theorem takes_protocolDecl :
    (protocolDecl stream).Takes stream fun p => 4 + 4 * p.requirements.length := by
  refine (takes_takeToken stream _ _).andThen fun _ rest _ => ?_
  refine (takes_takeName rest _).andThen fun _ rest _ => ?_
  refine (takes_conformances rest).andThen fun _ rest _ => ?_
  refine (takes_takeToken rest _ _).andThen fun _ rest _ => ?_
  refine (takes_requirements rest).andThen fun rs rest _ => ?_
  refine (takes_takeToken rest _ _).map fun _ => ?_
  simp only
  omega

/-- How many protocols there are, and requirements in them, all together. -/
def declared (ps : List ProtocolDecl) : Nat :=
  ps.length + (ps.flatMap ProtocolDecl.requirements).length

/-- Declarations take four tokens for each of them and for each of their requirements. -/
theorem takes_protocolDecls : (protocolDecls stream).Takes stream fun ps => 4 * declared ps := by
  fun_induction protocolDecls stream with
  | case1 => exact takes_done _ _ rfl
  | case2 token after p rest h ih =>
    have hfirst := takes_protocolDecl (token :: after)
    rw [h] at hfirst
    have hall := ih.of_suffix hfirst.1 hfirst.2
    refine hall.map fun ps => ?_
    simp only [declared, List.length_cons, List.flatMap_cons, List.length_append]
    omega
  | case3 token after expected rest h =>
    have hfirst := takes_protocolDecl (token :: after)
    rwa [h] at hfirst

end

/-- The error shows the token at a position, or the end of the stream and no token. -/
def ShowsAt (err : GrammarError) (stream : StructuralStream) (position : Nat) : Prop :=
  (∃ token, stream[position]? = some token ∧ err.found = some token.value ∧
    err.span = token.span) ∨
  (position = stream.length ∧ err.found = none ∧ err.span = ⟨endOffset stream, endOffset stream⟩)

/-- Where a reader that was started at a position of the stream leaves the cursor: behind a value,
at least so many tokens further on, or at the place that the error shows. -/
inductive Outcome.MovesFrom {α : Type} (stream : StructuralStream) (start least : Nat) :
    Outcome α → Prop
  | forward {value position} : start + least ≤ position → position ≤ stream.length →
      MovesFrom stream start least (done value (stream.drop position))
  | stays {expected position} : start ≤ position → position ≤ stream.length →
      ShowsAt (errorAt stream expected (stream.drop position)) stream position →
      MovesFrom stream start least (stuck expected (stream.drop position))

/-- An error shows the token on which a reader got stuck. -/
theorem showsAt_errorAt {stream : StructuralStream} {position : Nat}
    (h : position ≤ stream.length) (expected : Expected) :
    ShowsAt (errorAt stream expected (stream.drop position)) stream position := by
  rcases Nat.eq_or_lt_of_le h with rfl | hlt
  · rw [List.drop_length]
    exact .inr ⟨rfl, rfl, rfl⟩
  · rw [List.drop_eq_getElem_cons hlt]
    exact .inl ⟨stream[position], List.getElem?_eq_getElem hlt, rfl, rfl⟩

/-- What is left of a stream from one position on is what is left from a later one. -/
theorem exists_position {stream rest : StructuralStream} {start : Nat}
    (hstart : start ≤ stream.length) (h : rest <:+ stream.drop start) :
    ∃ position, rest = stream.drop position ∧ start ≤ position ∧ position ≤ stream.length := by
  have hlength := h.length_le
  rw [List.length_drop] at hlength
  refine ⟨stream.length - rest.length, ?_, by omega, Nat.sub_le _ _⟩
  exact List.suffix_iff_eq_drop.1 (h.trans (List.drop_suffix start stream))

/-- A reader that takes tokens off the front moves the cursor on by as many of them. -/
theorem Outcome.Takes.movesFrom {α : Type} {x : Outcome α} {stream : StructuralStream}
    {start least : Nat} {cost : α → Nat} (h : x.Takes (stream.drop start) cost)
    (hcost : ∀ value, least ≤ cost value) (hstart : start ≤ stream.length) :
    x.MovesFrom stream start least := by
  cases x with
  | done value rest =>
    obtain ⟨position, rfl, -, hend⟩ := exists_position hstart h.1
    have htaken := h.2
    have hvalue := hcost value
    simp only [List.length_drop] at htaken
    exact .forward (by omega) hend
  | stuck expected rest =>
    obtain ⟨position, rfl, hposition, hend⟩ := exists_position hstart h
    exact .stays hposition hend (showsAt_errorAt hend expected)

/-- No reader moves the cursor back or beyond the end of the stream, and what is read moves it on by
as many tokens as its shortest form has. -/
structure MovesCursor (stream : StructuralStream) (start : Nat) : Prop where
  protocolDecl : (protocolDecl (stream.drop start)).MovesFrom stream start 4
  requirement : (requirement (stream.drop start)).MovesFrom stream start 4
  parameter : (parameter (stream.drop start)).MovesFrom stream start 3
  conformanceList : (conformanceList (stream.drop start)).MovesFrom stream start 2
  typeClause : (typeClause (stream.drop start)).MovesFrom stream start 2
  takeName : ∀ expected, (takeName expected (stream.drop start)).MovesFrom stream start 1
  takeToken : ∀ kind expected,
    (takeToken kind expected (stream.drop start)).MovesFrom stream start 1
  conformances : (conformances (stream.drop start)).MovesFrom stream start 0
  parameters : (parameters (stream.drop start)).MovesFrom stream start 0
  returnType : (returnType (stream.drop start)).MovesFrom stream start 0
  requirements : (requirements (stream.drop start)).MovesFrom stream start 0
  protocolDecls : (protocolDecls (stream.drop start)).MovesFrom stream start 0

/-- Each reader takes tokens off the front, so none of them moves the cursor back. -/
theorem movesCursor {stream : StructuralStream} {start : Nat} (h : start ≤ stream.length) :
    MovesCursor stream start where
  protocolDecl := (takes_protocolDecl _).movesFrom (fun _ => Nat.le_add_right _ _) h
  requirement := (takes_requirement _).movesFrom (fun _ => Nat.le_refl _) h
  parameter := (takes_parameter _).movesFrom (fun _ => Nat.le_refl _) h
  conformanceList := (takes_conformanceList _).movesFrom (fun _ => Nat.le_refl _) h
  typeClause := (takes_typeClause _).movesFrom (fun _ => Nat.le_refl _) h
  takeName _ := (takes_takeName _ _).movesFrom (fun _ => Nat.le_refl _) h
  takeToken _ _ := (takes_takeToken _ _ _).movesFrom (fun _ => Nat.le_refl _) h
  conformances := (takes_conformances _).movesFrom (fun _ => Nat.zero_le _) h
  parameters := (takes_parameters _).movesFrom (fun _ => Nat.zero_le _) h
  returnType := (takes_returnType _).movesFrom (fun _ => Nat.zero_le _) h
  requirements := (takes_requirements _).movesFrom (fun _ => Nat.zero_le _) h
  protocolDecls := (takes_protocolDecls _).movesFrom (fun _ => Nat.zero_le _) h

/-- A loop makes passes until it is to stop or a pass gets stuck. The number counts the passes that
read an item. -/
inductive Loop {α : Type} (pass : StructuralStream → Outcome α) (stop : StructuralStream → Bool) :
    Nat → StructuralStream → Outcome (List α) → Prop
  | exit {stream} : stop stream = true → Loop pass stop 0 stream (done [] stream)
  | fail {stream expected rest} : stop stream = false → pass stream = stuck expected rest →
      Loop pass stop 0 stream (stuck expected rest)
  | next {stream value rest count outcome} : stop stream = false →
      pass stream = done value rest → Loop pass stop count rest outcome →
      Loop pass stop (count + 1) stream (outcome.map (value :: ·))

/-- The loop is over after finitely many passes, with at least so many tokens for each. -/
def LoopEnds {α : Type} (pass : StructuralStream → Outcome α) (stop : StructuralStream → Bool)
    (least : Nat) (stream : StructuralStream) (outcome : Outcome (List α)) : Prop :=
  ∃ count, least * count ≤ stream.length ∧ Loop pass stop count stream outcome

/-- Where every pass takes so many tokens, there are no more passes than the tokens allow. -/
theorem Loop.count_le {α : Type} {pass : StructuralStream → Outcome α}
    {stop : StructuralStream → Bool} {least count : Nat} {stream : StructuralStream}
    {outcome : Outcome (List α)} (h : Loop pass stop count stream outcome)
    (hpass : ∀ stream, stop stream = false → (pass stream).Takes stream fun _ => least) :
    least * count ≤ stream.length := by
  induction h with
  | exit => simp
  | fail => simp
  | @next stream value rest count outcome hstop hvalue _ ih =>
    have hfirst := hpass stream hstop
    rw [hvalue] at hfirst
    have htaken : rest.length + least ≤ stream.length := hfirst.2
    rw [Nat.mul_succ]
    omega

/-- A requirement in the body of a protocol, which may not start with anything else. -/
def bodyItem (stream : StructuralStream) : Outcome Requirement :=
  if atToken .func stream then requirement stream else stuck .requirementOrClosingBrace stream

/-- An item of a body is a requirement, and takes four tokens. -/
theorem takes_bodyItem (stream : StructuralStream) :
    (bodyItem stream).Takes stream fun _ => 4 := by
  unfold bodyItem
  split
  · exact takes_requirement stream
  · exact List.suffix_refl _

/-- Declarations are read in a loop that stops at the end of the stream. -/
theorem loop_protocolDecls (stream : StructuralStream) :
    ∃ count, Loop protocolDecl List.isEmpty count stream (protocolDecls stream) := by
  fun_induction protocolDecls stream with
  | case1 => exact ⟨0, .exit rfl⟩
  | case2 token after p rest h ih =>
    obtain ⟨count, hmore⟩ := ih
    exact ⟨count + 1, .next rfl h hmore⟩
  | case3 token after expected rest h => exact ⟨0, .fail rfl h⟩

/-- Requirements are read in a loop that stops at a closing brace, and gets stuck on anything but
`func`. -/
theorem loop_requirements (stream : StructuralStream) :
    ∃ count, Loop bodyItem (atToken .rightBrace) count stream (requirements stream) := by
  fun_induction requirements stream with
  | case1 stream hfunc r rest h ih =>
    obtain ⟨count, hmore⟩ := ih
    have hbrace : atToken .rightBrace stream = false :=
      atToken_eq_false_of_atToken hfunc (by decide)
    have hitem : bodyItem stream = done r rest := by rw [bodyItem, if_pos hfunc, h]
    exact ⟨count + 1, .next hbrace hitem hmore⟩
  | case2 stream hfunc expected rest h =>
    have hbrace : atToken .rightBrace stream = false :=
      atToken_eq_false_of_atToken hfunc (by decide)
    have hitem : bodyItem stream = stuck expected rest := by rw [bodyItem, if_pos hfunc, h]
    exact ⟨0, .fail hbrace hitem⟩
  | case3 stream hfunc hbrace => exact ⟨0, .exit hbrace⟩
  | case4 stream hfunc hbrace =>
    have hitem : bodyItem stream = stuck .requirementOrClosingBrace stream := if_neg hfunc
    exact ⟨0, .fail (by simpa using hbrace) hitem⟩

/-- Behind the first item, a list with commas is a loop that stops where no comma follows. -/
theorem loop_commaSeparated {α : Type} {item : Reader α} {stream rest : StructuralStream}
    {first : α} (h : item.read stream = done first rest) :
    ∃ count outcome, commaSeparated item stream = outcome.map (first :: ·) ∧
      Loop (fun stream => item.read stream.tail) (fun stream => !atToken .comma stream) count rest
        outcome := by
  fun_induction commaSeparated item stream generalizing first rest with
  | case1 stream expected rest' hstuck =>
    rw [hstuck] at h
    cases h
  | case2 stream first' rest' hdone hcomma ih =>
    rw [hdone] at h
    cases h
    have hstop : (!atToken .comma rest') = false := by simp [hcomma]
    cases hnext : item.read rest'.tail with
    | stuck expected final =>
      refine ⟨0, stuck expected final, ?_, .fail hstop hnext⟩
      rw [commaSeparated_eq, hnext]
      rfl
    | done second after =>
      obtain ⟨count, outcome, hmore, hloop⟩ := ih hnext
      exact ⟨count + 1, outcome.map (second :: ·), by rw [hmore], .next hstop hnext hloop⟩
  | case3 stream first' rest' hdone hcomma =>
    rw [hdone] at h
    cases h
    exact ⟨0, done [] rest', rfl, .exit (by simpa using hcomma)⟩

/-- Behind its first item, the list is read by a loop that ends. -/
def ListEnds {α : Type} (item : Reader α) (least : Nat) (stream : StructuralStream) : Prop :=
  ∀ first rest, item.read stream = done first rest →
    ∃ outcome, commaSeparated item stream = outcome.map (first :: ·) ∧
      LoopEnds (fun stream => item.read stream.tail) (fun stream => !atToken .comma stream)
        (1 + least) rest outcome

/-- A pass through a list takes its comma and what an item takes at least, so there are not too many
passes. -/
theorem listEnds {α : Type} {item : Reader α} {least : Nat}
    (hitem : ∀ stream, (item.read stream).Takes stream fun _ => least)
    (stream : StructuralStream) : ListEnds item least stream := by
  intro first rest h
  obtain ⟨count, outcome, heq, hloop⟩ := loop_commaSeparated h
  refine ⟨outcome, heq, count, hloop.count_le fun stream hstop => ?_, hloop⟩
  have hcomma : atToken .comma stream = true := by simpa using hstop
  obtain ⟨span, more, rfl⟩ := atToken_eq_true_iff.1 hcomma
  have hpaid : more.length + 1 ≤ ((⟨.comma, span⟩ : Located StructuralToken) :: more).length :=
    Nat.le_refl _
  exact ((hitem more).of_suffix (List.suffix_cons _ _) hpaid).mono fun _ => by omega

/-- Every loop of the readers ends. Its passes are bounded by the tokens that are left. -/
structure LoopsEnd (stream : StructuralStream) : Prop where
  protocolDecls : LoopEnds protocolDecl List.isEmpty 4 stream (protocolDecls stream)
  requirements : LoopEnds bodyItem (atToken .rightBrace) 4 stream (requirements stream)
  parameters : ListEnds ⟨parameter, shrinks_parameter⟩ 3 stream
  conformances : ListEnds ⟨takeName .conformanceName, shrinks_takeName _⟩ 1 stream

/-- All loops of the readers end, as every pass takes tokens. -/
theorem loopsEnd (stream : StructuralStream) : LoopsEnd stream where
  protocolDecls := by
    obtain ⟨count, hloop⟩ := loop_protocolDecls stream
    refine ⟨count, hloop.count_le fun stream _ => ?_, hloop⟩
    exact (takes_protocolDecl stream).mono fun _ => Nat.le_add_right _ _
  requirements := by
    obtain ⟨count, hloop⟩ := loop_requirements stream
    exact ⟨count, hloop.count_le fun stream _ => takes_bodyItem stream, hloop⟩
  parameters := listEnds takes_parameter stream
  conformances := listEnds (fun stream => takes_takeName stream _) stream

end Declaration

open Declaration

/-- From any position of a stream the readers move the cursor forward or get stuck on the token that
the error shows, so their loops end. A stream that parses is taken whole, and four tokens of it
allow for no more than one protocol or requirement. -/
theorem cursor_moves_forward {stream : StructuralStream} {start : Nat}
    (h : start ≤ stream.length) :
    MovesCursor stream start ∧ LoopsEnd (stream.drop start) ∧
      ∀ decls, parseDeclarations stream = .ok decls →
        protocolDecls stream = .done decls [] ∧ decls.length ≤ stream.length / 4 ∧
          decls.length + (decls.flatMap ProtocolDecl.requirements).length ≤ stream.length / 4 := by
  refine ⟨movesCursor h, loopsEnd _, fun decls hdecls => ?_⟩
  have htakes := takes_protocolDecls stream
  unfold parseDeclarations at hdecls
  cases hread : protocolDecls stream with
  | stuck expected rest =>
    rw [hread] at hdecls
    cases hdecls
  | done ps rest =>
    rw [hread] at hdecls htakes
    cases hdecls
    have hcost : rest.length + 4 * declared decls ≤ stream.length := htakes.2
    rw [rest_eq_nil_of_protocolDecls hread, List.length_nil, declared] at hcost
    exact ⟨by rw [rest_eq_nil_of_protocolDecls hread], by omega, by omega⟩

/-- The tokens of `protocol P { func f() func g() }`. -/
def twoRequirements : StructuralStream :=
  bare [.protocolKeyword, .identifier "P", .leftBrace, .func, .identifier "f", .leftParen,
    .rightParen, .func, .identifier "g", .leftParen, .rightParen, .rightBrace]

/-- A protocol with two requirements in as few tokens as can be, and the readers started at the
first requirement. -/
theorem twoRequirements_fill_stream :
    3 ≤ twoRequirements.length ∧ MovesCursor twoRequirements 3 ∧
      LoopsEnd (twoRequirements.drop 3) ∧
      parseDeclarations twoRequirements =
        .ok [⟨"P", [⟨"f", [], "Void"⟩, ⟨"g", [], "Void"⟩], []⟩] ∧
      protocolDecls twoRequirements =
        .done [⟨"P", [⟨"f", [], "Void"⟩, ⟨"g", [], "Void"⟩], []⟩] [] ∧
      1 + 2 ≤ twoRequirements.length / 4 := by
  have hstart : 3 ≤ twoRequirements.length := by decide
  have hrequirement : ∀ name, Requirement.SpelledBy ⟨name, [], "Void"⟩
      [.func, .identifier name, .leftParen, .rightParen] := fun _ => .mk .empty .omitted
  have hprotocol : ProtocolDecl.SpelledBy ⟨"P", [⟨"f", [], "Void"⟩, ⟨"g", [], "Void"⟩], []⟩
      (twoRequirements.map Located.value) :=
    .mk .omitted (.cons (hrequirement "f") (.cons (hrequirement "g") .nil))
  have hparse : parseDeclarations twoRequirements =
      .ok [⟨"P", [⟨"f", [], "Void"⟩, ⟨"g", [], "Void"⟩], []⟩] :=
    parseDeclarations_of_spelled (.cons hprotocol .nil)
  obtain ⟨hmoves, hloops, hwhole⟩ := cursor_moves_forward hstart
  obtain ⟨hread, -, hall⟩ := hwhole _ hparse
  exact ⟨hstart, hmoves, hloops, hparse, hread, hall⟩

end ProtocolMocks
