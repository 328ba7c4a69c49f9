import ProtocolMocks.Proofs.Position

/-!
# Errors stop at the first wrong token

Each reader follows the positions of the grammar: it leaves the position where it enters for the one
where it is done, or gets stuck just where the positions see the stream depart. A stream is
therefore rejected exactly at the end of its longest prefix that some declarations begin with.
-/

namespace ProtocolMocks

namespace Declaration

open Outcome

/-- The reader is done where the foreseen departure is that of the exit position, or stuck at the
foreseen departure itself. -/
def Outcome.Follows {α : Type} (x : Outcome α) (foreseen : Option (Expected × StructuralStream))
    (exit : Position) : Prop :=
  match x with
  | done _ rest => foreseen = exit.departure rest
  | stuck expected rest => foreseen = some (expected, rest)

/-- Readers in a row follow the grammar if the second one does from where the first one is done. -/
theorem Outcome.Follows.andThen {α β : Type} {x : Outcome α}
    {next : α → StructuralStream → Outcome β} {foreseen : Option (Expected × StructuralStream)}
    {middle exit : Position} (hx : x.Follows foreseen middle)
    (hnext : ∀ value rest, x = done value rest →
      (next value rest).Follows (middle.departure rest) exit) :
    (x.andThen next).Follows foreseen exit := by
  cases x with
  | done value rest =>
    have hrest : foreseen = middle.departure rest := hx
    rw [hrest]
    exact hnext value rest rfl
  | stuck expected rest => exact hx

/-- Changing the value that was read changes nothing about the place. -/
theorem Outcome.Follows.map {α β : Type} {x : Outcome α} {f : α → β}
    {foreseen : Option (Expected × StructuralStream)} {exit : Position}
    (hx : x.Follows foreseen exit) : (x.map f).Follows foreseen exit := by
  cases x <;> exact hx

/-- A token is taken at a position that accepts no other. -/
theorem follows_takeToken {p q : Position} {kind : StructuralToken} (hp : p.Takes kind q)
    (stream : StructuralStream) :
    (takeToken kind p.expected stream).Follows (p.departure stream) q := by
  cases stream with
  | nil => exact Position.departure_nil hp.ne_declaration
  | cons token rest =>
    have hhead := hp.next_eq token.value
    by_cases hvalue : token.value = kind
    · rw [if_pos hvalue] at hhead
      rw [takeToken, if_pos hvalue]
      exact Position.departure_cons_of_some hhead rest
    · rw [if_neg hvalue] at hhead
      rw [takeToken, if_neg hvalue]
      exact Position.departure_cons_of_none hhead rest

/-- A name is taken at a position that accepts nothing else. -/
theorem follows_takeName {p q : Position} (hp : p.TakesName q) (stream : StructuralStream) :
    (takeName p.expected stream).Follows (p.departure stream) q := by
  rcases stream with _ | ⟨⟨value, span⟩, rest⟩
  · exact Position.departure_nil hp.ne_declaration
  · have hhead := hp.next_eq value
    cases value with
    | identifier name => exact Position.departure_cons_of_some hhead rest
    | _ => exact Position.departure_cons_of_none hhead rest

/-- A comma leads back to the item; without one the list is over. -/
theorem follows_commaSeparated {α : Type} {item : Reader α} {start more exit : Position}
    (hmore : more.Offers .comma start exit)
    (hitem : ∀ stream, (item.read stream).Follows (start.departure stream) more)
    (stream : StructuralStream) :
    (commaSeparated item stream).Follows (start.departure stream) exit := by
  fun_induction commaSeparated item stream with
  | case1 stream expected rest h =>
    have hstuck := hitem stream
    rw [h] at hstuck
    exact hstuck
  | case2 stream first rest h hat ih =>
    have hfirst : start.departure stream = more.departure rest := by
      have hdone := hitem stream
      rw [h] at hdone
      exact hdone
    rw [hfirst, hmore.departure_of_atToken hat]
    exact ih.map
  | case3 stream first rest h hat =>
    have hfirst : start.departure stream = more.departure rest := by
      have hdone := hitem stream
      rw [h] at hdone
      exact hdone
    exact hfirst.trans (hmore.departure_of_not_atToken (by simpa using hat))

/-- Conformances are read behind the name of a protocol, down to the opening brace. -/
theorem follows_conformances (stream : StructuralStream) :
    (conformances stream).Follows (Position.departure .conformances stream) .openingBrace := by
  have hoffer : Position.Offers .conformances .colon .conformanceName .openingBrace :=
    ⟨by decide, by decide, rfl, fun token => by cases token <;> rfl⟩
  have hmore : Position.Offers .moreConformances .comma .conformanceName .openingBrace :=
    ⟨by decide, by decide, rfl, fun token => by cases token <;> rfl⟩
  have hname : Position.TakesName .conformanceName .moreConformances :=
    ⟨by decide, fun token => by cases token <;> rfl⟩
  unfold conformances
  split
  · rename_i hcolon
    rw [hoffer.departure_of_atToken hcolon, conformanceList, takeToken_of_atToken hcolon,
      andThen_done]
    exact follows_commaSeparated hmore (follows_takeName hname) _
  · rename_i hcolon
    exact hoffer.departure_of_not_atToken (by simpa using hcolon)

/-- A type is read at a colon, down to the end of the parameter. -/
theorem follows_typeClause (stream : StructuralStream) :
    (typeClause stream).Follows (Position.departure .colon stream) .moreParameters := by
  have hcolon : Position.Takes .colon .colon .typeName :=
    ⟨by decide, fun token => by cases token <;> rfl⟩
  have hname : Position.TakesName .typeName .moreParameters :=
    ⟨by decide, fun token => by cases token <;> rfl⟩
  exact (follows_takeToken hcolon stream).andThen fun _ rest _ => follows_takeName hname rest

/-- Behind the first name of a parameter there is a second one or the colon; without a second name
only the colon is left to be accepted. -/
theorem follows_parameterAfter (first : String) (stream : StructuralStream) :
    (parameterAfter first stream).Follows (Position.departure .secondName stream)
      .moreParameters := by
  unfold parameterAfter
  split
  · exact (follows_typeClause _).map
  · rename_i hstream
    have hsecond : Position.departure .secondName stream = Position.departure .colon stream := by
      rcases stream with _ | ⟨⟨value, span⟩, rest⟩
      · rfl
      · cases value with
        | identifier name => exact absurd rfl (hstream name span rest)
        | _ => rfl
    rw [hsecond]
    exact (follows_typeClause stream).map

/-- A parameter is read at its name, down to its end. -/
theorem follows_parameter (stream : StructuralStream) :
    (parameter stream).Follows (Position.departure .parameterName stream) .moreParameters := by
  have hname : Position.TakesName .parameterName .secondName :=
    ⟨by decide, fun token => by cases token <;> rfl⟩
  exact (follows_takeName hname stream).andThen fun _ rest _ => follows_parameterAfter _ rest

/-- Parameters are read behind an opening parenthesis, down to the closing one. -/
theorem follows_parameters (stream : StructuralStream) :
    (parameters stream).Follows (Position.departure .parameters stream) .closingParen := by
  have hoffer : Position.Offers .parameters .rightParen .returnClause .parameterName :=
    ⟨by decide, by decide, rfl, fun token => by cases token <;> rfl⟩
  have hmore : Position.Offers .moreParameters .comma .parameterName .closingParen :=
    ⟨by decide, by decide, rfl, fun token => by cases token <;> rfl⟩
  unfold parameters
  split
  · rename_i hparen
    exact (hoffer.departure_of_atToken hparen).trans
      (Position.departure_of_atToken hparen rfl).symm
  · rename_i hparen
    rw [hoffer.departure_of_not_atToken (by simpa using hparen)]
    exact follows_commaSeparated hmore follows_parameter stream

/-- The type of a result is read behind the parameters, down to the next requirement. -/
theorem follows_returnType (stream : StructuralStream) :
    (returnType stream).Follows (Position.departure .returnClause stream) .requirement := by
  have hoffer : Position.Offers .returnClause .arrow .returnType .requirement :=
    ⟨by decide, by decide, rfl, fun token => by cases token <;> rfl⟩
  have hname : Position.TakesName .returnType .requirement :=
    ⟨by decide, fun token => by cases token <;> rfl⟩
  unfold returnType
  split
  · rename_i harrow
    rw [hoffer.departure_of_atToken harrow]
    exact follows_takeName hname stream.tail
  · rename_i harrow
    exact hoffer.departure_of_not_atToken (by simpa using harrow)

/-- A requirement is read at the name of its function, down to the next requirement. -/
theorem follows_requirement {stream : StructuralStream} (h : atToken .func stream = true) :
    (requirement stream).Follows (Position.departure .functionName stream.tail) .requirement := by
  have hname : Position.TakesName .functionName .openingParen :=
    ⟨by decide, fun token => by cases token <;> rfl⟩
  have hopening : Position.Takes .openingParen .leftParen .parameters :=
    ⟨by decide, fun token => by cases token <;> rfl⟩
  have hclosing : Position.Takes .closingParen .rightParen .returnClause :=
    ⟨by decide, fun token => by cases token <;> rfl⟩
  rw [requirement, takeToken_of_atToken h, andThen_done]
  refine (follows_takeName hname _).andThen fun _ rest _ => ?_
  refine (follows_takeToken hopening rest).andThen fun _ rest _ => ?_
  refine (follows_parameters rest).andThen fun _ rest _ => ?_
  refine (follows_takeToken hclosing rest).andThen fun _ rest _ => ?_
  exact (follows_returnType rest).map

/-- Requirements are read in a body, down to its end. -/
theorem follows_requirements (stream : StructuralStream) :
    (requirements stream).Follows (Position.departure .requirement stream) .requirement := by
  fun_induction requirements stream with
  | case1 stream hfunc r rest h ih =>
    have hfirst := follows_requirement hfunc
    rw [h] at hfirst
    rw [Position.departure_of_atToken hfunc (p := .requirement) rfl, hfirst]
    exact ih.map
  | case2 stream hfunc expected rest h =>
    have hfirst := follows_requirement hfunc
    rw [h] at hfirst
    exact (Position.departure_of_atToken hfunc rfl).trans hfirst
  | case3 => rfl
  | case4 stream hfunc hbrace =>
    rcases stream with _ | ⟨⟨value, span⟩, rest⟩
    · rfl
    · apply Position.departure_cons_of_none
      cases value <;> simp_all [Position.next]

/-- The requirements of a protocol are over only at a closing brace. -/
theorem atToken_rightBrace_of_requirements {stream rest : StructuralStream}
    {rs : List Requirement} (h : requirements stream = done rs rest) :
    atToken .rightBrace rest = true := by
  fun_induction requirements stream generalizing rs with
  | case1 stream hfunc r after hr ih =>
    obtain ⟨rs', hrs, _⟩ := map_eq_done_iff.1 h
    exact ih hrs
  | case2 => cases h
  | case3 stream hfunc hbrace =>
    cases h
    exact hbrace
  | case4 => cases h

/-- A declaration is read from its keyword down to its closing brace. -/
theorem follows_protocolDecl (token : Located StructuralToken) (rest : StructuralStream) :
    (protocolDecl (token :: rest)).Follows (Position.departure .declaration (token :: rest))
      .declaration := by
  have hname : Position.TakesName .protocolName .conformances :=
    ⟨by decide, fun token => by cases token <;> rfl⟩
  have hopening : Position.Takes .openingBrace .leftBrace .requirement :=
    ⟨by decide, fun token => by cases token <;> rfl⟩
  unfold protocolDecl
  by_cases hvalue : token.value = .protocolKeyword
  · have hat : atToken .protocolKeyword (token :: rest) = true := by simpa using hvalue
    rw [takeToken_of_atToken hat, andThen_done,
      Position.departure_of_atToken hat (p := .declaration) rfl]
    refine (follows_takeName hname _).andThen fun _ rest _ => ?_
    refine (follows_conformances rest).andThen fun _ rest _ => ?_
    refine (follows_takeToken hopening rest).andThen fun _ rest _ => ?_
    refine (follows_requirements rest).andThen fun _ rest hrs => ?_
    have hbrace := atToken_rightBrace_of_requirements hrs
    rw [takeToken_of_atToken hbrace]
    exact Position.departure_of_atToken hbrace rfl
  · rw [takeToken, if_neg hvalue, andThen_stuck]
    apply Position.departure_cons_of_none
    obtain ⟨value, span⟩ := token
    cases value <;> simp_all [Position.next]

/-- Declarations are read down to the end of the stream. -/
theorem follows_protocolDecls (stream : StructuralStream) :
    (protocolDecls stream).Follows (Position.departure .declaration stream) .declaration := by
  fun_induction protocolDecls stream with
  | case1 => rfl
  | case2 token rest p after h ih =>
    have hfirst := follows_protocolDecl token rest
    rw [h] at hfirst
    rw [hfirst]
    exact ih.map
  | case3 token rest expected after h =>
    have hfirst := follows_protocolDecl token rest
    rw [h] at hfirst
    exact hfirst

/-- A list that does not start the way its items do cannot be stuck for another reason. -/
theorem expected_of_commaSeparated {α : Type} {item : Reader α} {asked : Expected}
    (hitem : ∀ stream expected rest, item.read stream = stuck expected rest → expected = asked)
    {stream rest : StructuralStream} {expected : Expected}
    (h : commaSeparated item stream = stuck expected rest) : expected = asked := by
  fun_induction commaSeparated item stream with
  | case1 stream expected' rest' hstuck =>
    cases h
    exact hitem _ _ _ hstuck
  | case2 stream first rest' hfirst hat ih =>
    cases hmore : commaSeparated item rest'.tail with
    | done value final =>
      rw [hmore] at h
      cases h
    | stuck expected' final =>
      rw [hmore] at h
      cases h
      exact ih hmore
  | case3 => cases h

/-- The colon of a conformance list is looked for twice and found the second time. -/
theorem expected_of_conformances {stream rest : StructuralStream} {expected : Expected}
    (h : conformances stream = stuck expected rest) : expected = .conformanceName := by
  unfold conformances at h
  split at h
  · rename_i hcolon
    rw [conformanceList, takeToken_of_atToken hcolon, andThen_done] at h
    refine expected_of_commaSeparated (fun s e r hname => ?_) h
    simp only [takeName] at hname
    split at hname <;> cases hname
    rfl
  · cases h

/-- A stream without a departure is accepted. -/
theorem exists_ok_of_departure {stream : StructuralStream}
    (h : Position.departure .declaration stream = none) :
    ∃ decls, parseDeclarations stream = .ok decls := by
  have hfollows := follows_protocolDecls stream
  unfold parseDeclarations
  cases hread : protocolDecls stream with
  | done decls rest => exact ⟨decls, rfl⟩
  | stuck expected rest =>
    rw [hread, h] at hfollows
    cases hfollows

/-- A departing stream is rejected where it departs. -/
theorem error_of_departure {stream rest : StructuralStream} {expected : Expected}
    (h : Position.departure .declaration stream = some (expected, rest)) :
    parseDeclarations stream = .error (errorAt stream expected rest) := by
  have hfollows := follows_protocolDecls stream
  unfold parseDeclarations
  cases hread : protocolDecls stream with
  | done decls final =>
    rw [hread, h, rest_eq_nil_of_protocolDecls hread] at hfollows
    cases hfollows
  | stuck expected' final =>
    rw [hread, h] at hfollows
    cases hfollows
    rfl

/-- Every error comes from a departure. -/
theorem exists_departure_of_error {stream : StructuralStream} {err : GrammarError}
    (h : parseDeclarations stream = .error err) :
    ∃ expected rest, Position.departure .declaration stream = some (expected, rest) ∧
      err = errorAt stream expected rest := by
  cases hdep : Position.departure .declaration stream with
  | none =>
    obtain ⟨decls, hdecls⟩ := exists_ok_of_departure hdep
    rw [hdecls] at h
    cases h
  | some place =>
    obtain ⟨expected, rest⟩ := place
    rw [error_of_departure hdep] at h
    cases h
    exact ⟨expected, rest, rfl, rfl⟩

end Declaration

open Declaration

/-- A stream that some accepted stream begins with. -/
def Viable (stream : StructuralStream) : Prop :=
  ∃ more decls, parseDeclarations (stream ++ more) = .ok decls

/-- Whatever walks from between two declarations to some position is viable. -/
theorem viable_of_walk {stream : StructuralStream} {p : Position}
    (h : Position.walk .declaration (stream.map Located.value) = some p) : Viable stream := by
  refine ⟨bare p.completion, exists_ok_of_departure ?_⟩
  have hcompletion : p.walk ((bare p.completion).map Located.value) = some .declaration := by
    rw [map_value_bare]
    exact p.walk_completion
  rw [Position.departure_append h, ← List.append_nil (bare _),
    Position.departure_append hcompletion]
  rfl

/-- What an error tells about the stream that it rejects. -/
structure GrammarError.Pinpoints (err : GrammarError) (stream : StructuralStream) (i : Nat) :
    Prop where
  /-- It shows the token at the index, or the end of the last token if there is none. -/
  shown : (∃ token, stream[i]? = some token ∧ err.found = some token.value ∧
      err.span = token.span) ∨
    (i = stream.length ∧ err.found = none ∧
      ∃ last, stream.getLast? = some last ∧ err.span = ⟨last.span.stop, last.span.stop⟩)
  /-- Up to there the stream can be completed. -/
  viable : Viable (stream.take i)
  /-- Nothing behind the token that it shows can change it. -/
  decided : err.found ≠ none →
    ∀ more, parseDeclarations (stream.take (i + 1) ++ more) = .error err
  /-- Any token that it asks for would have been accepted. -/
  asked : ∀ token, err.expected.admits token.value = true → Viable (stream.take i ++ [token])

/-- Every error pinpoints the place where the stream stops being viable, and asks for one of eleven
things. So the checks that repeat a look at the same token never fail: no error asks for `func` or
for the closing brace alone, and none about conformances asks for their colon. -/
theorem error_pinpoints_departure {stream : StructuralStream} {err : GrammarError}
    (h : parseDeclarations stream = .error err) :
    (∃ i ≤ stream.length, err.Pinpoints stream i) ∧
      err.expected.description ∈ ["`protocol`", "protocol name", "conformance name", "`\x7b`",
        "`func` or `\x7d`", "function name", "`(`", "argument name", "`:`", "type name",
        "`,` or `)`"] ∧
      ∀ list rest expected, conformances list = .stuck expected rest →
        expected = .conformanceName := by
  obtain ⟨expected, rest, hdep, rfl⟩ := exists_departure_of_error h
  obtain ⟨taken, p, rfl, hwalk, hexpected, hrefuse⟩ := Position.exists_walk_of_departure hdep
  have htake : (taken ++ rest).take taken.length = taken := List.take_left
  have hp : p ≠ .closingParen := Position.walk_ne_closingParen (by decide) hwalk
  refine ⟨⟨taken.length, by simp, ?_, ?_, ?_, ?_⟩, ?_, fun _ _ _ => expected_of_conformances⟩
  · cases rest with
    | nil =>
      refine Or.inr ⟨by simp, rfl, ?_⟩
      cases hlast : taken.getLast? with
      | none =>
        obtain rfl := List.getLast?_eq_none_iff.1 hlast
        cases hdep
      | some last => exact ⟨last, by simpa using hlast, by simp [errorAt, endOffset, hlast]⟩
    | cons token rest => exact Or.inl ⟨token, by simp, rfl, rfl⟩
  · rw [htake]
    exact viable_of_walk hwalk
  · intro hfound more
    cases rest with
    | nil => exact absurd rfl hfound
    | cons token rest =>
      have hmore : Position.departure .declaration (taken ++ token :: more) =
          some (expected, token :: more) := by
        rw [Position.departure_append hwalk,
          Position.departure_cons_of_none (hrefuse token rfl), hexpected]
      rw [List.take_length_add_append, List.append_assoc]
      exact error_of_departure hmore
  · intro token hadmits
    rw [expected_errorAt, ← hexpected] at hadmits
    obtain ⟨q, hq⟩ := Position.exists_next_of_admits hp hadmits
    rw [htake]
    refine viable_of_walk (p := q) ?_
    rw [List.map_append, Position.walk_append hwalk, List.map_singleton, Position.walk, hq]
    rfl
  · rw [expected_errorAt, ← hexpected]
    cases p <;> decide

/-- The tokens of `protocol P: Q, { }`. -/
def trailingComma : StructuralStream :=
  [⟨.protocolKeyword, 0, 8⟩, ⟨.identifier "P", 9, 10⟩, ⟨.colon, 10, 11⟩, ⟨.identifier "Q", 12, 13⟩,
    ⟨.comma, 13, 14⟩, ⟨.leftBrace, 15, 16⟩, ⟨.rightBrace, 17, 18⟩]

/-- A comma behind the last conformance is found at the brace that comes next. -/
theorem trailingComma_pinpointed :
    parseDeclarations trailingComma = .error ⟨.conformanceName, some .leftBrace, 15, 16⟩ ∧
      ∃ i ≤ 7,
        GrammarError.Pinpoints ⟨.conformanceName, some .leftBrace, 15, 16⟩ trailingComma i := by
  have hdep : Position.departure .declaration trailingComma =
      some (.conformanceName, trailingComma.drop 5) := rfl
  have herror : parseDeclarations trailingComma =
      .error ⟨.conformanceName, some .leftBrace, 15, 16⟩ := error_of_departure hdep
  exact ⟨herror, (error_pinpoints_departure herror).1⟩

end ProtocolMocks
