import ProtocolMocks.Proofs.LineBoundary
import ProtocolMocks.Proofs.PageText
import ProtocolMocks.Proofs.RegionBounds
import ProtocolMocks.Proofs.VoidClause

/-!
# Sources one after the other

A source that ends in a line break can be read apart from what follows it. If its declarations can
be read, all its regions are closed, so the declarations of what follows come behind its own, and an
error in what follows only moves. If a token of its own is wrong, nothing that follows can mend it.
-/

namespace ProtocolMocks

open Declaration Declaration.Position

/-- Of two lists in a row the filter keeps what it keeps of the first, and then of the second from
the scope that is left. -/
theorem structuralTokensFrom_append (scope : Scope) (front back : List (Located Token)) :
    structuralTokensFrom scope (front ++ back) =
      structuralTokensFrom scope front ++ structuralTokensFrom (scope.after front) back := by
  induction front generalizing scope with
  | nil => rfl
  | cons token front ih =>
    have hafter : scope.after (token :: front) = (scope.next token.value).after front := rfl
    rw [List.cons_append, structuralTokensFrom_cons, structuralTokensFrom_cons, ih, hafter,
      List.append_assoc]

/-- Whether a token is kept does not depend on its offset. -/
theorem Scope.keep?_shift (scope : Scope) (token : Located Token) (offset : Nat) :
    scope.keep? (token.shift offset) = (scope.keep? token).map (·.shift offset) := by
  rw [keep?, keep?, Located.structural?, Located.structural?, Located.value_shift]
  split
  · rw [Option.map_map]
    rfl
  · rfl

/-- Tokens further on are filtered as they are here, and kept further on. -/
theorem structuralTokensFrom_map_shift (scope : Scope) (tokens : List (Located Token))
    (offset : Nat) :
    structuralTokensFrom scope (tokens.map (·.shift offset)) =
      (structuralTokensFrom scope tokens).map (·.shift offset) := by
  induction tokens generalizing scope with
  | nil => rfl
  | cons token tokens ih =>
    rw [List.map_cons, structuralTokensFrom_cons, structuralTokensFrom_cons, Scope.keep?_shift,
      Located.value_shift, ih, List.map_append, Option.toList_map]

/-- Items that are spelled one after the other go on with further ones. -/
theorem Repeated.append {α : Type} {Item : α → List StructuralToken → Prop} {xs ys : List α}
    {front back : List StructuralToken} (hxs : Repeated Item xs front)
    (hys : Repeated Item ys back) : Repeated Item (xs ++ ys) (front ++ back) := by
  induction hxs with
  | nil => exact hys
  | cons hitem _ ih =>
    rw [List.cons_append, List.append_assoc]
    exact .cons hitem ih

/-- A stream that parses leads back to where declarations start. -/
theorem walk_of_parseDeclarations {stream : StructuralStream} {ps : List ProtocolDecl}
    (h : parseDeclarations stream = .ok ps) :
    walk declaration (stream.map Located.value) = some declaration := by
  cases hdep : departure declaration stream with
  | some place =>
    rw [error_of_departure hdep] at h
    cases h
  | none => exact walk_of_departure_eq_none hdep

/-- Behind tokens that parse, all regions are closed. -/
theorem after_eq_outside_of_parseDeclarations {tokens : List (Located Token)}
    {ps : List ProtocolDecl} (h : parseDeclarations (structuralTokens tokens) = .ok ps) :
    Scope.after .outside tokens = .outside := by
  have hwalk := walk_of_parseDeclarations h
  rw [map_value_structuralTokens] at hwalk
  rw [Scope.after_eq_foldl]
  exact foldl_next_of_walk hwalk

/-- A token that cannot be accepted is the first such token of any longer stream too. -/
theorem error_append_of_found {stream : StructuralStream} {err : GrammarError}
    (h : parseDeclarations stream = .error err) (hfound : err.found ≠ none)
    (more : StructuralStream) : parseDeclarations (stream ++ more) = .error err := by
  obtain ⟨expected, rest, hdep, rfl⟩ := exists_departure_of_error h
  obtain ⟨taken, p, rfl, hwalk, hexpected, hrefuse⟩ := exists_walk_of_departure hdep
  cases rest with
  | nil => exact absurd rfl hfound
  | cons token rest =>
    have hmore : departure declaration (taken ++ token :: rest ++ more) =
        some (expected, token :: (rest ++ more)) := by
      rw [List.append_assoc, List.cons_append, departure_append hwalk,
        departure_cons_of_none (hrefuse token rfl), hexpected]
    exact error_of_departure hmore

/-- The same error in a source that stands behind a text of the given length. -/
def GrammarError.shift (err : GrammarError) (offset : Nat) : GrammarError :=
  { err with span := err.span.shift offset }

namespace Declaration

/-- A stream further on leaves the grammar at the same token, further on. -/
theorem departure_map_shift (p : Position) (stream : StructuralStream) (offset : Nat) :
    p.departure (stream.map (·.shift offset)) =
      (p.departure stream).map fun place => (place.1, place.2.map (·.shift offset)) := by
  induction stream generalizing p with
  | nil =>
    by_cases hp : p = declaration
    · subst hp
      rfl
    · rw [List.map_nil, departure_nil hp]
      rfl
  | cons token stream ih =>
    rw [List.map_cons]
    cases hnext : p.next token.value with
    | some after =>
      have hnext' : p.next (token.shift offset).value = some after := hnext
      rw [departure_cons_of_some hnext, departure_cons_of_some hnext', ih]
    | none =>
      have hnext' : p.next (token.shift offset).value = none := hnext
      rw [departure_cons_of_none hnext, departure_cons_of_none hnext']
      rfl

/-- A stream that is not empty ends where it does, whatever stands in front of it. -/
theorem endOffset_append_map_shift {stream : StructuralStream} (h : stream ≠ [])
    (front : StructuralStream) (offset : Nat) :
    endOffset (front ++ stream.map (·.shift offset)) = offset + endOffset stream := by
  have hlast := List.getLast?_eq_some_getLast h
  simp [endOffset, List.getLast?_append, hlast, Span.shift]

/-- The end of a stream moves with the stream. -/
theorem errorAt_append_map_shift {stream : StructuralStream} (h : stream ≠ [])
    (front : StructuralStream) (expected : Expected) (rest : StructuralStream) (offset : Nat) :
    errorAt (front ++ stream.map (·.shift offset)) expected (rest.map (·.shift offset)) =
      (errorAt stream expected rest).shift offset := by
  cases rest with
  | nil =>
    simp only [List.map_nil, errorAt, endOffset_append_map_shift h]
    rfl
  | cons token rest => rfl

end Declaration

/-- Behind a stream that parses, an error is the same but for its place. -/
theorem error_append_map_shift {front stream : StructuralStream} {ps : List ProtocolDecl}
    {err : GrammarError} (hfront : parseDeclarations front = .ok ps)
    (h : parseDeclarations stream = .error err) (offset : Nat) :
    parseDeclarations (front ++ stream.map (·.shift offset)) = .error (err.shift offset) := by
  obtain ⟨expected, rest, hdep, rfl⟩ := exists_departure_of_error h
  have hne : stream ≠ [] := by
    rintro rfl
    cases hdep
  have hmoved : departure declaration (front ++ stream.map (·.shift offset)) =
      some (expected, rest.map (·.shift offset)) := by
    rw [departure_append (walk_of_parseDeclarations hfront), departure_map_shift, hdep]
    rfl
  rw [error_of_departure hmoved, errorAt_append_map_shift hne]

namespace Source

/-- Behind a source that ends in a line break, the tokens of more regions may follow. -/
theorem exists_structuralTokens_append {front : String} (h : EndsLine front) (back : String) :
    ∃ more, structuralTokens (front ++ back) = structuralTokens front ++ more := by
  refine ⟨structuralTokensFrom (Scope.after .outside (tokenize front))
    ((tokenize back).map (·.shift front.utf8ByteSize)), ?_⟩
  rw [structuralTokens, tokenize_append h, ProtocolMocks.structuralTokens,
    structuralTokensFrom_append]
  rfl

/-- Behind a source that parses, the regions of any source are kept, moved. -/
theorem structuralTokens_append {front : String} {ps : List ProtocolDecl} (h : EndsLine front)
    (hfront : declarations front = .ok ps) (back : String) :
    structuralTokens (front ++ back) =
      structuralTokens front ++ (structuralTokens back).map (·.shift front.utf8ByteSize) := by
  have hclosed : Scope.after .outside (tokenize front) = .outside :=
    after_eq_outside_of_parseDeclarations hfront
  rw [structuralTokens, tokenize_append h, ProtocolMocks.structuralTokens,
    structuralTokensFrom_append, hclosed, structuralTokensFrom_map_shift]
  rfl

/-- Sources that can be read, the first one with a whole last line, are read together as the
declarations of both. -/
theorem declarations_append {front back : String} {ps qs : List ProtocolDecl}
    (h : EndsLine front) (hfront : declarations front = .ok ps)
    (hback : declarations back = .ok qs) : declarations (front ++ back) = .ok (ps ++ qs) := by
  refine parseDeclarations_of_spelled ?_
  rw [structuralTokens_append h hfront, List.map_append, map_value_map_shift]
  exact (spelled_of_parseDeclarations hfront).append (spelled_of_parseDeclarations hback)

/-- The mocks of two sources in a row are those of each, with an empty line in between if there are
any in both. -/
theorem mocks_append {front back : String} {ps qs : List ProtocolDecl}
    (h : EndsLine front) (hfront : declarations front = .ok ps)
    (hback : declarations back = .ok qs) (options : MockOptions) :
    ∃ text text', mocks options front = .ok text ∧ mocks options back = .ok text' ∧
      mocks options (front ++ back) =
        .ok (text ++ (if text ≠ "" ∧ text' ≠ "" then "\n" else "") ++ text') := by
  refine ⟨Mock.generate options ps, Mock.generate options qs, ?_, ?_, ?_⟩
  · rw [mocks, hfront]
    rfl
  · rw [mocks, hback]
    rfl
  · rw [mocks, declarations_append h hfront hback, ← Mock.generate_append]
    rfl

end Source

/-- Sources one after the other, the first of which ends in a line break, declare what they declare
apart. The mocks stand one after the other too, an error in the second source moves by the length of
the first, and an error at a token of the first source is final. -/
theorem sources_read_apart {front : String} (h : EndsLine front) (back : String) :
    (∀ ps qs, Source.declarations front = .ok ps → Source.declarations back = .ok qs →
      Source.declarations (front ++ back) = .ok (ps ++ qs) ∧
        ∀ options, ∃ text text', Source.mocks options front = .ok text ∧
          Source.mocks options back = .ok text' ∧ Source.mocks options (front ++ back) =
            .ok (text ++ (if text ≠ "" ∧ text' ≠ "" then "\n" else "") ++ text')) ∧
    (∀ ps err, Source.declarations front = .ok ps → Source.declarations back = .error err →
      Source.declarations (front ++ back) = .error (err.shift front.utf8ByteSize)) ∧
    ∀ err, Source.declarations front = .error err → err.found ≠ none →
      Source.declarations (front ++ back) = .error err := by
  refine ⟨?_, ?_, ?_⟩
  · intro ps qs hfront hback
    exact ⟨Source.declarations_append h hfront hback, Source.mocks_append h hfront hback⟩
  · intro ps err hfront hback
    rw [Source.declarations, Source.structuralTokens_append h hfront]
    exact error_append_map_shift hfront hback front.utf8ByteSize
  · intro err hfront hfound
    obtain ⟨more, hmore⟩ := Source.exists_structuralTokens_append h back
    rw [Source.declarations, hmore]
    exact error_append_of_found hfront hfound more

/-- Behind a protocol on a line of its own, a second one is read, and one that breaks off is found
to end at the end of both sources. Behind a protocol without a name nothing helps. -/
theorem emptyProtocols_read_apart :
    EndsLine "protocol P: M \x7b\x7d\n" ∧
    Source.declarations ("protocol P: M \x7b\x7d\n" ++ "protocol Q \x7b\x7d") =
      .ok [⟨"P", [], ["M"]⟩, ⟨"Q", [], []⟩] ∧
    Source.declarations ("protocol P: M \x7b\x7d\n" ++ "protocol Q:") =
      .error ⟨.conformanceName, none, ⟨28, 28⟩⟩ ∧
    Source.declarations ("protocol \x7b\n" ++ "\x7d protocol Q:") =
      .error ⟨.protocolName, some .leftBrace, ⟨9, 10⟩⟩ := by
  have hline : EndsLine "protocol P: M \x7b\x7d\n" := .inr (by decide +kernel)
  have hline' : EndsLine "protocol \x7b\n" := .inr (by decide +kernel)
  have hfront : Source.declarations "protocol P: M \x7b\x7d\n" = .ok [⟨"P", [], ["M"]⟩] := by
    decide +kernel
  have hback : Source.declarations "protocol Q \x7b\x7d" = .ok [⟨"Q", [], []⟩] := by
    decide +kernel
  have hopen : Source.declarations "protocol Q:" = .error ⟨.conformanceName, none, ⟨11, 11⟩⟩ := by
    decide +kernel
  have hnameless : Source.declarations "protocol \x7b\n" =
      .error ⟨.protocolName, some .leftBrace, ⟨9, 10⟩⟩ := by
    decide +kernel
  refine ⟨hline, ((sources_read_apart hline _).1 _ _ hfront hback).1, ?_, ?_⟩
  · exact (sources_read_apart hline _).2.1 _ _ hfront hopen
  · exact (sources_read_apart hline' _).2.2 _ hnameless (by decide)

end ProtocolMocks
