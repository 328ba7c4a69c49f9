import ProtocolMocks.Proofs.Regions
import ProtocolMocks.Proofs.ViablePrefix

/-!
# Regions begin and end where declarations do

The filter counts braces, the parser follows the grammar. As long as the grammar accepts what the
filter keeps, the two move in step: each position of the grammar belongs to one scope of the filter.
So no region starts in the wrong place, and a stream ends within a declaration just when a region
is left open.
-/

namespace ProtocolMocks

open Declaration

/-- A region that has been entered and not left. -/
def Scope.Unclosed (scope : Scope) : Prop := scope = .header ∨ ∃ depth, scope = .body depth

theorem Scope.unclosed_iff {scope : Scope} : scope.Unclosed ↔ scope ≠ .outside := by
  cases scope <;> simp [Unclosed]

/-- The scope behind some tokens is reached step by step. -/
theorem Scope.after_eq_foldl (scope : Scope) (tokens : List (Located Token)) :
    scope.after tokens = (tokens.map Located.value).foldl next scope := by
  rw [after, List.foldl_map]

namespace Declaration.Position

/-- The scope in which the grammar stands at a position. No block is ever nested in another. -/
def scope : Position → Scope
  | declaration => .outside
  | protocolName | conformances | conformanceName | moreConformances | openingBrace => .header
  | requirement | functionName | openingParen | parameters | parameterName | secondName | colon
  | typeName | moreParameters | closingParen | returnClause | returnType => .body 1

/-- Only between declarations a position is outside all scopes. -/
theorem scope_eq_outside_iff {p : Position} : p.scope = .outside ↔ p = declaration := by
  cases p <;> simp [scope]

/-- Over a token that the grammar accepts, the filter moves to the scope of the next position. -/
theorem next_scope {p q : Position} {s : StructuralToken} (h : p.next s = some q) :
    p.scope.next s.toToken = q.scope := by
  cases p <;> cases s <;> cases h <;> rfl

/-- Where the grammar has accepted all that is kept, the filter has arrived in the same place. The
induction is on what is kept, and the tokens that are skipped in between leave the scope as it is.
-/
theorem foldl_next_of_walk {p q : Position} {tokens : List Token}
    (h : p.walk (keptTokens p.scope tokens) = some q) :
    tokens.foldl Scope.next p.scope = q.scope := by
  generalize hkept : keptTokens p.scope tokens = kept at h
  induction kept generalizing p tokens with
  | nil =>
    cases h
    exact foldl_next_of_keptTokens_eq_nil hkept
  | cons s kept ih =>
    obtain ⟨skipped, rest, rfl, hnone, _, hrest⟩ := exists_of_keptTokens_eq_cons hkept
    have hscope := foldl_next_of_keptTokens_eq_nil hnone
    simp only [walk, Option.bind_eq_some_iff] at h
    obtain ⟨after, hafter, hwalk⟩ := h
    rw [next_scope hafter] at hrest
    rw [List.foldl_append, hscope, List.foldl_cons, next_scope hafter, ih hrest hwalk]

/-- A stream that never departs is walked through to its end. -/
theorem walk_of_departure_eq_none {p : Position} {stream : StructuralStream}
    (h : p.departure stream = none) : p.walk (stream.map Located.value) = some declaration := by
  induction stream generalizing p with
  | nil =>
    by_cases hp : p = declaration
    · rw [hp]
      rfl
    · rw [departure_nil hp] at h
      cases h
  | cons token stream ih =>
    cases hnext : p.next token.value with
    | some after =>
      rw [departure_cons_of_some hnext] at h
      rw [List.map_cons, walk, hnext, Option.bind_some, ih h]
    | none =>
      rw [departure_cons_of_none hnext] at h
      cases h

end Declaration.Position

open Declaration.Position

/-- What the filter lets through between two declarations is a keyword that starts the next. -/
theorem value_eq_protocolKeyword {front back : List Token} {s : StructuralToken}
    {kept : List StructuralToken}
    (hwalk : walk declaration (keptTokens .outside front) = some declaration)
    (hback : keptTokens (front.foldl Scope.next .outside) back = s :: kept) :
    s = .protocolKeyword := by
  have hscope : front.foldl Scope.next .outside = .outside := foldl_next_of_walk hwalk
  rw [hscope] at hback
  obtain ⟨_, _, _, _, hcovers, _⟩ := exists_of_keptTokens_eq_cons hback
  have hvalue := StructuralToken.ofToken?_toToken s
  rw [Scope.covers_outside_iff.1 hcovers] at hvalue
  exact (Option.some.inj hvalue).symm

/-- What the filter keeps leaves the grammar within a declaration, if at all: between declarations
the grammar accepts both the end and all that the filter lets through. -/
theorem exists_walk_of_departure_structuralTokens {tokens : List (Located Token)}
    {expected : Expected} {rest : StructuralStream}
    (h : departure declaration (structuralTokens tokens) = some (expected, rest)) :
    ∃ taken q, structuralTokens tokens = taken ++ rest ∧ q.expected = expected ∧
      walk declaration (taken.map Located.value) = some q ∧ q ≠ declaration := by
  obtain ⟨taken, q, hsplit, hwalk, hexpected, hrefuse⟩ := exists_walk_of_departure h
  refine ⟨taken, q, hsplit, hexpected, hwalk, ?_⟩
  rintro rfl
  cases rest with
  | nil =>
    rw [hsplit, departure_append hwalk] at h
    cases h
  | cons token rest =>
    have hkept := map_value_structuralTokens tokens
    rw [hsplit, List.map_append, List.map_cons] at hkept
    obtain ⟨front, back, _, hfront, hback⟩ := exists_of_keptTokens_eq_append hkept.symm
    rw [← hfront] at hwalk
    have hrefused := hrefuse token rfl
    rw [value_eq_protocolKeyword hwalk hback] at hrefused
    cases hrefused

/-- No error is about a token between two declarations. If one is about the end of the stream, a
region is left open, and if a region is left open, there is an error. -/
theorem parser_agrees_with_scope (tokens : List (Located Token)) :
    (∀ err, parseDeclarations (structuralTokens tokens) = .error err →
      err.expected.description ≠ "`protocol`" ∧
        (err.found = none → (Scope.after .outside tokens).Unclosed)) ∧
    ((Scope.after .outside tokens).Unclosed →
      ∃ err, parseDeclarations (structuralTokens tokens) = .error err) := by
  rw [Scope.unclosed_iff, Scope.after_eq_foldl]
  constructor
  · intro err herr
    obtain ⟨expected, rest, hdep, rfl⟩ := exists_departure_of_error herr
    obtain ⟨taken, q, hsplit, hexpected, hwalk, hq⟩ :=
      exists_walk_of_departure_structuralTokens hdep
    refine ⟨?_, fun hfound => ?_⟩
    · rw [expected_errorAt, ← hexpected]
      cases q <;> first | exact absurd rfl hq | decide
    · cases rest with
      | cons token rest => cases hfound
      | nil =>
        rw [List.append_nil] at hsplit
        rw [← hsplit, map_value_structuralTokens] at hwalk
        have hscope : (tokens.map Located.value).foldl Scope.next .outside = q.scope :=
          foldl_next_of_walk hwalk
        rw [hscope]
        exact mt scope_eq_outside_iff.1 hq
  · intro hopen
    cases hdep : departure declaration (structuralTokens tokens) with
    | some place => exact ⟨_, error_of_departure hdep⟩
    | none =>
      have hwalk := walk_of_departure_eq_none hdep
      rw [map_value_structuralTokens] at hwalk
      exact absurd (foldl_next_of_walk hwalk) hopen

/-- The tokens of `class { } protocol P { }`, with the last brace left out. -/
def unclosedProtocol : List (Located Token) :=
  [⟨.typeKeyword .classType, 0, 5⟩, ⟨.leftBrace, 6, 7⟩, ⟨.rightBrace, 8, 9⟩,
    ⟨.protocolKeyword, 10, 18⟩, ⟨.identifier "P", 19, 20⟩, ⟨.leftBrace, 21, 22⟩]

/-- A protocol that is not closed leaves an error at the end and a scope that is not left. -/
theorem unclosedProtocol_found_end :
    parseDeclarations (structuralTokens unclosedProtocol) =
        .error ⟨.requirementOrClosingBrace, none, 22, 22⟩ ∧
      (Scope.after .outside unclosedProtocol).Unclosed ∧
      ∃ err, parseDeclarations (structuralTokens unclosedProtocol) = .error err := by
  have herror : parseDeclarations (structuralTokens unclosedProtocol) =
      .error ⟨.requirementOrClosingBrace, none, 22, 22⟩ := by
    have hdep : departure declaration (structuralTokens unclosedProtocol) =
        some (.requirementOrClosingBrace, []) := rfl
    exact error_of_departure hdep
  obtain ⟨hend, hopen⟩ := parser_agrees_with_scope unclosedProtocol
  have hscope := (hend _ herror).2 rfl
  exact ⟨herror, hscope, hopen hscope⟩

end ProtocolMocks
