import ProtocolMocks.Declaration.Parser

/-!
# Positions in the grammar

One token of lookahead decides every choice, so what may come next depends on one of finitely many
positions. `Position.next` is the step over one token, `walk` repeats it, and `departure` finds the
place where a stream leaves the grammar. Every position can be completed to whole declarations, and
every position that a walk reaches accepts all tokens that its expectation names.
-/

namespace ProtocolMocks

/-- The tokens that an expectation names; a name stands for any identifier. -/
def Expected.admits : Expected → StructuralToken → Bool
  | .protocolKeyword, .protocolKeyword => true
  | .protocolName, .identifier _ => true
  | .conformanceName, .identifier _ => true
  | .openingBrace, .leftBrace => true
  | .requirementOrClosingBrace, .func => true
  | .requirementOrClosingBrace, .rightBrace => true
  | .functionName, .identifier _ => true
  | .openingParen, .leftParen => true
  | .argumentName, .identifier _ => true
  | .colon, .colon => true
  | .typeName, .identifier _ => true
  | .commaOrClosingParen, .comma => true
  | .commaOrClosingParen, .rightParen => true
  | .func, .func => true
  | .closingBrace, .rightBrace => true
  | _, _ => false

namespace Declaration

/-- A place in the grammar, named for what follows it. -/
inductive Position where
  /-- Between declarations. -/
  | declaration
  | protocolName
  /-- After the name of a protocol. -/
  | conformances
  | conformanceName
  | moreConformances
  /-- Where no conformance can follow any more. -/
  | openingBrace
  /-- Between the requirements of a protocol. -/
  | requirement
  | functionName
  | openingParen
  /-- After an opening parenthesis. -/
  | parameters
  | parameterName
  /-- After the first name of a parameter. -/
  | secondName
  | colon
  | typeName
  | moreParameters
  /-- Where no parameter can follow any more. -/
  | closingParen
  | returnClause
  | returnType
deriving DecidableEq, Repr

namespace Position

/-- The position after one token, if the grammar accepts the token here. -/
def next : Position → StructuralToken → Option Position
  | declaration, .protocolKeyword => some protocolName
  | protocolName, .identifier _ => some conformances
  | conformances, .colon => some conformanceName
  | conformances, .leftBrace => some requirement
  | conformanceName, .identifier _ => some moreConformances
  | moreConformances, .comma => some conformanceName
  | moreConformances, .leftBrace => some requirement
  | openingBrace, .leftBrace => some requirement
  | requirement, .func => some functionName
  | requirement, .rightBrace => some declaration
  | functionName, .identifier _ => some openingParen
  | openingParen, .leftParen => some parameters
  | parameters, .identifier _ => some secondName
  | parameters, .rightParen => some returnClause
  | parameterName, .identifier _ => some secondName
  | secondName, .identifier _ => some colon
  | secondName, .colon => some typeName
  | colon, .colon => some typeName
  | typeName, .identifier _ => some moreParameters
  | moreParameters, .comma => some parameterName
  | moreParameters, .rightParen => some returnClause
  | closingParen, .rightParen => some returnClause
  | returnClause, .arrow => some returnType
  | returnClause, .func => some functionName
  | returnClause, .rightBrace => some declaration
  | returnType, .identifier _ => some requirement
  | _, _ => none

/-- What an error at this position asks for. -/
def expected : Position → Expected
  | declaration => .protocolKeyword
  | protocolName => .protocolName
  | conformanceName => .conformanceName
  | conformances | moreConformances | openingBrace => .openingBrace
  | requirement | returnClause => .requirementOrClosingBrace
  | functionName => .functionName
  | openingParen => .openingParen
  | parameters | parameterName => .argumentName
  | secondName | colon => .colon
  | typeName | returnType => .typeName
  | moreParameters | closingParen => .commaOrClosingParen

/-- The position after a run of tokens, if the grammar accepts all of them. -/
def walk : Position → List StructuralToken → Option Position
  | position, [] => some position
  | position, token :: tokens => (position.next token).bind (walk · tokens)

/-- Where a stream leaves the grammar, with what is asked for there. A stream that ends between
declarations does not leave it. -/
def departure : Position → StructuralStream → Option (Expected × StructuralStream)
  | declaration, [] => none
  | position, [] => some (position.expected, [])
  | position, token :: rest =>
    match position.next token.value with
    | some after => after.departure rest
    | none => some (position.expected, token :: rest)

/-- Tokens that lead from a position to the end of the declaration. -/
def completion : Position → List StructuralToken
  | declaration => []
  | requirement | returnClause => [.rightBrace]
  | conformances | moreConformances | openingBrace => [.leftBrace, .rightBrace]
  | protocolName | conformanceName => [.identifier "", .leftBrace, .rightBrace]
  | returnType => [.identifier "", .rightBrace]
  | parameters | moreParameters | closingParen => [.rightParen, .rightBrace]
  | typeName => [.identifier "", .rightParen, .rightBrace]
  | secondName | colon => [.colon, .identifier "", .rightParen, .rightBrace]
  | parameterName => [.identifier "", .colon, .identifier "", .rightParen, .rightBrace]
  | openingParen => [.leftParen, .rightParen, .rightBrace]
  | functionName => [.identifier "", .leftParen, .rightParen, .rightBrace]

/-- The position accepts one kind of token and nothing else. -/
structure Takes (p : Position) (kind : StructuralToken) (after : Position) : Prop where
  ne_declaration : p ≠ declaration
  next_eq : ∀ token, p.next token = if token = kind then some after else none

/-- The position accepts names and nothing else. -/
structure TakesName (p after : Position) : Prop where
  ne_declaration : p ≠ declaration
  next_eq : ∀ token, p.next token = match token with
    | .identifier _ => some after
    | _ => none

/-- The position offers an optional part that starts with one kind of token. Without the part it is
the other position. -/
structure Offers (p : Position) (kind : StructuralToken) (after other : Position) : Prop where
  ne_declaration : p ≠ declaration
  other_ne_declaration : other ≠ declaration
  expected_eq : p.expected = other.expected
  next_eq : ∀ token, p.next token = if token = kind then some after else other.next token

theorem departure_nil {position : Position} (h : position ≠ declaration) :
    position.departure [] = some (position.expected, []) := by
  cases position
  case declaration => exact absurd rfl h
  all_goals rfl

/-- A token that is accepted leads to the next position. -/
theorem departure_cons_of_some {position after : Position} {token : Located StructuralToken}
    (h : position.next token.value = some after) (rest : StructuralStream) :
    position.departure (token :: rest) = after.departure rest := by
  simp only [departure, h]

/-- A token that is not accepted is where the stream leaves the grammar. -/
theorem departure_cons_of_none {position : Position} {token : Located StructuralToken}
    (h : position.next token.value = none) (rest : StructuralStream) :
    position.departure (token :: rest) = some (position.expected, token :: rest) := by
  simp only [departure, h]

/-- A token that the position accepts is behind the stream's departure. -/
theorem departure_of_atToken {p after : Position} {kind : StructuralToken}
    {stream : StructuralStream} (h : atToken kind stream = true)
    (hnext : p.next kind = some after) :
    p.departure stream = after.departure stream.tail := by
  obtain ⟨span, rest, rfl⟩ := atToken_eq_true_iff.1 h
  exact departure_cons_of_some hnext rest

/-- Where the token that starts an optional part is missing, the part is over. -/
theorem Offers.departure_of_not_atToken {p after other : Position} {kind : StructuralToken}
    (hp : p.Offers kind after other) {stream : StructuralStream}
    (h : atToken kind stream = false) : p.departure stream = other.departure stream := by
  cases stream with
  | nil => rw [departure_nil hp.ne_declaration, departure_nil hp.other_ne_declaration,
      hp.expected_eq]
  | cons token rest =>
    have hvalue : token.value ≠ kind := by simpa using h
    have hnext : p.next token.value = other.next token.value := by
      rw [hp.next_eq, if_neg hvalue]
    simp only [departure, hnext, hp.expected_eq]

/-- At the token it offers, the position goes on inside the optional part. -/
theorem Offers.departure_of_atToken {p after other : Position} {kind : StructuralToken}
    (hp : p.Offers kind after other) {stream : StructuralStream}
    (h : atToken kind stream = true) : p.departure stream = after.departure stream.tail :=
  Position.departure_of_atToken h (by rw [hp.next_eq, if_pos rfl])

/-- A walk can be cut off the front of a stream. -/
theorem departure_append {p q : Position} {taken : StructuralStream}
    (h : p.walk (taken.map Located.value) = some q) (rest : StructuralStream) :
    p.departure (taken ++ rest) = q.departure rest := by
  induction taken generalizing p with
  | nil =>
    cases h
    rfl
  | cons token taken ih =>
    simp only [List.map_cons, walk, Option.bind_eq_some_iff] at h
    obtain ⟨after, hafter, hwalk⟩ := h
    rw [List.cons_append, departure_cons_of_some hafter]
    exact ih hwalk

/-- A departing stream walks up to a position that refuses what comes next. -/
theorem exists_walk_of_departure {p : Position} {stream rest : StructuralStream} {e : Expected}
    (h : p.departure stream = some (e, rest)) :
    ∃ taken q, stream = taken ++ rest ∧ p.walk (taken.map Located.value) = some q ∧
      q.expected = e ∧ ∀ token ∈ rest.head?, q.next token.value = none := by
  induction stream generalizing p with
  | nil =>
    by_cases hp : p = declaration
    · subst hp
      cases h
    · rw [departure_nil hp] at h
      cases h
      exact ⟨[], p, rfl, rfl, rfl, by simp⟩
  | cons token stream ih =>
    cases hnext : p.next token.value with
    | some after =>
      rw [departure_cons_of_some hnext] at h
      obtain ⟨taken, q, rfl, hwalk, hexpected, hrefuse⟩ := ih h
      refine ⟨token :: taken, q, rfl, ?_, hexpected, hrefuse⟩
      simpa only [List.map_cons, walk, hnext, Option.bind_some] using hwalk
    | none =>
      rw [departure_cons_of_none hnext] at h
      cases h
      exact ⟨[], p, rfl, rfl, rfl, by simpa using hnext⟩

/-- Tokens in a row are accepted one part after the other. -/
theorem walk_append {p q : Position} {xs : List StructuralToken} (h : p.walk xs = some q)
    (ys : List StructuralToken) : p.walk (xs ++ ys) = q.walk ys := by
  induction xs generalizing p with
  | nil =>
    cases h
    rfl
  | cons x xs ih =>
    simp only [walk, Option.bind_eq_some_iff] at h
    obtain ⟨after, hafter, hwalk⟩ := h
    rw [List.cons_append, walk, hafter, Option.bind_some]
    exact ih hwalk

/-- Every position can be completed. -/
theorem walk_completion (p : Position) : p.walk p.completion = some declaration := by
  cases p <;> rfl

/-- The position behind the last parameter is a decision of the readers; no token leads to it. -/
theorem next_ne_closingParen {p q : Position} {token : StructuralToken}
    (h : p.next token = some q) : q ≠ closingParen := by
  rintro rfl
  cases p <;> cases token <;> cases h

/-- Nor do several tokens lead to it from another position. -/
theorem walk_ne_closingParen {p q : Position} {tokens : List StructuralToken}
    (hp : p ≠ closingParen) (h : p.walk tokens = some q) : q ≠ closingParen := by
  induction tokens generalizing p with
  | nil =>
    cases h
    exact hp
  | cons token tokens ih =>
    simp only [walk, Option.bind_eq_some_iff] at h
    obtain ⟨after, hafter, hwalk⟩ := h
    exact ih (next_ne_closingParen hafter) hwalk

/-- Whatever an error names would have been accepted. -/
theorem exists_next_of_admits {p : Position} {token : StructuralToken} (hp : p ≠ closingParen)
    (h : p.expected.admits token = true) : ∃ q, p.next token = some q := by
  cases p
  case closingParen => exact absurd rfl hp
  all_goals cases token <;> simp_all [expected, Expected.admits, next]

end Position

end Declaration

end ProtocolMocks
