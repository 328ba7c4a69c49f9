import ProtocolMocks.Data.List
import ProtocolMocks.Proofs.Adjacency
import ProtocolMocks.Proofs.Inventory

/-!
# Listed protocols and declared protocols

The listing of type names and the parser look for the name of a protocol in different ways: the one
takes an identifier right behind the keyword, trivia aside, and the other the first structural
token, whatever stands in between. For tokens that parse, the listing can therefore miss a protocol,
but it neither invents one nor gives it another name.
-/

namespace ProtocolMocks

/-- What stands behind each occurrence of an element, in order. -/
def behindEach {τ : Type} [DecidableEq τ] (kind : τ) : List τ → List (List τ)
  | [] => []
  | t :: ts => if t = kind then ts :: behindEach kind ts else behindEach kind ts

/-- What comes behind a token of the kind is found for each of them, be it the first token or one
among the rest. -/
theorem mem_behindEach_iff {τ : Type} [DecidableEq τ] {kind : τ} {behind tokens : List τ} :
    behind ∈ behindEach kind tokens ↔ ∃ front, tokens = front ++ kind :: behind := by
  induction tokens with
  | nil => simp [behindEach]
  | cons t ts ih =>
    have hcons : (∃ front, t :: ts = front ++ kind :: behind) ↔
        (t = kind ∧ ts = behind) ∨ ∃ front, ts = front ++ kind :: behind := by
      constructor
      · rintro ⟨front, hfront⟩
        cases front with
        | nil => exact .inl (List.cons.inj hfront)
        | cons s front => exact .inr ⟨front, (List.cons.inj hfront).2⟩
      · rintro (⟨rfl, rfl⟩ | ⟨front, rfl⟩)
        · exact ⟨[], rfl⟩
        · exact ⟨t :: front, rfl⟩
    rw [hcons, ← ih, behindEach]
    by_cases ht : t = kind
    · simp [ht, eq_comm]
    · simp [ht]

/-- A filter that lets the kind pass may as well be applied behind each token. -/
theorem behindEach_filter {τ : Type} [DecidableEq τ] {kind : τ} {keep : τ → Bool}
    (hkind : keep kind = true) (tokens : List τ) :
    behindEach kind (tokens.filter keep) = (behindEach kind tokens).map (List.filter keep) := by
  induction tokens with
  | nil => rfl
  | cons t ts ih =>
    by_cases ht : t = kind
    · subst ht
      rw [List.filter_cons_of_pos hkind, behindEach, behindEach, if_pos rfl, if_pos rfl,
        List.map_cons, ih]
    · rw [behindEach, if_neg ht, ← ih, List.filter_cons]
      split
      · rw [behindEach, if_neg ht]
      · rfl

/-- One item for each keyword is an item for each part behind a keyword. -/
theorem OneForEach.forall₂_behindEach {α τ : Type} [DecidableEq τ] {kind : τ}
    {Fits : α → List τ → Prop} {items : List α} {tokens : List τ}
    (h : OneForEach kind Fits items tokens) :
    List.Forall₂ Fits items (behindEach kind tokens) := by
  induction tokens generalizing items with
  | nil =>
    have hitems : items = [] := List.length_eq_zero_iff.1 h.length_eq
    rw [hitems]
    exact .nil
  | cons t ts ih =>
    rw [behindEach]
    by_cases ht : t = kind
    · subst ht
      rw [if_pos rfl]
      obtain ⟨item, hitem, hfits⟩ := h.exists_fits [] ts rfl
      cases items with
      | nil => cases hitem
      | cons first items =>
        cases hitem
        refine .cons hfits (ih ⟨?_, fun front behind htokens => ?_⟩)
        · have hlength := h.length_eq
          rw [List.length_cons, List.count_cons_self] at hlength
          exact Nat.succ.inj hlength
        · have hlater := h.exists_fits (t :: front) behind (by rw [htokens]; rfl)
          rwa [List.count_cons_self, List.getElem?_cons_succ] at hlater
    · rw [if_neg ht]
      refine ih ⟨?_, fun front behind htokens => ?_⟩
      · rw [h.length_eq, List.count_cons_of_ne ht]
      · have hlater := h.exists_fits (t :: front) behind (by rw [htokens]; rfl)
        rwa [List.count_cons_of_ne ht] at hlater

/-- The name that comes first. -/
def Token.firstName? : List Token → Option String
  | .identifier name :: _ => some name
  | _ => none

/-- The names of one kind in a listing. -/
def namesOfKind (kind : TypeKind) (names : List TypeName) : List String :=
  (names.filter (·.kind = kind)).map TypeName.name

/-- The names of a kind in two listings in a row are those of each. -/
theorem namesOfKind_append (kind : TypeKind) (front back : List TypeName) :
    namesOfKind kind (front ++ back) = namesOfKind kind front ++ namesOfKind kind back := by
  simp [namesOfKind]

/-- The entry of a token and its neighbour is the name that comes first behind the token, if the
token is the keyword of the kind. -/
theorem namesOfKind_nameBetween? (kind : TypeKind) (t : Token) (tokens : List Token) :
    namesOfKind kind (nameBetween? (some t) tokens.head?).toList =
      if t = .typeKeyword kind then (Token.firstName? tokens).toList else [] := by
  cases t with
  | typeKeyword found =>
    cases tokens with
    | nil => simp [nameBetween?, namesOfKind, Token.firstName?]
    | cons next tokens =>
      by_cases hkind : found = kind <;>
        cases next <;> simp [nameBetween?, namesOfKind, Token.firstName?, hkind]
  | _ => rfl

/-- The listing has the names that come first behind a type keyword. -/
theorem namesOfKind_typeNamesAfter (kind : TypeKind) (tokens : List Token) :
    namesOfKind kind (typeNamesAfter none tokens) =
      (behindEach (.typeKeyword kind) tokens).filterMap Token.firstName? := by
  induction tokens with
  | nil => rfl
  | cons t tokens ih =>
    rw [typeNamesAfter_cons, namesOfKind_append, namesOfKind_nameBetween?, ih, behindEach]
    split
    · rw [List.filterMap_cons]
      cases Token.firstName? tokens <;> rfl
    · rfl

/-- The name that comes next, trivia aside. -/
def Token.nextName? (tokens : List Token) : Option String :=
  Token.firstName? (tokens.filter (!·.isTrivia))

/-- The names of a kind are those that come next behind the keywords of the kind. -/
theorem namesOfKind_typeNames (kind : TypeKind) (tokens : List (Located Token)) :
    namesOfKind kind (typeNames tokens) =
      (behindEach (.typeKeyword kind) (tokens.map Located.value)).filterMap Token.nextName? := by
  rw [typeNames, namesOfKind_typeNamesAfter, behindEach_filter rfl, List.filterMap_map]
  rfl

/-- A name comes next if nothing but trivia stand in front of it. -/
theorem Token.nextName?_eq_some_iff {tokens : List Token} {name : String} :
    Token.nextName? tokens = some name ↔ ∃ trivia rest,
      tokens = trivia ++ .identifier name :: rest ∧ ∀ t ∈ trivia, t.isTrivia = true := by
  have hfirst : Token.nextName? tokens = some name ↔
      tokens.find? (!·.isTrivia) = some (.identifier name) := by
    rw [Token.nextName?, ← List.head?_filter]
    cases tokens.filter (!·.isTrivia) with
    | nil => simp [Token.firstName?]
    | cons t ts => cases t <;> simp [Token.firstName?]
  rw [hfirst, List.find?_eq_some_iff_append]
  simp [Token.isTrivia]

/-- A name that comes next is also the first structural token. -/
theorem Token.firstStructural?_of_nextName? {tokens : List Token} {name : String}
    (h : Token.nextName? tokens = some name) :
    Token.firstStructural? tokens = some (.identifier name) := by
  obtain ⟨trivia, rest, rfl, htrivia⟩ := Token.nextName?_eq_some_iff.1 h
  have hnone : trivia.findSome? StructuralToken.ofToken? = none := by
    rw [List.findSome?_eq_none_iff]
    intro t ht
    have hkind := htrivia t ht
    cases t <;> first | rfl | cases hkind
  rw [Token.firstStructural?, List.findSome?_append, hnone]
  rfl

/-- For tokens that parse, the protocols in the listing are a sublist of the declarations, and they
are all of them just when an identifier comes next behind every `protocol`, trivia aside. -/
theorem listed_protocols_declared {tokens : List (Located Token)} {decls : List ProtocolDecl}
    (h : parseDeclarations (structuralTokens tokens) = .ok decls) :
    List.Sublist (namesOfKind .protocolType (typeNames tokens)) (decls.map ProtocolDecl.name) ∧
    (namesOfKind .protocolType (typeNames tokens) = decls.map ProtocolDecl.name ↔
      ∀ front behind, tokens.map Located.value = front ++ .protocolKeyword :: behind →
        ∃ trivia name rest, behind = trivia ++ .identifier name :: rest ∧
          ∀ t ∈ trivia, t.isTrivia = true) := by
  have hshown : List.Forall₂ ProtocolDecl.ShownBy decls
      (behindEach .protocolKeyword (tokens.map Located.value)) :=
    (oneForEach_protocolKeyword (spelled_of_parseDeclarations h)
      (map_value_structuralTokens tokens).symm).forall₂_behindEach
  have hchoice : ∀ p behind, ProtocolDecl.ShownBy p behind →
      ∀ name, Token.nextName? behind = some name → name = p.name := by
    intro p behind hp name hname
    have hfirst := Token.firstStructural?_of_nextName? hname
    rw [hp.name] at hfirst
    cases hfirst
    rfl
  rw [namesOfKind_typeNames]
  refine ⟨sublist_of_forall₂ hshown hchoice, ?_⟩
  rw [filterMap_eq_map_iff_of_forall₂ hshown hchoice]
  constructor
  · intro hnext front behind htokens
    obtain ⟨name, hname⟩ := hnext behind (mem_behindEach_iff.2 ⟨front, htokens⟩)
    obtain ⟨trivia, rest, hbehind, htrivia⟩ := Token.nextName?_eq_some_iff.1 hname
    exact ⟨trivia, name, rest, hbehind, htrivia⟩
  · intro hnext behind hbehind
    obtain ⟨front, htokens⟩ := mem_behindEach_iff.1 hbehind
    obtain ⟨trivia, name, rest, hsplit, htrivia⟩ := hnext front behind htokens
    exact ⟨name, Token.nextName?_eq_some_iff.2 ⟨trivia, rest, hsplit, htrivia⟩⟩

/-- The tokens of `protocol ?A { } protocol /**/B { }`. -/
def questionBeforeName : List (Located Token) :=
  [⟨.protocolKeyword, 0, 8⟩, ⟨.whitespace, 8, 9⟩, ⟨.question, 9, 10⟩, ⟨.identifier "A", 10, 11⟩,
    ⟨.leftBrace, 12, 13⟩, ⟨.rightBrace, 14, 15⟩, ⟨.protocolKeyword, 16, 24⟩,
    ⟨.whitespace, 24, 25⟩, ⟨.blockComment, 25, 29⟩, ⟨.identifier "B", 29, 30⟩,
    ⟨.leftBrace, 31, 32⟩, ⟨.rightBrace, 33, 34⟩]

/-- A question mark in front of a name keeps it from the listing, though not from the
declarations. -/
theorem questionBeforeName_lists_second :
    parseDeclarations (structuralTokens questionBeforeName) = .ok [⟨"A", [], []⟩, ⟨"B", [], []⟩] ∧
      typeNames questionBeforeName = [⟨.protocolType, "B"⟩] ∧ List.Sublist ["B"] ["A", "B"] ∧
      ¬ ∀ front behind,
        questionBeforeName.map Located.value = front ++ .protocolKeyword :: behind →
          ∃ trivia name rest, behind = trivia ++ .identifier name :: rest ∧
            ∀ t ∈ trivia, t.isTrivia = true := by
  have hparse : parseDeclarations (structuralTokens questionBeforeName) =
      .ok [⟨"A", [], []⟩, ⟨"B", [], []⟩] := by
    decide +kernel
  have hlisted : typeNames questionBeforeName = [⟨.protocolType, "B"⟩] := by decide
  obtain ⟨hsublist, hall⟩ := listed_protocols_declared hparse
  rw [hlisted] at hsublist hall
  exact ⟨hparse, hlisted, hsublist, hall.not.1 (by decide)⟩

end ProtocolMocks
