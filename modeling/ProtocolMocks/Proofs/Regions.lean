import ProtocolMocks.Source
import ProtocolMocks.Proofs.Tiling

/-!
# What the regions keep

What reaches the parser depends on the kinds of token alone. A region is kept whole, and in the
other direction each token that is kept can be found among the tokens of the source, with the scope
that it was met in.
-/

namespace ProtocolMocks

/-- Tokens that neither open nor close a block. -/
def Braceless (tokens : List Token) : Prop := ∀ t ∈ tokens, t ≠ .leftBrace ∧ t ≠ .rightBrace

/-- The structural tokens of all regions, without their places. -/
def keptTokens : Scope → List Token → List StructuralToken
  | _, [] => []
  | scope, t :: ts =>
    if scope.covers t then (StructuralToken.ofToken? t).toList ++ keptTokens (scope.next t) ts
    else keptTokens (scope.next t) ts

/-- The token of the same kind and text, in the same place. -/
def Located.toToken (kept : Located StructuralToken) : Located Token :=
  ⟨kept.value.toToken, kept.span⟩

/-- The structural token in the same place, if the token has one. -/
def Located.structural? (token : Located Token) : Option (Located StructuralToken) :=
  (StructuralToken.ofToken? token.value).map (⟨·, token.span⟩)

/-- What is kept of a token that is met in this scope. -/
def Scope.keep? (scope : Scope) (token : Located Token) : Option (Located StructuralToken) :=
  if scope.covers token.value then token.structural? else none

/-- A token has a structural form if it is the token of one, at the same place. -/
theorem Located.structural?_eq_some_iff {token : Located Token} {kept : Located StructuralToken} :
    token.structural? = some kept ↔ token = kept.toToken := by
  obtain ⟨value, span⟩ := token
  obtain ⟨s, span'⟩ := kept
  rw [structural?, Option.map_eq_some_iff, toToken, Located.mk.injEq]
  constructor
  · rintro ⟨_, hs, heq⟩
    cases heq
    exact ⟨StructuralToken.ofToken?_eq_some_iff.1 hs, rfl⟩
  · rintro ⟨hvalue, rfl⟩
    exact ⟨s, StructuralToken.ofToken?_eq_some_iff.2 hvalue, rfl⟩

/-- A token is kept if the scope covers it and it has a structural form. -/
theorem Scope.keep?_eq_some_iff {scope : Scope} {token : Located Token}
    {kept : Located StructuralToken} :
    scope.keep? token = some kept ↔ scope.covers token.value = true ∧ token = kept.toToken := by
  simp [keep?, Located.structural?_eq_some_iff]

/-- A first token is kept or not, and moves the scope on. -/
theorem structuralTokensFrom_cons (scope : Scope) (token : Located Token)
    (tokens : List (Located Token)) :
    structuralTokensFrom scope (token :: tokens) =
      (scope.keep? token).toList ++ structuralTokensFrom (scope.next token.value) tokens := by
  rw [structuralTokensFrom, Scope.keep?, Located.structural?]
  split
  · cases StructuralToken.ofToken? token.value <;> rfl
  · rfl

/-- Of a token that the scope covers, the structural form is kept. -/
theorem Scope.map_value_keep? (scope : Scope) (token : Located Token) :
    (scope.keep? token).toList.map Located.value =
      if scope.covers token.value then (StructuralToken.ofToken? token.value).toList else [] := by
  rw [keep?, Located.structural?]
  split
  · cases StructuralToken.ofToken? token.value <;> rfl
  · rfl

/-- Which tokens are kept depends on their values alone. -/
theorem map_value_structuralTokensFrom (scope : Scope) (tokens : List (Located Token)) :
    (structuralTokensFrom scope tokens).map Located.value =
      keptTokens scope (tokens.map Located.value) := by
  induction tokens generalizing scope with
  | nil => rfl
  | cons token tokens ih =>
    rw [structuralTokensFrom_cons, List.map_append, Scope.map_value_keep?, ih, List.map_cons,
      keptTokens]
    split <;> rfl

/-- What the parser is given depends on the kinds of token alone. -/
theorem map_value_structuralTokens (tokens : List (Located Token)) :
    (structuralTokens tokens).map Located.value =
      keptTokens .outside (tokens.map Located.value) :=
  map_value_structuralTokensFrom .outside tokens

/-- What is kept of a source depends on the tokens of its text alone. -/
theorem Source.map_value_structuralTokens (source : String) :
    (structuralTokens source).map Located.value = keptTokens .outside (tokensOf source.toList) := by
  rw [structuralTokens, ProtocolMocks.map_value_structuralTokens, tokenize, map_value_locate,
    tokensOf]

/-- Everything in a region is covered. -/
theorem Scope.covers_of_ne_outside {scope : Scope} (h : scope ≠ .outside) (t : Token) :
    scope.covers t = true := by
  cases scope with
  | outside => exact absurd rfl h
  | header => rfl
  | body depth => rfl

/-- Outside the regions only the keyword that starts one is covered. -/
theorem Scope.covers_outside_iff {t : Token} :
    Scope.outside.covers t = true ↔ t = .protocolKeyword := by
  constructor
  · intro h
    unfold Scope.covers at h
    split at h <;> first | rfl | contradiction
  · rintro rfl
    rfl

/-- A token that is not covered leaves the scope as it is. -/
theorem Scope.next_of_not_covers {scope : Scope} {t : Token} (h : ¬ scope.covers t = true) :
    scope.next t = scope := by
  cases scope with
  | header | body => exact absurd rfl h
  | outside =>
    rw [covers_outside_iff] at h
    unfold next
    split <;> first | rfl | contradiction

/-- Inside a region the scope changes at braces only. -/
theorem Scope.next_of_ne_brace {scope : Scope} (h : scope ≠ .outside) {t : Token}
    (hleft : t ≠ .leftBrace) (hright : t ≠ .rightBrace) : scope.next t = scope := by
  unfold Scope.next
  split
  · exact absurd rfl h
  · exact absurd rfl h
  · exact absurd rfl hleft
  · exact absurd rfl hleft
  · exact absurd rfl hright
  · exact absurd rfl hright
  · rfl

/-- Within a region, tokens without braces are kept and leave the scope as it is. -/
theorem keptTokens_append_of_braceless {scope : Scope} (hscope : scope ≠ .outside)
    {tokens : List Token} (h : Braceless tokens) (more : List Token) :
    keptTokens scope (tokens ++ more) =
      tokens.filterMap StructuralToken.ofToken? ++ keptTokens scope more := by
  induction tokens with
  | nil => rfl
  | cons t ts ih =>
    obtain ⟨⟨hleft, hright⟩, hts⟩ := List.forall_mem_cons.1 h
    have hcovers := Scope.covers_of_ne_outside hscope t
    have hnext := Scope.next_of_ne_brace hscope hleft hright
    rw [List.cons_append, keptTokens, if_pos hcovers, hnext, ih hts]
    cases hkept : StructuralToken.ofToken? t <;> simp [hkept]

/-- A region without nested blocks is kept whole. -/
theorem keptTokens_region {front back : List Token} (hfront : Braceless front)
    (hback : Braceless back) (more : List Token) :
    keptTokens .outside
        (.protocolKeyword :: (front ++ .leftBrace :: (back ++ .rightBrace :: more))) =
      .protocolKeyword :: (front.filterMap StructuralToken.ofToken? ++
        .leftBrace :: (back.filterMap StructuralToken.ofToken? ++ [.rightBrace])) ++
      keptTokens .outside more := by
  have hstart : ∀ ts, keptTokens .outside (.protocolKeyword :: ts) =
      .protocolKeyword :: keptTokens .header ts := fun _ => rfl
  have hopening : ∀ ts, keptTokens .header (.leftBrace :: ts) =
      .leftBrace :: keptTokens (.body 1) ts := fun _ => rfl
  have hclosing : ∀ ts, keptTokens (.body 1) (.rightBrace :: ts) =
      .rightBrace :: keptTokens .outside ts := fun _ => rfl
  rw [hstart, keptTokens_append_of_braceless (by decide) hfront, hopening,
    keptTokens_append_of_braceless (by decide) hback, hclosing]
  simp

/-- The filter only passes on what the lexer made. -/
theorem mem_of_mem_keptTokens {scope : Scope} {tokens : List Token} {s : StructuralToken}
    (h : s ∈ keptTokens scope tokens) : s.toToken ∈ tokens := by
  induction tokens generalizing scope with
  | nil => cases h
  | cons t ts ih =>
    have hsplit : s ∈ StructuralToken.ofToken? t ∨ s ∈ keptTokens (scope.next t) ts := by
      rw [keptTokens] at h
      split at h
      · simpa using h
      · exact .inr h
    rcases hsplit with hhere | hlater
    · rw [StructuralToken.ofToken?_eq_some_iff.1 hhere]
      exact List.mem_cons_self
    · exact List.mem_cons_of_mem t (ih hlater)

/-- Trivia neither reaches the parser nor changes the scope. -/
theorem keptTokens_filter_isTrivia (scope : Scope) (tokens : List Token) :
    keptTokens scope (tokens.filter (!·.isTrivia)) = keptTokens scope tokens := by
  induction tokens generalizing scope with
  | nil => rfl
  | cons t ts ih =>
    by_cases ht : t.isTrivia = true
    · have hnext : scope.next t = scope := by
        cases scope <;> cases t <;> first | rfl | cases ht
      have hkept : StructuralToken.ofToken? t = none := by
        cases t <;> first | rfl | cases ht
      rw [List.filter_cons_of_neg (by simp [ht]), ih, keptTokens, hnext, hkept]
      simp
    · rw [List.filter_cons_of_pos (by simp [ht]), keptTokens, keptTokens, ih]

/-- A structural token that the scope covers is kept. -/
theorem keptTokens_toToken_cons {scope : Scope} {s : StructuralToken}
    (h : scope.covers s.toToken = true) (ts : List Token) :
    keptTokens scope (s.toToken :: ts) = s :: keptTokens (scope.next s.toToken) ts := by
  rw [keptTokens, if_pos h, StructuralToken.ofToken?_toToken]
  rfl

/-- A token that the grammar does not mention leaves the scope as it is. -/
theorem Scope.next_of_ofToken?_eq_none {t : Token} (h : StructuralToken.ofToken? t = none)
    (scope : Scope) : scope.next t = scope := by
  by_cases hscope : scope = .outside
  · refine next_of_not_covers ?_
    rw [hscope, covers_outside_iff]
    rintro rfl
    cases h
  · refine next_of_ne_brace hscope ?_ ?_
    · rintro rfl
      cases h
    · rintro rfl
      cases h

/-- A token is kept, or it changes nothing. -/
theorem kept_or_skipped (scope : Scope) (t : Token) :
    (∃ s : StructuralToken, t = s.toToken ∧ scope.covers t = true) ∨
      (scope.next t = scope ∧ ∀ ts, keptTokens scope (t :: ts) = keptTokens scope ts) := by
  by_cases hcovers : scope.covers t = true
  · cases hkept : StructuralToken.ofToken? t with
    | some s => exact .inl ⟨s, StructuralToken.ofToken?_eq_some_iff.1 hkept, hcovers⟩
    | none =>
      have hnext := Scope.next_of_ofToken?_eq_none hkept scope
      refine .inr ⟨hnext, fun ts => ?_⟩
      rw [keptTokens, if_pos hcovers, hkept, hnext]
      rfl
  · have hnext := Scope.next_of_not_covers hcovers
    refine .inr ⟨hnext, fun ts => ?_⟩
    rw [keptTokens, if_neg hcovers, hnext]

/-- Of two lists in a row the filter keeps what it keeps of the first, and then of the second from
the scope that is left. -/
theorem keptTokens_append (scope : Scope) (front back : List Token) :
    keptTokens scope (front ++ back) =
      keptTokens scope front ++ keptTokens (front.foldl Scope.next scope) back := by
  induction front generalizing scope with
  | nil => rfl
  | cons t ts ih =>
    rw [List.cons_append, keptTokens, keptTokens, ih, List.foldl_cons]
    split
    · rw [List.append_assoc]
    · rfl

/-- Where nothing is kept, the scope stays as it is. -/
theorem foldl_next_of_keptTokens_eq_nil {scope : Scope} {tokens : List Token}
    (h : keptTokens scope tokens = []) : tokens.foldl Scope.next scope = scope := by
  induction tokens with
  | nil => rfl
  | cons t ts ih =>
    rcases kept_or_skipped scope t with ⟨s, rfl, hcovers⟩ | ⟨hnext, hskip⟩
    · rw [keptTokens_toToken_cons hcovers] at h
      cases h
    · rw [hskip] at h
      rw [List.foldl_cons, hnext, ih h]

/-- The first token that is kept stands behind tokens that are not. -/
theorem exists_of_keptTokens_eq_cons {scope : Scope} {tokens : List Token} {s : StructuralToken}
    {kept : List StructuralToken} (h : keptTokens scope tokens = s :: kept) :
    ∃ skipped rest, tokens = skipped ++ s.toToken :: rest ∧ keptTokens scope skipped = [] ∧
      scope.covers s.toToken = true ∧ keptTokens (scope.next s.toToken) rest = kept := by
  induction tokens with
  | nil => cases h
  | cons t ts ih =>
    rcases kept_or_skipped scope t with ⟨s', rfl, hcovers⟩ | ⟨_, hskip⟩
    · rw [keptTokens_toToken_cons hcovers] at h
      cases h
      exact ⟨[], ts, rfl, rfl, hcovers, rfl⟩
    · rw [hskip] at h
      obtain ⟨skipped, rest, rfl, hnone, hcovers, hrest⟩ := ih h
      refine ⟨t :: skipped, rest, rfl, ?_, hcovers, hrest⟩
      rw [hskip, hnone]

/-- Outside the regions no keyword is passed over. -/
theorem not_mem_of_keptTokens_outside_eq_nil {tokens : List Token}
    (h : keptTokens .outside tokens = []) : .protocolKeyword ∉ tokens := by
  intro hmem
  obtain ⟨front, back, rfl⟩ := List.append_of_mem hmem
  rw [keptTokens_append, List.append_eq_nil_iff] at h
  obtain ⟨hfront, hback⟩ := h
  rw [foldl_next_of_keptTokens_eq_nil hfront] at hback
  cases hback

/-- Without a `protocol` keyword nothing is kept. -/
theorem keptTokens_outside_of_not_mem {tokens : List Token} (h : .protocolKeyword ∉ tokens) :
    keptTokens .outside tokens = [] := by
  induction tokens with
  | nil => rfl
  | cons t ts ih =>
    obtain ⟨ht, hts⟩ := List.ne_and_not_mem_of_not_mem_cons h
    have hcovers : ¬ Scope.outside.covers t = true := by
      rw [Scope.covers_outside_iff]
      exact ht.symm
    rw [keptTokens, if_neg hcovers, Scope.next_of_not_covers hcovers, ih hts]

/-- Within a region no structural token is passed over. -/
theorem filterMap_of_keptTokens_eq_nil {scope : Scope} (hscope : scope ≠ .outside)
    {tokens : List Token} (h : keptTokens scope tokens = []) :
    tokens.filterMap StructuralToken.ofToken? = [] := by
  induction tokens with
  | nil => rfl
  | cons t ts ih =>
    have hnone : StructuralToken.ofToken? t = none := by
      rw [keptTokens, if_pos (Scope.covers_of_ne_outside hscope t), List.append_eq_nil_iff,
        Option.toList_eq_nil_iff] at h
      exact h.1
    rcases kept_or_skipped scope t with ⟨s, rfl, _⟩ | ⟨_, hskip⟩
    · rw [StructuralToken.ofToken?_toToken] at hnone
      cases hnone
    · rw [hskip] at h
      rw [List.filterMap_cons_none hnone, ih h]

/-- Up to the next brace a region is kept whole. -/
theorem exists_of_keptTokens_eq_append_cons {scope : Scope} (hscope : scope ≠ .outside)
    {tokens : List Token} {xs ys : List StructuralToken} {s : StructuralToken}
    (hxs : ∀ x ∈ xs, x ≠ .leftBrace ∧ x ≠ .rightBrace)
    (h : keptTokens scope tokens = xs ++ s :: ys) :
    ∃ front rest, tokens = front ++ s.toToken :: rest ∧
      front.filterMap StructuralToken.ofToken? = xs ∧
      keptTokens (scope.next s.toToken) rest = ys := by
  induction xs generalizing tokens with
  | nil =>
    obtain ⟨skipped, rest, rfl, hnone, _, hrest⟩ := exists_of_keptTokens_eq_cons h
    exact ⟨skipped, rest, rfl, filterMap_of_keptTokens_eq_nil hscope hnone, hrest⟩
  | cons x xs ih =>
    obtain ⟨skipped, rest, rfl, hnone, _, hrest⟩ := exists_of_keptTokens_eq_cons h
    obtain ⟨⟨hleft, hright⟩, hmore⟩ := List.forall_mem_cons.1 hxs
    have hnext : scope.next x.toToken = scope := by
      refine Scope.next_of_ne_brace hscope ?_ ?_
      · cases x <;> first | exact absurd rfl hleft | nofun
      · cases x <;> first | exact absurd rfl hright | nofun
    rw [hnext] at hrest
    obtain ⟨front, rest, rfl, hfront, hback⟩ := ih hmore hrest
    refine ⟨skipped ++ x.toToken :: front, rest, by simp, ?_, hback⟩
    rw [List.filterMap_append, filterMap_of_keptTokens_eq_nil hscope hnone, List.nil_append,
      List.filterMap_cons_some (StructuralToken.ofToken?_toToken x), hfront]

/-- A cut through the tokens that are kept comes from a cut through all tokens. -/
theorem exists_of_keptTokens_eq_append {scope : Scope} {tokens : List Token}
    {xs ys : List StructuralToken} (h : keptTokens scope tokens = xs ++ ys) :
    ∃ front back, tokens = front ++ back ∧ keptTokens scope front = xs ∧
      keptTokens (front.foldl Scope.next scope) back = ys := by
  induction xs generalizing scope tokens with
  | nil => exact ⟨[], tokens, rfl, rfl, h⟩
  | cons x xs ih =>
    obtain ⟨skipped, rest, rfl, hnone, hcovers, hrest⟩ := exists_of_keptTokens_eq_cons h
    have hscope := foldl_next_of_keptTokens_eq_nil hnone
    obtain ⟨front, back, rfl, hfront, hback⟩ := ih hrest
    refine ⟨skipped ++ x.toToken :: front, back, by simp, ?_, ?_⟩
    · rw [keptTokens_append, hnone, hscope, keptTokens_toToken_cons hcovers, hfront]
      rfl
    · rw [List.foldl_append, hscope, List.foldl_cons, hback]

end ProtocolMocks
