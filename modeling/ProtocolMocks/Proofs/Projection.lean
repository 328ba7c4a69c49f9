import ProtocolMocks.Proofs.Regions

/-!
# The filter is a projection

Read as tokens again, what the filter keeps is kept whole, so the lists that it can put out are
those that it leaves as they are. Tokens that the grammar does not mention have no part in what is
kept, wherever they stand and whatever their spans.
-/

namespace ProtocolMocks

/-- One list of tokens comes from the other by leaving out and putting in tokens that the grammar
does not mention. -/
inductive SameButNoise : List (Located Token) → List (Located Token) → Prop
  | nil : SameButNoise [] []
  | same (token : Located Token) {xs ys} : SameButNoise xs ys →
      SameButNoise (token :: xs) (token :: ys)
  | leftOut {noise : Located Token} {xs ys} : StructuralToken.ofToken? noise.value = none →
      SameButNoise xs ys → SameButNoise (noise :: xs) ys
  | putIn {noise : Located Token} {xs ys} : StructuralToken.ofToken? noise.value = none →
      SameButNoise xs ys → SameButNoise xs (noise :: ys)

/-- Of noise nothing is kept, in any scope. -/
theorem Scope.keep?_of_noise {noise : Located Token}
    (h : StructuralToken.ofToken? noise.value = none) (scope : Scope) :
    scope.keep? noise = none := by
  simp [keep?, Located.structural?, h]

/-- A token of which nothing is kept leaves the scope as it is. -/
theorem Scope.next_of_keep?_eq_none {scope : Scope} {token : Located Token}
    (h : scope.keep? token = none) : scope.next token.value = scope := by
  by_cases hcovers : scope.covers token.value = true
  · rw [keep?, if_pos hcovers, Located.structural?, Option.map_eq_none_iff] at h
    exact next_of_ofToken?_eq_none h scope
  · exact next_of_not_covers hcovers

/-- A token that is not kept leaves the scope as it is. -/
theorem structuralTokensFrom_cons_of_none {scope : Scope} {token : Located Token}
    (h : scope.keep? token = none) (tokens : List (Located Token)) :
    structuralTokensFrom scope (token :: tokens) = structuralTokensFrom scope tokens := by
  rw [structuralTokensFrom_cons, h, Scope.next_of_keep?_eq_none h]
  rfl

/-- A token that is kept moves the scope on. -/
theorem structuralTokensFrom_cons_of_some {scope : Scope} {token : Located Token}
    {kept : Located StructuralToken} (h : scope.keep? token = some kept)
    (tokens : List (Located Token)) :
    structuralTokensFrom scope (token :: tokens) =
      kept :: structuralTokensFrom (scope.next token.value) tokens := by
  rw [structuralTokensFrom_cons, h]
  rfl

/-- Noise has no part in what is kept, whatever scope the lists are entered in. -/
theorem SameButNoise.structuralTokensFrom_eq {xs ys : List (Located Token)}
    (h : SameButNoise xs ys) (scope : Scope) :
    structuralTokensFrom scope xs = structuralTokensFrom scope ys := by
  induction h generalizing scope with
  | nil => rfl
  | same token _ ih => rw [structuralTokensFrom_cons, structuralTokensFrom_cons, ih]
  | leftOut hnoise _ ih =>
    rw [structuralTokensFrom_cons_of_none (Scope.keep?_of_noise hnoise scope), ih]
  | putIn hnoise _ ih =>
    rw [structuralTokensFrom_cons_of_none (Scope.keep?_of_noise hnoise scope), ih]

/-- A run over what was kept goes through the same scopes as the run that kept it. -/
theorem structuralTokensFrom_map_toToken (scope : Scope) (tokens : List (Located Token)) :
    structuralTokensFrom scope ((structuralTokensFrom scope tokens).map Located.toToken) =
      structuralTokensFrom scope tokens := by
  induction tokens generalizing scope with
  | nil => rfl
  | cons token tokens ih =>
    cases hkeep : scope.keep? token with
    | none => rw [structuralTokensFrom_cons_of_none hkeep, ih]
    | some kept =>
      obtain ⟨-, rfl⟩ := Scope.keep?_eq_some_iff.1 hkeep
      rw [structuralTokensFrom_cons_of_some hkeep, List.map_cons,
        structuralTokensFrom_cons_of_some hkeep, ih]

/-- Filtering what was kept keeps it whole, noise that is left out or put in has no effect, and the
lists that the filter can put out are the ones that it leaves as they are. -/
theorem structuralTokens_projects (tokens : List (Located Token)) :
    structuralTokens ((structuralTokens tokens).map Located.toToken) = structuralTokens tokens ∧
    (∀ others, SameButNoise tokens others → structuralTokens others = structuralTokens tokens) ∧
    ∀ kept : List (Located StructuralToken),
      (∃ source, structuralTokens source = kept) ↔
        structuralTokens (kept.map Located.toToken) = kept := by
  refine ⟨structuralTokensFrom_map_toToken .outside tokens, fun others hothers => ?_,
    fun kept => ⟨?_, fun hfixed => ⟨_, hfixed⟩⟩⟩
  · exact (hothers.structuralTokensFrom_eq .outside).symm
  · rintro ⟨source, rfl⟩
    exact structuralTokensFrom_map_toToken .outside source

/-- The tokens of `class protocol P? {}`. -/
def keywordBeforeProtocol : List (Located Token) :=
  [⟨.typeKeyword .classType, 0, 5⟩, ⟨.whitespace, 5, 6⟩, ⟨.protocolKeyword, 6, 14⟩,
    ⟨.whitespace, 14, 15⟩, ⟨.identifier "P", 15, 16⟩, ⟨.question, 16, 17⟩,
    ⟨.whitespace, 17, 18⟩, ⟨.leftBrace, 18, 19⟩, ⟨.rightBrace, 19, 20⟩]

/-- Without the other keyword, the blanks and the question mark, but with a literal in front of the
name, as much is kept. -/
theorem keywordBeforeProtocol_projects :
    SameButNoise keywordBeforeProtocol
        [⟨.protocolKeyword, 6, 14⟩, ⟨.numberLiteral, 3, 2⟩, ⟨.identifier "P", 15, 16⟩,
          ⟨.leftBrace, 18, 19⟩, ⟨.rightBrace, 19, 20⟩] ∧
      structuralTokens [⟨.protocolKeyword, 6, 14⟩, ⟨.numberLiteral, 3, 2⟩,
          ⟨.identifier "P", 15, 16⟩, ⟨.leftBrace, 18, 19⟩, ⟨.rightBrace, 19, 20⟩] =
        structuralTokens keywordBeforeProtocol := by
  have hnoise : SameButNoise keywordBeforeProtocol
      [⟨.protocolKeyword, 6, 14⟩, ⟨.numberLiteral, 3, 2⟩, ⟨.identifier "P", 15, 16⟩,
        ⟨.leftBrace, 18, 19⟩, ⟨.rightBrace, 19, 20⟩] :=
    .leftOut rfl (.leftOut rfl (.same _ (.leftOut rfl (.putIn rfl (.same _ (.leftOut rfl
      (.leftOut rfl (.same _ (.same _ .nil)))))))))
  exact ⟨hnoise, (structuralTokens_projects keywordBeforeProtocol).2.1 _ hnoise⟩

end ProtocolMocks
