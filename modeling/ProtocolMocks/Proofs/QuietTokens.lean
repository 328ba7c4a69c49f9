import ProtocolMocks.Proofs.Grammar
import ProtocolMocks.Proofs.Reading

/-!
# Quiet tokens

Tokens are quiet if their brackets are nested and none of them declares a type, quotes text or has
no kind. Quiet tokens can be put one after the other or in brackets, and whatever spells a
requirement is quiet.
-/

namespace ProtocolMocks

open Token

/-- The brackets that are open after a token, the innermost first. A closing bracket has to fit the
innermost one. -/
def Token.openAfter (opened : List Token) : Token → Option (List Token)
  | .leftBrace => some (.leftBrace :: opened)
  | .leftParen => some (.leftParen :: opened)
  | .rightBrace => if opened.head? = some .leftBrace then some opened.tail else none
  | .rightParen => if opened.head? = some .leftParen then some opened.tail else none
  | _ => some opened

/-- Braces and parentheses are closed in the opposite order to that in which they are opened, and
no others are. -/
def Nested (tokens : List Token) : Prop := ∀ opened, tokens.foldlM openAfter opened = some opened

/-- The brackets with those that close them. -/
def Token.brackets : List (Token × Token) := [(.leftBrace, .rightBrace), (.leftParen, .rightParen)]

/-- Braces and parentheses. -/
def Token.isBracket : Token → Bool
  | .leftBrace | .rightBrace | .leftParen | .rightParen => true
  | _ => false

/-- Other tokens leave open what is open. -/
theorem Token.openAfter_of_not_isBracket {t : Token} (h : t.isBracket = false)
    (opened : List Token) : openAfter opened t = some opened := by
  cases t <;> first | rfl | cases h

namespace Nested

theorem nil : Nested [] := fun _ => rfl

/-- Nested tokens stay nested next to each other. -/
theorem append {front back : List Token} (h : Nested front) (h' : Nested back) :
    Nested (front ++ back) := by
  intro opened
  rw [List.foldlM_append, h opened]
  exact h' opened

/-- Another token that is no bracket may stand in front. -/
theorem cons {t : Token} (h : t.isBracket = false) {ts : List Token} (hts : Nested ts) :
    Nested (t :: ts) := by
  intro opened
  rw [List.foldlM_cons, openAfter_of_not_isBracket h]
  exact hts opened

/-- A pair of brackets may be put around nested tokens. -/
theorem enclose {opening closing : Token} (h : (opening, closing) ∈ brackets)
    {inside : List Token} (hinside : Nested inside) :
    Nested (opening :: (inside ++ [closing])) := by
  intro opened
  have hopened := hinside (opening :: opened)
  simp only [brackets, List.mem_cons, Prod.mk.injEq, List.not_mem_nil, or_false] at h
  rcases h with ⟨rfl, rfl⟩ | ⟨rfl, rfl⟩ <;> simp [openAfter, hopened]

/-- Spacing does not count. -/
theorem of_filter {tokens : List Token} (h : Nested (tokens.filter (!·.isSpacing))) :
    Nested tokens := by
  have hskip : ∀ opened : List Token, (tokens.filter (!·.isSpacing)).foldlM openAfter opened =
      tokens.foldlM openAfter opened := by
    clear h
    induction tokens with
    | nil => exact fun _ => rfl
    | cons t ts ih =>
      intro opened
      by_cases ht : t.isSpacing = true
      · have hopened : openAfter opened t = some opened := by
          cases t <;> first | rfl | cases ht
        rw [List.filter_cons_of_neg (by simp [ht]), List.foldlM_cons, hopened]
        exact ih opened
      · rw [List.filter_cons_of_pos (by simp [ht]), List.foldlM_cons, List.foldlM_cons]
        exact congrArg _ (funext ih)
  intro opened
  rw [← hskip]
  exact h opened

end Nested

/-- Tokens that may stand in a class behind its name. -/
def Token.isMember : Token → Bool
  | .typeKeyword _ | .unknown | .stringLiteral | .lineComment | .blockComment => false
  | _ => true

/-- The tokens declare no type, quote nothing, are all of a kind, and have nested brackets. -/
structure Quiet (tokens : List Token) : Prop where
  nested : Nested tokens
  members : ∀ t ∈ tokens, t.isMember = true

namespace Quiet

variable {tokens : List Token}

theorem nil : Quiet [] := ⟨.nil, List.forall_mem_nil _⟩

/-- Quiet tokens stay quiet next to each other. -/
theorem append {more : List Token} (h : Quiet tokens) (h' : Quiet more) : Quiet (tokens ++ more) :=
  ⟨h.nested.append h'.nested, List.forall_mem_append.2 ⟨h.members, h'.members⟩⟩

/-- Another token may stand in front if it is no bracket and may stand in a class. -/
theorem cons {t : Token} (hbracket : t.isBracket = false) (hmember : t.isMember = true)
    (h : Quiet tokens) : Quiet (t :: tokens) :=
  ⟨h.nested.cons hbracket, List.forall_mem_cons.2 ⟨hmember, h.members⟩⟩

/-- A pair of brackets may be put around quiet tokens. -/
theorem enclose {opening closing : Token} (hpair : (opening, closing) ∈ brackets)
    (h : Quiet tokens) : Quiet (opening :: (tokens ++ [closing])) := by
  have hall : ∀ pair ∈ brackets, pair.1.isMember = true ∧ pair.2.isMember = true := by decide
  obtain ⟨hopening, hclosing⟩ := hall _ hpair
  refine ⟨h.nested.enclose hpair, List.forall_mem_cons.2 ⟨hopening, ?_⟩⟩
  exact List.forall_mem_append.2 ⟨h.members, List.forall_mem_singleton.2 hclosing⟩

theorem braces (h : Quiet tokens) : Quiet (.leftBrace :: (tokens ++ [.rightBrace])) :=
  h.enclose (by decide)

theorem parens (h : Quiet tokens) : Quiet (.leftParen :: (tokens ++ [.rightParen])) :=
  h.enclose (by decide)

end Quiet

/-- A parameter is spelled without brackets, so its tokens are quiet. -/
theorem Parameter.SpelledBy.quiet {p : Parameter} {tokens : List StructuralToken}
    (h : p.SpelledBy tokens) : Quiet (tokens.map StructuralToken.toToken) := by
  cases h with
  | unlabelled => exact .cons rfl rfl (.cons rfl rfl (.cons rfl rfl .nil))
  | labelled =>
    exact .cons rfl rfl (.cons rfl rfl (.cons rfl rfl (.cons rfl rfl .nil)))

/-- The tokens of a list of parameters are quiet, as those of each parameter are. -/
theorem ParameterList.quiet {ps : List Parameter} {tokens : List StructuralToken}
    (h : ParameterList ps tokens) : Quiet (tokens.map StructuralToken.toToken) := by
  cases h with
  | empty => exact .nil
  | list hlist =>
    induction hlist with
    | single hp => exact hp.quiet
    | cons hp _ ih =>
      rw [List.map_append, List.map_cons]
      exact hp.quiet.append (.cons rfl rfl ih)

/-- The tokens of a requirement are quiet: its only brackets are those around the parameters. -/
theorem Requirement.SpelledBy.quiet {r : Requirement} {tokens : List StructuralToken}
    (h : r.SpelledBy tokens) : Quiet (tokens.map StructuralToken.toToken) := by
  obtain @⟨name, ps, result, inside, clause, hps, hclause⟩ := h
  have hclauseQuiet : Quiet (clause.map StructuralToken.toToken) := by
    cases hclause with
    | omitted => exact .nil
    | written => exact .cons rfl rfl (.cons rfl rfl .nil)
  have hmap : (StructuralToken.func :: .identifier name :: .leftParen ::
      (inside ++ .rightParen :: clause)).map StructuralToken.toToken =
        .func :: .identifier name :: ((.leftParen :: (inside.map StructuralToken.toToken ++
          [.rightParen])) ++ clause.map StructuralToken.toToken) := by
    simp [StructuralToken.toToken]
  rw [hmap]
  exact .cons rfl rfl (.cons rfl rfl (hps.quiet.parens.append hclauseQuiet))

end ProtocolMocks
