import ProtocolMocks.Data.List
import ProtocolMocks.Proofs.Regions
import ProtocolMocks.Proofs.VoidClause

/-!
# One declaration for each keyword

If the declarations of a source can be read at all, then each `protocol` among its tokens stands for
one of them and each `func` up to the next closing brace for one of its requirements, in order, with
the name that comes next. The filter loses none of them, because what it leaves out of a region has
no part in the grammar, and the parser can neither split nor join them.
-/

namespace ProtocolMocks

/-- One item for each token of a kind, in order, and each fits what stands behind its token. -/
structure OneForEach {α τ : Type} [DecidableEq τ] (kind : τ) (Fits : α → List τ → Prop)
    (items : List α) (tokens : List τ) : Prop where
  length_eq : items.length = tokens.count kind
  exists_fits : ∀ front behind, tokens = front ++ kind :: behind →
    ∃ item, items[front.count kind]? = some item ∧ Fits item behind

namespace OneForEach

variable {α τ : Type} [DecidableEq τ] {kind : τ} {Fits : α → List τ → Prop} {items : List α}
  {tokens : List τ}

/-- Without tokens of a kind there are no items. -/
theorem nil (h : kind ∉ tokens) : OneForEach kind Fits [] tokens where
  length_eq := (List.count_eq_zero.2 h).symm
  exists_fits front behind htokens := by
    rw [htokens] at h
    exact absurd List.mem_append_cons_self h

/-- Tokens of other kinds may stand in front. -/
theorem prepend {before : List τ} (hbefore : kind ∉ before)
    (h : OneForEach kind Fits items tokens) :
    OneForEach kind Fits items (before ++ tokens) where
  length_eq := by
    rw [List.count_append, List.count_eq_zero.2 hbefore, Nat.zero_add, h.length_eq]
  exists_fits front behind htokens := by
    rcases exists_of_append_eq_append_cons htokens with ⟨_, rfl, _⟩ | ⟨front', rfl, hfront'⟩
    · exact absurd List.mem_append_cons_self hbefore
    · rw [List.count_append, List.count_eq_zero.2 hbefore, Nat.zero_add]
      exact h.exists_fits front' behind hfront'

/-- An item that fits what comes behind a token of the kind is put in front of the others. -/
theorem cons {item : α} (hitem : Fits item tokens) (h : OneForEach kind Fits items tokens) :
    OneForEach kind Fits (item :: items) (kind :: tokens) where
  length_eq := by rw [List.length_cons, List.count_cons_self, h.length_eq]
  exists_fits front behind htokens := by
    cases front with
    | nil =>
      cases htokens
      exact ⟨item, rfl, hitem⟩
    | cons t front =>
      cases htokens
      rw [List.count_cons_self, List.getElem?_cons_succ]
      exact h.exists_fits front behind rfl

end OneForEach

/-- The first structural token of a list. -/
def Token.firstStructural? (tokens : List Token) : Option StructuralToken :=
  tokens.findSome? StructuralToken.ofToken?

/-- The first structural token is the first token that has a structural form. -/
theorem head?_filterMap_ofToken? (tokens : List Token) :
    (tokens.filterMap StructuralToken.ofToken?).head? = Token.firstStructural? tokens :=
  List.head?_filterMap

/-- A structural token is as frequent as the token that it is made of. -/
theorem count_filterMap_ofToken? (s : StructuralToken) (tokens : List Token) :
    (tokens.filterMap StructuralToken.ofToken?).count s = tokens.count s.toToken := by
  rw [List.count_filterMap, List.count]
  refine List.countP_congr fun t _ => ?_
  rw [beq_iff_eq, beq_iff_eq, StructuralToken.ofToken?_eq_some_iff]

/-- A structural token is among those of a list if the token that it is made of is in the list. -/
theorem mem_filterMap_ofToken?_iff {s : StructuralToken} {tokens : List Token} :
    s ∈ tokens.filterMap StructuralToken.ofToken? ↔ s.toToken ∈ tokens := by
  rw [← List.count_pos_iff, ← List.count_pos_iff, count_filterMap_ofToken?]

/-- Items among the structural tokens are items among all tokens. -/
theorem OneForEach.of_filterMap {α : Type} {s : StructuralToken} {name : α → StructuralToken}
    {items : List α} {tokens : List Token}
    (h : OneForEach s (fun item behind => behind.head? = some (name item)) items
      (tokens.filterMap StructuralToken.ofToken?)) :
    OneForEach s.toToken (fun item behind => Token.firstStructural? behind = some (name item)) items
      tokens where
  length_eq := h.length_eq.trans (count_filterMap_ofToken? s tokens)
  exists_fits front behind htokens := by
    have hkept : tokens.filterMap StructuralToken.ofToken? =
        front.filterMap StructuralToken.ofToken? ++
          s :: behind.filterMap StructuralToken.ofToken? := by
      rw [htokens, List.filterMap_append,
        List.filterMap_cons_some (StructuralToken.ofToken?_toToken s)]
    obtain ⟨item, hitem, hname⟩ := h.exists_fits _ _ hkept
    rw [count_filterMap_ofToken?] at hitem
    rw [head?_filterMap_ofToken?] at hname
    exact ⟨item, hitem, hname⟩

/-- The tokens within headers and signatures; keywords and braces stand between them. -/
def StructuralToken.isInner : StructuralToken → Bool
  | .identifier _ | .colon | .comma | .leftParen | .rightParen | .arrow => true
  | _ => false

section

variable {tokens : List StructuralToken}

/-- A list consists of inner tokens if its items do, since commas are inner too. -/
theorem CommaSeparated.isInner {α : Type} {Item : α → List StructuralToken → Prop}
    {values : List α} (hitem : ∀ value part, Item value part → ∀ t ∈ part, t.isInner = true)
    (h : CommaSeparated Item values tokens) : ∀ t ∈ tokens, t.isInner = true := by
  induction h with
  | single hvalue => exact hitem _ _ hvalue
  | cons hvalue _ ih =>
    exact List.forall_mem_append.2 ⟨hitem _ _ hvalue, List.forall_mem_cons.2 ⟨rfl, ih⟩⟩

theorem ConformanceClause.isInner {names : List String} (h : ConformanceClause names tokens) :
    ∀ t ∈ tokens, t.isInner = true := by
  cases h with
  | omitted => exact List.forall_mem_nil _
  | written hnames =>
    refine List.forall_mem_cons.2 ⟨rfl, hnames.isInner ?_⟩
    rintro name part ⟨_⟩
    exact List.forall_mem_singleton.2 rfl

theorem ParameterList.isInner {ps : List Parameter} (h : ParameterList ps tokens) :
    ∀ t ∈ tokens, t.isInner = true := by
  cases h with
  | empty => exact List.forall_mem_nil _
  | list hps =>
    refine hps.isInner fun p part hp => ?_
    cases hp <;> simp [StructuralToken.isInner]

theorem ReturnClause.isInner {typeName : String} (h : ReturnClause typeName tokens) :
    ∀ t ∈ tokens, t.isInner = true := by
  cases h <;> simp [StructuralToken.isInner]

/-- A requirement starts with `func` and its name, and goes on with inner tokens. -/
theorem Requirement.SpelledBy.exists_eq_cons {r : Requirement} (h : r.SpelledBy tokens) :
    ∃ signature, tokens = .func :: .identifier r.name :: signature ∧
      ∀ t ∈ signature, t.isInner = true := by
  obtain ⟨hps, hclause⟩ := h
  refine ⟨_, rfl, List.forall_mem_cons.2 ⟨rfl, List.forall_mem_append.2 ⟨hps.isInner, ?_⟩⟩⟩
  exact List.forall_mem_cons.2 ⟨rfl, hclause.isInner⟩

/-- Tokens that are not inner do not occur among inner ones. -/
theorem not_mem_of_isInner {kind : StructuralToken} (hkind : kind.isInner = false)
    (h : ∀ t ∈ tokens, t.isInner = true) : kind ∉ tokens := by
  intro hmem
  rw [h kind hmem] at hkind
  cases hkind

/-- Neither `func` nor an inner token is a brace. -/
theorem ne_brace_of_isInner {t : StructuralToken} (h : t = .func ∨ t.isInner = true) :
    t ≠ .leftBrace ∧ t ≠ .rightBrace := by
  constructor <;> rintro rfl <;> simp [StructuralToken.isInner] at h

/-- The requirements of a body, with the name of each behind its keyword. -/
theorem oneForEach_func {rs : List Requirement} (h : Repeated Requirement.SpelledBy rs tokens) :
    OneForEach .func (fun r behind => behind.head? = some (.identifier r.name)) rs tokens := by
  induction h with
  | nil => exact .nil List.not_mem_nil
  | @cons r rs front back hr _ ih =>
    obtain ⟨signature, rfl, hinner⟩ := hr.exists_eq_cons
    have hsignature : ∀ t ∈ .identifier r.name :: signature, t.isInner = true :=
      List.forall_mem_cons.2 ⟨rfl, hinner⟩
    exact .cons rfl (ih.prepend (not_mem_of_isInner rfl hsignature))

/-- A body holds no tokens but `func` and inner ones. -/
theorem isInner_of_mem_body {rs : List Requirement} (h : Repeated Requirement.SpelledBy rs tokens) :
    ∀ t ∈ tokens, t = .func ∨ t.isInner = true := by
  induction h with
  | nil => exact List.forall_mem_nil _
  | cons hr _ ih =>
    obtain ⟨signature, rfl, hinner⟩ := hr.exists_eq_cons
    refine List.forall_mem_append.2 ⟨List.forall_mem_cons.2 ⟨.inl rfl, ?_⟩, ih⟩
    exact List.forall_mem_cons.2 ⟨.inr rfl, fun t ht => .inr (hinner t ht)⟩

end

/-- The tokens behind the keyword of a declaration show its name first, and for each `func` up to
the first closing brace one of its requirements, whose name is the first structural token behind
that `func`. -/
structure ProtocolDecl.ShownBy (p : ProtocolDecl) (behind : List Token) : Prop where
  name : Token.firstStructural? behind = some (.identifier p.name)
  closed : .rightBrace ∈ behind
  requirements : OneForEach .func
    (fun r behind => Token.firstStructural? behind = some (.identifier r.name)) p.requirements
    (behind.takeWhile (· ≠ .rightBrace))

/-- The tokens between the keyword of a declaration and its closing brace. -/
structure ProtocolDecl.Fills (p : ProtocolDecl) (inside : List Token) : Prop where
  name : Token.firstStructural? inside = some (.identifier p.name)
  unclosed : .rightBrace ∉ inside
  no_keyword : .protocolKeyword ∉ inside
  requirements : OneForEach .func
    (fun r behind => Token.firstStructural? behind = some (.identifier r.name)) p.requirements
    inside

/-- A declaration that fills the inside of a region is shown by the tokens from there on. -/
theorem ProtocolDecl.Fills.shownBy {p : ProtocolDecl} {inside : List Token} (h : p.Fills inside)
    (rest : List Token) : p.ShownBy (inside ++ .rightBrace :: rest) where
  name := by
    have hname := h.name
    rw [Token.firstStructural?] at hname ⊢
    rw [List.findSome?_append, hname, Option.some_or]
  closed := List.mem_append_cons_self
  requirements := by
    have hinside : ∀ t ∈ inside, decide (t ≠ .rightBrace) = true := by
      intro t ht
      refine decide_eq_true ?_
      rintro rfl
      exact h.unclosed ht
    rw [List.takeWhile_append_of_pos hinside, List.takeWhile_cons_of_neg (by simp),
      List.append_nil]
    exact h.requirements

/-- What is kept between the keyword and the closing brace decides what fills the region. -/
theorem ProtocolDecl.fills_of_filterMap {p : ProtocolDecl} {inside : List Token}
    {clause body : List StructuralToken} (hclause : ConformanceClause p.conformances clause)
    (hbody : Repeated Requirement.SpelledBy p.requirements body)
    (h : inside.filterMap StructuralToken.ofToken? =
      .identifier p.name :: (clause ++ .leftBrace :: body)) : p.Fills inside := by
  have hheader : ∀ t ∈ .identifier p.name :: clause, t.isInner = true :=
    List.forall_mem_cons.2 ⟨rfl, hclause.isInner⟩
  have hkinds : ∀ t ∈ inside.filterMap StructuralToken.ofToken?,
      t = .leftBrace ∨ t = .func ∨ t.isInner = true := by
    intro t ht
    rw [h, ← List.cons_append] at ht
    rcases List.mem_append.1 ht with ht | ht
    · exact .inr (.inr (hheader t ht))
    · exact (List.mem_cons.1 ht).imp_right (isInner_of_mem_body hbody t)
  refine ⟨?_, fun hmem => ?_, fun hmem => ?_, ?_⟩
  · rw [← head?_filterMap_ofToken?, h, List.head?_cons]
  · have hkind := hkinds .rightBrace (mem_filterMap_ofToken?_iff.2 hmem)
    simp [StructuralToken.isInner] at hkind
  · have hkind := hkinds .protocolKeyword (mem_filterMap_ofToken?_iff.2 hmem)
    simp [StructuralToken.isInner] at hkind
  · refine OneForEach.of_filterMap (s := .func) ?_
    have hfront : .func ∉ (.identifier p.name :: clause) ++ [.leftBrace] := by
      rw [List.mem_append, not_or]
      exact ⟨not_mem_of_isInner rfl hheader, by simp⟩
    have hfuncs := (oneForEach_func hbody).prepend hfront
    rwa [List.append_assoc, List.singleton_append, List.cons_append, ← h] at hfuncs

/-- A declaration is read from the first region among the tokens, and fills it. It is cut at the
keyword, at the opening brace and at the closing brace. -/
theorem ProtocolDecl.SpelledBy.exists_region {p : ProtocolDecl} {part more : List StructuralToken}
    (hp : p.SpelledBy part) {tokens : List Token}
    (h : keptTokens .outside tokens = part ++ more) :
    ∃ before inside rest, tokens = before ++ .protocolKeyword :: (inside ++ .rightBrace :: rest) ∧
      .protocolKeyword ∉ before ∧ p.Fills inside ∧ keptTokens .outside rest = more := by
  obtain @⟨name, rs, names, clause, body, hclause, hbody⟩ := hp
  have hheaderBraces : ∀ t ∈ .identifier name :: clause, t ≠ .leftBrace ∧ t ≠ .rightBrace :=
    List.forall_mem_cons.2 ⟨by simp, fun t ht => ne_brace_of_isInner (.inr (hclause.isInner t ht))⟩
  have hbodyBraces : ∀ t ∈ body, t ≠ .leftBrace ∧ t ≠ .rightBrace :=
    fun t ht => ne_brace_of_isInner (isInner_of_mem_body hbody t ht)
  obtain ⟨before, behind, rfl, hbefore, _, hbehind⟩ := exists_of_keptTokens_eq_cons h
  have hregion : keptTokens .header behind =
      (.identifier name :: clause) ++ .leftBrace :: (body ++ .rightBrace :: more) := by
    refine hbehind.trans ?_
    simp
  obtain ⟨header, block, rfl, hheader, hblock⟩ :=
    exists_of_keptTokens_eq_append_cons (by decide) hheaderBraces hregion
  obtain ⟨inner, rest, rfl, hinner, hrest⟩ :=
    exists_of_keptTokens_eq_append_cons (by decide) hbodyBraces hblock
  have hinside : (header ++ .leftBrace :: inner).filterMap StructuralToken.ofToken? =
      .identifier name :: (clause ++ .leftBrace :: body) := by
    have hbrace : StructuralToken.ofToken? .leftBrace = some .leftBrace := rfl
    rw [List.filterMap_append, hheader, List.filterMap_cons_some hbrace, hinner, List.cons_append]
  exact ⟨before, header ++ .leftBrace :: inner, rest, by simp [StructuralToken.toToken],
    not_mem_of_keptTokens_outside_eq_nil hbefore,
    ProtocolDecl.fills_of_filterMap hclause hbody hinside, hrest⟩

/-- If declarations are spelled by what the filter keeps, each `protocol` among all the tokens
stands for one of them. The induction is on the declarations, from region to region. -/
theorem oneForEach_protocolKeyword {decls : List ProtocolDecl} {kept : List StructuralToken}
    (h : Repeated ProtocolDecl.SpelledBy decls kept) {tokens : List Token}
    (hkept : keptTokens .outside tokens = kept) :
    OneForEach .protocolKeyword ProtocolDecl.ShownBy decls tokens := by
  induction h generalizing tokens with
  | nil => exact .nil (not_mem_of_keptTokens_outside_eq_nil hkept)
  | cons hp _ ih =>
    obtain ⟨before, inside, rest, rfl, hbefore, hfills, hrest⟩ := hp.exists_region hkept
    have hregion : .protocolKeyword ∉ inside ++ [.rightBrace] := by
      simp [hfills.no_keyword]
    have hlater := (ih hrest).prepend hregion
    rw [List.append_assoc, List.singleton_append] at hlater
    exact (OneForEach.cons (hfills.shownBy rest) hlater).prepend hbefore

/-- The declarations of a token list are one for each `protocol` in it, in order, each shown by the
tokens behind its keyword. -/
theorem declarations_one_for_each_keyword {tokens : List (Located Token)}
    {decls : List ProtocolDecl} (h : parseDeclarations (structuralTokens tokens) = .ok decls) :
    OneForEach .protocolKeyword ProtocolDecl.ShownBy decls (tokens.map Located.value) :=
  oneForEach_protocolKeyword (spelled_of_parseDeclarations h)
    (map_value_structuralTokens tokens).symm

/-- The tokens of `class { func } protocol P { throws func f() }`. -/
def nestedKeywords : List (Located Token) :=
  [⟨.typeKeyword .classType, 0, 5⟩, ⟨.leftBrace, 6, 7⟩, ⟨.func, 8, 12⟩, ⟨.rightBrace, 13, 14⟩,
    ⟨.protocolKeyword, 15, 23⟩, ⟨.identifier "P", 24, 25⟩, ⟨.leftBrace, 26, 27⟩,
    ⟨.modifier, 28, 34⟩, ⟨.func, 35, 39⟩, ⟨.identifier "f", 40, 41⟩, ⟨.leftParen, 41, 42⟩,
    ⟨.rightParen, 42, 43⟩, ⟨.rightBrace, 44, 45⟩]

/-- One declaration with one requirement is read, although another `func` stands in front of it. -/
theorem nestedKeywords_declare_one :
    parseDeclarations (structuralTokens nestedKeywords) = .ok [⟨"P", [⟨"f", [], voidType⟩], []⟩] ∧
      OneForEach .protocolKeyword ProtocolDecl.ShownBy [⟨"P", [⟨"f", [], voidType⟩], []⟩]
        (nestedKeywords.map Located.value) := by
  have hrequirement : Requirement.SpelledBy ⟨"f", [], voidType⟩
      [.func, .identifier "f", .leftParen, .rightParen] := .mk .empty .omitted
  have hprotocol : ProtocolDecl.SpelledBy ⟨"P", [⟨"f", [], voidType⟩], []⟩
      ((structuralTokens nestedKeywords).map Located.value) :=
    .mk .omitted (.cons hrequirement .nil)
  have hparse : parseDeclarations (structuralTokens nestedKeywords) =
      .ok [⟨"P", [⟨"f", [], voidType⟩], []⟩] :=
    parseDeclarations_of_spelled (.cons hprotocol .nil)
  exact ⟨hparse, declarations_one_for_each_keyword hparse⟩

end ProtocolMocks
