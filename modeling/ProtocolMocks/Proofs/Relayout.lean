import ProtocolMocks.Proofs.Partition
import ProtocolMocks.Proofs.Regions
import ProtocolMocks.Proofs.VoidClause

/-!
# Layout never matters

A source can be laid out anew, with spaces and tabs in place of whitespace and comments. No token
that means something changes by it: where such a token ends depends on at most two characters
behind it, and those are either kept or become blanks. All that is learned from a source is
therefore learned from any layout of it.
-/

namespace ProtocolMocks

open Token

/-- Blanks within a line and comments; line breaks are not part of it. -/
def Token.isLayout : Token → Bool
  | .whitespace | .lineComment | .blockComment => true
  | _ => false

/-- Layout is trivia. -/
theorem Token.isTrivia_of_isLayout {t : Token} (h : t.isLayout = true) : t.isTrivia = true := by
  cases t <;> first | rfl | cases h

/-- The text has the same lexemes, but spaces and tabs in place of each piece of layout. -/
inductive Relaid : List Lexeme → List Char → Prop
  | nil : Relaid [] []
  | keep {l ls text} : l.token.isLayout = false → Relaid ls text →
      Relaid (l :: ls) (l.text ++ text)
  | replace {l ls blanks text} : l.token.isLayout = true → blanks ≠ [] →
      (∀ c ∈ blanks, c = ' ' ∨ c = '\t') → Relaid ls text → Relaid (l :: ls) (blanks ++ text)

theorem Relaid.eq_nil {text : List Char} (h : Relaid [] text) : text = [] := by
  cases h
  rfl

/-- A lexeme that is no layout stands in front of the new text as well. -/
theorem Relaid.exists_of_kept {l : Lexeme} {ls : List Lexeme} {text : List Char}
    (h : Relaid (l :: ls) text) (hl : l.token.isLayout = false) :
    ∃ text', text = l.text ++ text' ∧ Relaid ls text' := by
  cases h with
  | keep _ hrest => exact ⟨_, rfl, hrest⟩
  | replace hlayout => exact absurd (hlayout.symm.trans hl) (by decide)

/-- The new text starts with the same character or with a blank. -/
theorem Relaid.forall_head? {P : Char → Prop} (hspace : P ' ') (htab : P '\t') {cs text : List Char}
    (h : Relaid (lexemes cs) text) (hcs : ∀ c ∈ cs.head?, P c) : ∀ c ∈ text.head?, P c := by
  intro c hc
  cases cs with
  | nil =>
    rw [lexemes] at h
    rw [h.eq_nil] at hc
    cases hc
  | cons d cs =>
    obtain ⟨e, text', htext⟩ := List.exists_cons_of_ne_nil (scan_text_ne_nil d cs)
    have hfront : e = d := by
      have happend := scan_text_append d cs
      rw [htext] at happend
      exact (List.cons.inj happend).1
    rw [lexemes] at h
    cases h with
    | keep =>
      rw [htext, List.cons_append, List.head?_cons, Option.mem_some_iff] at hc
      rw [← hc, hfront]
      exact hcs d rfl
    | @replace _ _ blanks _ _ hne hblanks =>
      obtain ⟨b, blanks, rfl⟩ := List.exists_cons_of_ne_nil hne
      rw [List.cons_append, List.head?_cons, Option.mem_some_iff] at hc
      rcases hblanks b List.mem_cons_self with rfl | rfl
      · rwa [← hc]
      · rwa [← hc]

/-- What stops a run without spaces or tabs still does in a new layout. -/
theorem Relaid.stops {inClass : Char → Bool} (hspace : inClass ' ' = false)
    (htab : inClass '\t' = false) {rest text : List Char} (h : Relaid (lexemes rest) text)
    (hrest : Stops inClass rest) : Stops inClass text :=
  h.forall_head? (P := (inClass · = false)) hspace htab hrest

theorem ruleless_backslash : Ruleless '\\' :=
  ⟨by decide, by decide, by decide, by decide, by decide, by simp [punctuation]⟩

/-- A newline is a lexeme by itself. -/
theorem lexemes_newline (cs : List Char) :
    lexemes ('\n' :: cs) = ⟨.newline, ['\n']⟩ :: lexemes cs :=
  lexemes_append (.newline cs)

/-- A backslash is an unknown lexeme by itself. -/
theorem lexemes_backslash (cs : List Char) :
    lexemes ('\\' :: cs) = ⟨.unknown, ['\\']⟩ :: lexemes cs :=
  lexemes_append (.stray (.ruleless cs ruleless_backslash))

/-- What keeps a string from closing is no layout. -/
theorem Relaid.breaksOff {rest text : List Char} (h : Relaid (lexemes rest) text)
    (hrest : BreaksOff rest) : BreaksOff text := by
  cases hrest with
  | atEnd =>
    rw [lexemes] at h
    rw [h.eq_nil]
    exact .atEnd
  | atNewline rest =>
    rw [lexemes_newline] at h
    obtain ⟨text, rfl, _⟩ := h.exists_of_kept rfl
    exact .atNewline text
  | backslashAtEnd =>
    rw [lexemes_backslash, lexemes] at h
    obtain ⟨text, rfl, hend⟩ := h.exists_of_kept rfl
    rw [hend.eq_nil]
    exact .backslashAtEnd
  | backslashAtNewline rest =>
    rw [lexemes_backslash, lexemes_newline] at h
    obtain ⟨text, rfl, hnext⟩ := h.exists_of_kept rfl
    obtain ⟨text, rfl, _⟩ := hnext.exists_of_kept rfl
    exact .backslashAtNewline text

/-- A sign that starts nothing starts nothing in a new layout either. -/
theorem Relaid.stray {c : Char} {rest text : List Char} (h : Relaid (lexemes rest) text)
    (hc : Stray c rest) : Stray c text := by
  cases hc with
  | slash hrest => exact .slash (h.forall_head? (by decide) (by decide) hrest)
  | atSign hrest => exact .atSign (h.stops (by decide) (by decide) hrest)
  | hyphen hrest => exact .hyphen (h.forall_head? (by decide) (by decide) hrest)
  | ruleless _ hc => exact .ruleless text hc

/-- A token that is not layout ends where it ended, whatever becomes of the layout behind it. -/
theorem Relaid.legalBefore {l : Lexeme} {rest text : List Char} (h : Relaid (lexemes rest) text)
    (hkept : l.token.isLayout = false) (hl : l.LegalBefore rest) : l.LegalBefore text := by
  cases hl with
  | whitespace | lineComment | closedComment | openComment => cases hkept
  | newline => exact .newline text
  | stringLiteral _ hbody => exact .stringLiteral text hbody
  | numberLiteral hshape hrest =>
    exact .numberLiteral hshape (h.stops (by decide) (by decide) hrest)
  | keyword hkind hrest => exact .keyword hkind (h.stops (by decide) (by decide) hrest)
  | identifier hplain hrest => exact .identifier hplain (h.stops (by decide) (by decide) hrest)
  | atName hshape hrest => exact .atName hshape (h.stops (by decide) (by decide) hrest)
  | arrow => exact .arrow text
  | punctuation _ hkind => exact .punctuation text hkind
  | stray hstray => exact .stray (h.stray hstray)
  | openString hbody hrest => exact .openString hbody (h.breaksOff hrest)

/-- The lexemes of a text that are not trivia. -/
def meaningful (cs : List Char) : List Lexeme := (lexemes cs).filter (!·.token.isTrivia)

/-- Trivia in front leave the meaningful lexemes as they are. -/
theorem meaningful_append_of_isTrivia {l : Lexeme} {rest : List Char} (h : l.LegalBefore rest)
    (htrivia : l.token.isTrivia = true) : meaningful (l.text ++ rest) = meaningful rest := by
  rw [meaningful, lexemes_append h, List.filter_cons_of_neg (by simp [htrivia]), meaningful]

/-- A blank in front has no meaning, nor have those behind it. -/
theorem meaningful_cons_of_isBlank {c : Char} (h : isBlank c = true) (cs : List Char) :
    meaningful (c :: cs) = meaningful (cs.dropWhile isBlank) := by
  have hrun : Lexeme.LegalBefore ⟨.whitespace, c :: cs.takeWhile isBlank⟩ (cs.dropWhile isBlank) :=
    .whitespace (shape_takeWhile h cs) (stops_dropWhile isBlank cs)
  have hrest := meaningful_append_of_isTrivia hrun rfl
  rwa [List.cons_append, List.takeWhile_append_dropWhile] at hrest

/-- Blanks in front may be dropped. -/
theorem meaningful_dropWhile_isBlank (cs : List Char) :
    meaningful (cs.dropWhile isBlank) = meaningful cs := by
  cases cs with
  | nil => rfl
  | cons c cs =>
    by_cases hc : isBlank c = true
    · rw [List.dropWhile_cons_of_pos hc, meaningful_cons_of_isBlank hc]
    · rw [List.dropWhile_cons_of_neg hc]

/-- Blanks in front of a text do no more than grow the whitespace that it starts with. -/
theorem meaningful_blanks_append {blanks : List Char} (h : ∀ c ∈ blanks, isBlank c = true)
    (cs : List Char) : meaningful (blanks ++ cs) = meaningful cs := by
  induction blanks with
  | nil => rfl
  | cons b blanks ih =>
    obtain ⟨hb, hblanks⟩ := List.forall_mem_cons.1 h
    rw [List.cons_append, meaningful_cons_of_isBlank hb, meaningful_dropWhile_isBlank, ih hblanks]

/-- Another layout has the same meaningful lexemes. Blanks may become one token with what follows,
so no more than these can be compared. -/
theorem Relaid.meaningful_eq {cs text : List Char} (h : Relaid (lexemes cs) text) :
    meaningful text = meaningful cs := by
  fun_induction lexemes cs generalizing text with
  | case1 => rw [h.eq_nil]
  | case2 c cs ih =>
    have hlegal := legalBefore_scan c cs
    have hcs : meaningful (c :: cs) =
        [(scan c cs).1].filter (!·.token.isTrivia) ++ meaningful (scan c cs).2 := by
      rw [meaningful, lexemes, ← List.singleton_append, List.filter_append, meaningful]
    cases h with
    | keep hkept hrest =>
      have hlexemes := lexemes_append (hrest.legalBefore hkept hlegal)
      rw [meaningful, hlexemes, ← List.singleton_append, List.filter_append, hcs, ← ih hrest,
        meaningful]
    | @replace _ _ blanks _ hlayout _ hblanks hrest =>
      have hblank : ∀ b ∈ blanks, isBlank b = true :=
        fun b hb => isBlank_eq_true_iff.2 ((hblanks b hb).imp_right .inl)
      rw [meaningful_blanks_append hblank, ih hrest, hcs]
      simp [isTrivia_of_isLayout hlayout]

/-- The meaningful tokens of a source with their slices. -/
theorem map_lexemeIn_filter_tokenize (source : String) :
    ((tokenize source).filter (!·.value.isTrivia)).map (·.lexemeIn source) =
      meaningful source.toList := by
  rw [meaningful, ← map_lexemeIn_tokenize, List.filter_map]
  rfl

/-- The tokens of the meaningful lexemes are those of the source that are no trivia. -/
theorem map_token_meaningful (source : String) :
    (meaningful source.toList).map Lexeme.token =
      ((tokenize source).map Located.value).filter (!·.isTrivia) := by
  rw [← map_lexemeIn_filter_tokenize, List.map_map, List.filter_map]
  rfl

/-- What is kept of a source depends on its meaningful lexemes alone. -/
theorem Source.map_value_structuralTokens_eq_meaningful (source : String) :
    (structuralTokens source).map Located.value =
      keptTokens .outside ((meaningful source.toList).map Lexeme.token) := by
  rw [map_token_meaningful, keptTokens_filter_isTrivia, structuralTokens,
    ProtocolMocks.map_value_structuralTokens]

/-- Sources with the same meaningful lexemes have the same declarations or the same complaint. -/
theorem Source.declarations_of_meaningful_eq {source source' : String}
    (h : meaningful source'.toList = meaningful source.toList) :
    (declarations source').mapError GrammarError.complaint =
      (declarations source).mapError GrammarError.complaint := by
  refine OmitsVoid.parseDeclarations_eq (OmitsVoid.of_map_value_eq ?_)
  rw [map_value_structuralTokens_eq_meaningful, map_value_structuralTokens_eq_meaningful, h]

/-- Sources with the same meaningful lexemes list the same types. -/
theorem Source.typeNames_of_meaningful_eq {source source' : String}
    (h : meaningful source'.toList = meaningful source.toList) :
    typeNames source' = typeNames source := by
  rw [typeNames, typeNames, ProtocolMocks.typeNames, ProtocolMocks.typeNames,
    ← map_token_meaningful, ← map_token_meaningful, h]

/-- Sources with the same declarations have the same mocks. -/
theorem Source.mocks_of_declarations_eq {source source' : String}
    (h : (declarations source').mapError GrammarError.complaint =
      (declarations source).mapError GrammarError.complaint) (options : MockOptions) :
    (mocks options source').mapError GrammarError.complaint =
      (mocks options source).mapError GrammarError.complaint := by
  have hswap : ∀ x : Except GrammarError (List ProtocolDecl),
      (x.map (Mock.generate options)).mapError GrammarError.complaint =
        (x.mapError GrammarError.complaint).map (Mock.generate options) := by
    intro x
    cases x <;> rfl
  rw [mocks, mocks, hswap, hswap, h]

/-- In another layout of a source the tokens that mean something are the same, with the same texts,
and so are the declarations or what is wrong with them, the names of types, and the mocks. -/
theorem layout_never_matters {source source' : String}
    (h : Relaid ((tokenize source).map (·.lexemeIn source)) source'.toList) :
    ((tokenize source').filter (!·.value.isTrivia)).map (·.lexemeIn source') =
      ((tokenize source).filter (!·.value.isTrivia)).map (·.lexemeIn source) ∧
    (Source.declarations source').mapError GrammarError.complaint =
      (Source.declarations source).mapError GrammarError.complaint ∧
    Source.typeNames source' = Source.typeNames source ∧
    ∀ options, (Source.mocks options source').mapError GrammarError.complaint =
      (Source.mocks options source).mapError GrammarError.complaint := by
  rw [map_lexemeIn_tokenize] at h
  have hmeaningful := h.meaningful_eq
  have hdecls := Source.declarations_of_meaningful_eq hmeaningful
  refine ⟨?_, hdecls, Source.typeNames_of_meaningful_eq hmeaningful,
    Source.mocks_of_declarations_eq hdecls⟩
  rw [map_lexemeIn_filter_tokenize, map_lexemeIn_filter_tokenize, hmeaningful]

/-- A comment that holds a quote becomes two blanks, the line break behind it stays. -/
theorem layout_of_commented_slash :
    Relaid ((tokenize "a/ //\"\n").map (·.lexemeIn "a/ //\"\n")) "a/\t  \n".toList ∧
      ((tokenize "a/\t  \n").filter (!·.value.isTrivia)).map (·.lexemeIn "a/\t  \n") =
        [⟨.identifier "a", ['a']⟩, ⟨.unknown, ['/']⟩] := by
  have hname : Lexeme.LegalBefore ⟨.identifier "a", ['a']⟩ ['/', ' ', '/', '/', '"', '\n'] :=
    .identifier (by decide) (stops_cons_iff.2 rfl)
  have hslash : Lexeme.LegalBefore ⟨.unknown, ['/']⟩ [' ', '/', '/', '"', '\n'] :=
    .stray (.slash (by simp))
  have hspace : Lexeme.LegalBefore ⟨.whitespace, [' ']⟩ ['/', '/', '"', '\n'] :=
    .whitespace (by decide) (stops_cons_iff.2 rfl)
  have hcomment : Lexeme.LegalBefore ⟨.lineComment, ['/', '/', '"']⟩ ['\n'] :=
    .lineComment (by decide) (stops_cons_iff.2 rfl)
  have hlexemes : lexemes "a/ //\"\n".toList = [⟨.identifier "a", ['a']⟩, ⟨.unknown, ['/']⟩,
      ⟨.whitespace, [' ']⟩, ⟨.lineComment, ['/', '/', '"']⟩, ⟨.newline, ['\n']⟩] := by
    refine (lexemes_append hname).trans (congrArg _ ?_)
    refine (lexemes_append hslash).trans (congrArg _ ?_)
    refine (lexemes_append hspace).trans (congrArg _ ?_)
    refine (lexemes_append hcomment).trans (congrArg _ ?_)
    rw [lexemes_newline, lexemes]
  have hcommentBlank : Relaid [⟨.lineComment, ['/', '/', '"']⟩, ⟨.newline, ['\n']⟩]
      ([' ', ' '] ++ ['\n']) := .replace rfl (List.cons_ne_nil _ _) (by simp) (.keep rfl .nil)
  have hrelaid : Relaid (lexemes "a/ //\"\n".toList) "a/\t  \n".toList := by
    rw [hlexemes]
    exact .keep rfl (.keep rfl (.replace rfl (List.cons_ne_nil '\t' []) (by simp) hcommentBlank))
  rw [← map_lexemeIn_tokenize] at hrelaid
  refine ⟨hrelaid, (layout_never_matters hrelaid).1.trans ?_⟩
  rw [map_lexemeIn_filter_tokenize, meaningful, hlexemes]
  rfl

end ProtocolMocks
