import ProtocolMocks.Proofs.Tiling

/-!
# Reading a piece of a text

A piece of a text shows tokens if the lexer cuts it off from the rest and finds these tokens in it,
spacing aside. Pieces that show tokens are put together without another look at the lexer. What it
asks of the text behind a piece is that this text does not continue the last word or the last run of
blanks.
-/

namespace ProtocolMocks

open Token

/-- Blanks and line breaks. -/
def Token.isSpacing : Token → Bool
  | .whitespace | .newline => true
  | _ => false

/-- In front of the rest the text is read as the given tokens with spacing between them. -/
def Shows (text : List Char) (shown : List Token) (rest : List Char) : Prop :=
  ∃ tokens, tokensOf (text ++ rest) = tokens ++ tokensOf rest ∧
    tokens.filter (!·.isSpacing) = shown

/-- An empty text shows no tokens. -/
theorem shows_nil (rest : List Char) : Shows [] [] rest := ⟨[], rfl, rfl⟩

/-- What two texts show in front of what follows them, they show next to each other. -/
theorem Shows.append {text text' rest : List Char} {shown shown' : List Token}
    (h : Shows text shown (text' ++ rest)) (h' : Shows text' shown' rest) :
    Shows (text ++ text') (shown ++ shown') rest := by
  obtain ⟨tokens, htokens, rfl⟩ := h
  obtain ⟨tokens', htokens', rfl⟩ := h'
  refine ⟨tokens ++ tokens', ?_, List.filter_append ..⟩
  rw [List.append_assoc, htokens, htokens', List.append_assoc]

section

variable {rest : List Char}

/-- A legal lexeme shows its token, unless that is spacing. -/
theorem shows_of_legalBefore {l : Lexeme} (h : l.LegalBefore rest) :
    Shows l.text ([l.token].filter (!·.isSpacing)) rest :=
  ⟨[l.token], tokensOf_append h, rfl⟩

/-- A plain identifier shows itself in front of anything that does not continue it. -/
theorem shows_name {name : String} (h : PlainIdentifier name)
    (hrest : Stops isIdentifierPart rest) : Shows name.toList [.identifier name] rest :=
  shows_of_legalBefore (.identifier h hrest)

/-- A keyword shows its kind in front of anything that does not continue the word. -/
theorem shows_keyword (word : String) (kind : Token) (h : (word, kind) ∈ keywords)
    (hrest : Stops isIdentifierPart rest) : Shows word.toList [kind] rest := by
  have hall : ∀ entry ∈ keywords, entry.2.isSpacing = false := by decide
  have hshown := shows_of_legalBefore (.keyword h hrest)
  rwa [List.filter_cons_of_pos (by simp [hall _ h])] at hshown

/-- A punctuation mark shows its kind in front of anything. -/
theorem shows_mark (c : Char) (kind : Token) (h : (c, kind) ∈ punctuation) (rest : List Char) :
    Shows [c] [kind] rest := by
  have hall : ∀ entry ∈ punctuation, entry.2.isSpacing = false := by decide
  have hshown := shows_of_legalBefore (.punctuation rest h)
  rwa [List.filter_cons_of_pos (by simp [hall _ h])] at hshown

/-- An arrow shows itself in front of anything. -/
theorem shows_arrow (rest : List Char) : Shows ['-', '>'] [.arrow] rest :=
  shows_of_legalBefore (.arrow rest)

/-- A line break shows no tokens. -/
theorem shows_newline (rest : List Char) : Shows ['\n'] [] rest :=
  shows_of_legalBefore (.newline rest)

/-- A run of blanks shows no tokens in front of anything that does not go on with blanks. -/
theorem shows_blanks {blanks : List Char} (h : ∀ c ∈ blanks, isBlank c = true)
    (hrest : Stops isBlank rest) : Shows blanks [] rest := by
  cases blanks with
  | nil => exact shows_nil rest
  | cons c blanks =>
    have hshape : Shape isBlank isBlank (c :: blanks) := List.forall_mem_cons.1 h
    exact shows_of_legalBefore (.whitespace hshape hrest)

/-- A single space is such a run. -/
theorem shows_space (hrest : Stops isBlank rest) : Shows [' '] [] rest :=
  shows_blanks (List.forall_mem_singleton.2 rfl) hrest

/-- A word is not blank in front, whatever follows it. -/
theorem Shape.stops_isBlank {word : List Char} (h : Shape isIdentifierStart isIdentifierPart word)
    (rest : List Char) : Stops isBlank (word ++ rest) := by
  cases word with
  | nil => exact h.elim
  | cons c word =>
    rw [List.cons_append, stops_cons_iff]
    exact (not_isBlank_of_isIdentifierPart (isIdentifierPart_of_isIdentifierStart h.1)).1

end

end ProtocolMocks
