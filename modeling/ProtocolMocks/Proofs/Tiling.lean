import Mathlib.Logic.ExistsUnique
import ProtocolMocks.Proofs.Lexical

/-!
# Tokens tile the source

`Tiling` says what it means to cut a text into legal tokens that lie end to end. Every text has
exactly one tiling, and `tokenize` finds it: each of its tokens stands for the slice at its span,
by a rule that also looks at what follows the slice.
-/

namespace ProtocolMocks

open Token

/-- A token at a byte offset, with the span that its text takes up. -/
def Lexeme.locatedAt (l : Lexeme) (offset : Nat) : Located Token :=
  ⟨l.token, ⟨offset, offset + byteLength l.text⟩⟩

/-- Tokens that lie end to end from a byte offset, each legal before all that follows it. -/
inductive Tiling : Nat → List Char → List (Located Token) → Prop
  | nil (offset : Nat) : Tiling offset [] []
  | cons {offset rest tokens} {l : Lexeme} : l.LegalBefore rest →
      Tiling (offset + byteLength l.text) rest tokens →
      Tiling offset (l.text ++ rest) (l.locatedAt offset :: tokens)

/-- A word has a first character. -/
theorem Shape.exists_eq_cons {start part : Char → Bool} {text : List Char}
    (h : Shape start part text) : ∃ c cs, text = c :: cs := by
  cases text with
  | nil => exact h.elim
  | cons c cs => exact ⟨c, cs, rfl⟩

/-- A legal lexeme is never empty. -/
theorem Lexeme.LegalBefore.exists_text_eq_cons {l : Lexeme} {rest : List Char}
    (h : l.LegalBefore rest) : ∃ c cs, l.text = c :: cs := by
  cases h with
  | whitespace hshape | numberLiteral hshape => exact hshape.exists_eq_cons
  | keyword hkind => exact (shape_of_mem hkind).exists_eq_cons
  | identifier hplain => exact hplain.shape.exists_eq_cons
  | _ => exact ⟨_, _, rfl⟩

/-- Tokens are read one after the other as long as each is legal before the rest. -/
theorem lexemes_append {l : Lexeme} {rest : List Char} (h : l.LegalBefore rest) :
    lexemes (l.text ++ rest) = l :: lexemes rest := by
  obtain ⟨c, cs, htext⟩ := h.exists_text_eq_cons
  have hscan : scan c (cs ++ rest) = (l, rest) := by
    rw [scan_eq_iff, htext]
    exact ⟨rfl, h⟩
  rw [htext, List.cons_append, lexemes, hscan]

/-- The tokens of a text without their places. -/
def tokensOf (cs : List Char) : List Token := (lexemes cs).map Lexeme.token

/-- A legal lexeme is the first token of a text that starts with it. -/
theorem tokensOf_append {l : Lexeme} {rest : List Char} (h : l.LegalBefore rest) :
    tokensOf (l.text ++ rest) = l.token :: tokensOf rest := by
  rw [tokensOf, lexemes_append h, List.map_cons, tokensOf]

/-- Located lexemes have the tokens of the lexemes. -/
theorem map_value_locate (offset : Nat) (ls : List Lexeme) :
    (locate offset ls).map Located.value = ls.map Lexeme.token := by
  induction ls generalizing offset with
  | nil => rfl
  | cons l ls ih => rw [locate, List.map_cons, List.map_cons, ih]

/-- The lexemes of a text tile it. -/
theorem tiling_locate_lexemes (cs : List Char) (offset : Nat) :
    Tiling offset cs (locate offset (lexemes cs)) := by
  fun_induction lexemes cs generalizing offset with
  | case1 => exact .nil offset
  | case2 c cs ih =>
    have hrest := ih (offset + byteLength (scan c cs).1.text)
    have htiling := Tiling.cons (legalBefore_scan c cs) hrest
    rw [scan_text_append] at htiling
    exact htiling

/-- Any tiling of a text is made up of its lexemes. -/
theorem Tiling.eq_locate_lexemes {offset : Nat} {cs : List Char} {tokens : List (Located Token)}
    (h : Tiling offset cs tokens) : tokens = locate offset (lexemes cs) := by
  induction h with
  | nil => rw [lexemes, locate]
  | cons hlegal _ ih => rw [lexemes_append hlegal, locate, ih]; rfl

/-- Every text has exactly one tiling. -/
theorem tiling_iff_eq_locate_lexemes {offset : Nat} {cs : List Char}
    {tokens : List (Located Token)} :
    Tiling offset cs tokens ↔ tokens = locate offset (lexemes cs) := by
  constructor
  · exact Tiling.eq_locate_lexemes
  · rintro rfl
    exact tiling_locate_lexemes cs offset

/-- Each token of a tiling is legal at its place in the text. -/
theorem Tiling.exists_split {offset : Nat} {cs : List Char} {tokens : List (Located Token)}
    (h : Tiling offset cs tokens) {token : Located Token} (htoken : token ∈ tokens) :
    ∃ before text after, cs = before ++ text ++ after ∧
      token.span = ⟨offset + byteLength before, offset + byteLength (before ++ text)⟩ ∧
      Lexeme.LegalBefore ⟨token.value, text⟩ after := by
  induction h with
  | nil => cases htoken
  | @cons offset rest tokens l hlegal _ ih =>
    rcases List.mem_cons.1 htoken with rfl | hlater
    · exact ⟨[], l.text, rest, rfl, rfl, hlegal⟩
    · obtain ⟨before, text, after, rfl, hspan, hafter⟩ := ih hlater
      refine ⟨l.text ++ before, text, after, by simp, ?_, hafter⟩
      rw [hspan]
      simp only [byteLength_append, Nat.add_assoc]

/-- No text has two readings of its front, and only the empty text has none. -/
theorem existsUnique_legal_front {text : List Char} (h : text ≠ []) :
    ∃! front : Lexeme × List Char,
      front.1.text ++ front.2 = text ∧ front.1.LegalBefore front.2 := by
  cases text with
  | nil => exact absurd rfl h
  | cons c cs =>
    refine ⟨scan c cs, scan_eq_iff.1 rfl, ?_⟩
    rintro ⟨l, rest⟩ hfront
    exact (scan_eq_iff.2 hfront).symm

/-- Every token is legal at the place where its span lies, the tokens are the only ones that tile
the source so, and the rules leave exactly one reading of the front of any text. -/
theorem tokenize_lexically_exact (source : String) :
    (∀ token ∈ tokenize source, ∃ before text after, source.toList = before ++ text ++ after ∧
      token.span = ⟨byteLength before, byteLength (before ++ text)⟩ ∧
      Lexeme.LegalBefore ⟨token.value, text⟩ after) ∧
    (∀ tokens, Tiling 0 source.toList tokens ↔ tokens = tokenize source) ∧
    ∀ text : List Char, text ≠ [] → ∃! front : Lexeme × List Char,
      front.1.text ++ front.2 = text ∧ front.1.LegalBefore front.2 := by
  refine ⟨?_, ?_, ?_⟩
  · intro token htoken
    have htiling := tiling_locate_lexemes source.toList 0
    obtain ⟨before, text, after, hsource, hspan, hlegal⟩ := htiling.exists_split htoken
    refine ⟨before, text, after, hsource, ?_, hlegal⟩
    rw [hspan, Nat.zero_add, Nat.zero_add]
  · intro tokens
    exact tiling_iff_eq_locate_lexemes
  · intro text htext
    exact existsUnique_legal_front htext

/-- A keyword up to an arrow, and a string that a backslash at the end keeps from closing. -/
theorem tokenize_func_arrow_openString :
    tokenize "func->\"a\\" = [⟨.func, 0, 4⟩, ⟨.arrow, 4, 6⟩, ⟨.unknown, 6, 8⟩, ⟨.unknown, 8, 9⟩] ∧
      ∃ before text after, "func->\"a\\".toList = before ++ text ++ after ∧
        (⟨0, 4⟩ : Span) = ⟨byteLength before, byteLength (before ++ text)⟩ ∧
        Lexeme.LegalBefore ⟨.func, text⟩ after := by
  have hfunc : ("func", Token.func) ∈ keywords := by decide
  have hbackslash : Ruleless '\\' :=
    ⟨by decide, by decide, by decide, by decide, by decide, by simp [punctuation]⟩
  have hbody : StringBody ['a'] := .plain (by decide) (by decide) (by decide) .nil
  have htiling : Tiling 0 "func->\"a\\".toList
      [⟨.func, 0, 4⟩, ⟨.arrow, 4, 6⟩, ⟨.unknown, 6, 8⟩, ⟨.unknown, 8, 9⟩] :=
    .cons (.keyword hfunc (stops_cons_iff.2 rfl)) (.cons (.arrow _)
      (.cons (.openString hbody .backslashAtEnd)
        (.cons (.stray (.ruleless [] hbackslash)) (.nil 9))))
  have htokens := ((tokenize_lexically_exact "func->\"a\\").2.1 _).1 htiling
  have hmem : ⟨.func, 0, 4⟩ ∈ tokenize "func->\"a\\" := by
    rw [← htokens]
    exact List.mem_cons_self
  exact ⟨htokens.symm, (tokenize_lexically_exact "func->\"a\\").1 _ hmem⟩

end ProtocolMocks
