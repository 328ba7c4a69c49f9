import Mathlib.Data.String.Basic
import ProtocolMocks.Data.List
import ProtocolMocks.Proofs.Tiling

/-!
# Tokens partition the source

The spans of the tokens are non-empty, lie end to end from the first byte of the source to the last
and meet between two characters, so that the slices at the spans make up the source. Line breaks
are tokens of their own, unless a block comment holds them.
-/

namespace ProtocolMocks

open Token

/-- The part of a source that lies in a span. -/
def Span.slice (span : Span) (source : String) : String :=
  String.Pos.Raw.extract source ⟨span.start⟩ ⟨span.stop⟩

/-- A token together with its slice of a source. -/
def Located.lexemeIn (token : Located Token) (source : String) : Lexeme :=
  ⟨token.value, (token.span.slice source).toList⟩

/-- The slice that starts and ends with a part of a source is that part. -/
theorem toList_slice {before text after : List Char} {source : String}
    (h : source.toList = before ++ text ++ after) :
    (Span.slice ⟨byteLength before, byteLength (before ++ text)⟩ source).toList = text := by
  have hextract := String.extract_of_valid before text after
  rw [← h, String.ofList_toList, ← String.utf8ByteSize_ofList, ← String.utf8ByteSize_ofList,
    ← byteLength, ← byteLength, ← byteLength_append] at hextract
  rw [Span.slice, hextract, String.toList_ofList]

/-- The end of any front of a text is a position between two characters. -/
theorem isValid_byteLength {before after : List Char} {source : String}
    (h : source.toList = before ++ after) : String.Pos.Raw.IsValid source ⟨byteLength before⟩ := by
  rw [String.Pos.Raw.isValid_iff_exists_append]
  refine ⟨String.ofList before, String.ofList after, ?_, ?_⟩
  · rw [← String.ofList_append, ← h, String.ofList_toList]
  · rfl

/-- Located lexemes have their texts as slices of the source. -/
theorem map_lexemeIn_locate {before : List Char} {ls : List Lexeme} {source : String}
    (h : source.toList = before ++ (ls.map Lexeme.text).flatten) :
    (locate (byteLength before) ls).map (·.lexemeIn source) = ls := by
  induction ls generalizing before with
  | nil => rfl
  | cons l ls ih =>
    have hsplit : source.toList = before ++ l.text ++ (ls.map Lexeme.text).flatten := by
      rw [h, List.map_cons, List.flatten_cons, List.append_assoc]
    rw [locate, List.map_cons, ← byteLength_append, ih hsplit, Located.lexemeIn,
      toList_slice hsplit]

/-- The tokens with their slices are what was read. -/
theorem map_lexemeIn_tokenize (source : String) :
    (tokenize source).map (·.lexemeIn source) = lexemes source.toList := by
  have hflatten : source.toList = [] ++ ((lexemes source.toList).map Lexeme.text).flatten := by
    rw [flatten_lexemes, List.nil_append]
  exact map_lexemeIn_locate hflatten

/-- The slices of all tokens make up the source. -/
theorem join_slice_tokenize (source : String) :
    String.join ((tokenize source).map (·.span.slice source)) = source := by
  have htexts : (tokenize source).map (fun token => (token.span.slice source).toList) =
      (lexemes source.toList).map Lexeme.text := by
    rw [← map_lexemeIn_tokenize, List.map_map]
    rfl
  rw [← String.toList_inj, String.toList_join, List.flatMap_map, List.flatMap_def, htexts,
    flatten_lexemes]

/-- Non-empty spans that lie end to end between two offsets. -/
inductive Span.Chain : Nat → Nat → List Span → Prop
  | nil (offset : Nat) : Chain offset offset []
  | cons {start stop finish spans} : start < stop → Chain stop finish spans →
      Chain start finish (⟨start, stop⟩ :: spans)

/-- A legal lexeme takes up bytes. -/
theorem Lexeme.LegalBefore.byteLength_pos {l : Lexeme} {rest : List Char}
    (h : l.LegalBefore rest) : 0 < byteLength l.text := by
  obtain ⟨c, cs, htext⟩ := h.exists_text_eq_cons
  rw [htext, byteLength_cons]
  exact Nat.add_pos_left c.utf8Size_pos _

/-- The spans of a tiling lie end to end. -/
theorem Tiling.chain {offset : Nat} {cs : List Char} {tokens : List (Located Token)}
    (h : Tiling offset cs tokens) :
    Span.Chain offset (offset + byteLength cs) (tokens.map Located.span) := by
  induction h with
  | nil offset => exact .nil offset
  | cons hlegal _ ih =>
    rw [byteLength_append, ← Nat.add_assoc]
    exact .cons (Nat.lt_add_of_pos_right hlegal.byteLength_pos) ih

/-- Every token takes at least one character. -/
theorem Tiling.length_le {offset : Nat} {cs : List Char} {tokens : List (Located Token)}
    (h : Tiling offset cs tokens) : tokens.length ≤ cs.length := by
  induction h with
  | nil => exact Nat.le_refl 0
  | cons hlegal _ ih =>
    obtain ⟨c, text, htext⟩ := hlegal.exists_text_eq_cons
    rw [htext, List.length_cons, List.length_append, List.length_cons]
    omega

/-- The body of a string has no newline in it. -/
theorem StringBody.newline_not_mem {body : List Char} (h : StringBody body) : '\n' ∉ body := by
  induction h with
  | nil => exact List.not_mem_nil
  | plain _ _ hnewline _ ih => exact List.not_mem_cons_of_ne_of_not_mem hnewline.symm ih
  | escaped hnewline _ ih =>
    refine List.not_mem_cons_of_ne_of_not_mem (by decide) ?_
    exact List.not_mem_cons_of_ne_of_not_mem hnewline.symm ih

/-- A character that neither starts nor continues a word is not in it. -/
theorem Shape.not_mem {start part : Char → Bool} {text : List Char} {d : Char}
    (h : Shape start part text) (hstart : start d = false) (hpart : part d = false) :
    d ∉ text := by
  cases text with
  | nil => exact List.not_mem_nil
  | cons c cs =>
    refine List.not_mem_cons_of_ne_of_not_mem ?_ fun hmem => ?_
    · rintro rfl
      exact Bool.false_ne_true (hstart.symm.trans h.1)
    · exact Bool.false_ne_true (hpart.symm.trans (h.2 _ hmem))

theorem Stray.ne_newline {c : Char} {rest : List Char} (h : Stray c rest) : '\n' ≠ c := by
  cases h with
  | slash | atSign | hyphen => decide
  | ruleless _ hc => exact hc.not_newline.symm

/-- No token but a line break and a block comment has a line break in its text. -/
theorem Lexeme.LegalBefore.eq_newline_or_blockComment {l : Lexeme} {rest : List Char}
    (h : l.LegalBefore rest) (hmem : '\n' ∈ l.text) :
    l = ⟨.newline, ['\n']⟩ ∨ l.token = .blockComment := by
  cases h with
  | newline => exact .inl rfl
  | closedComment | openComment => exact .inr rfl
  | whitespace hshape _ => exact absurd hmem (hshape.not_mem (by decide) (by decide))
  | numberLiteral hshape _ => exact absurd hmem (hshape.not_mem (by decide) (by decide))
  | keyword hkind _ =>
    exact absurd hmem ((shape_of_mem hkind).not_mem (by decide) (by decide))
  | identifier hplain _ =>
    exact absurd hmem (hplain.shape.not_mem (by decide) (by decide))
  | atName hshape _ =>
    have hname : '\n' ∉ _ := hshape.not_mem (by decide) (by decide)
    exact absurd hmem (List.not_mem_cons_of_ne_of_not_mem (by decide) hname)
  | lineComment hbody _ => simp [hbody] at hmem
  | stringLiteral _ hbody => simp [hbody.newline_not_mem] at hmem
  | openString hbody _ => simp [hbody.newline_not_mem] at hmem
  | arrow => simp at hmem
  | stray hstray => exact absurd (List.mem_singleton.1 hmem) hstray.ne_newline
  | @punctuation c kind _ hkind =>
    have hall : ∀ entry ∈ Token.punctuation, '\n' ≠ entry.1 := by decide
    exact absurd (List.mem_singleton.1 hmem) (hall _ hkind)

/-- Every character of a text lies in a token. -/
theorem Tiling.exists_mem_around {offset : Nat} {front back : List Char} {c : Char}
    {tokens : List (Located Token)} (h : Tiling offset (front ++ c :: back) tokens) :
    ∃ token ∈ tokens, ∃ before inside behind after, front = before ++ inside ∧
      token.span = ⟨offset + byteLength before,
        offset + byteLength (before ++ (inside ++ c :: behind))⟩ ∧
      Lexeme.LegalBefore ⟨token.value, inside ++ c :: behind⟩ after := by
  generalize htext : front ++ c :: back = text at h
  induction h generalizing front with
  | nil => simp at htext
  | @cons offset rest tokens l hlegal _ ih =>
    rcases exists_of_append_eq_append_cons htext.symm with ⟨behind, hl, _⟩ | ⟨front', rfl, hrest⟩
    · refine ⟨l.locatedAt offset, List.mem_cons_self, [], front, behind, rest, rfl, ?_, ?_⟩
      · rw [← hl]
        rfl
      · rw [← hl]
        exact hlegal
    · obtain ⟨token, hmem, before, inside, behind, after, rfl, hspan, hafter⟩ := ih hrest.symm
      refine ⟨token, List.mem_cons_of_mem _ hmem, l.text ++ before, inside, behind, after,
        (List.append_assoc ..).symm, ?_, hafter⟩
      rw [hspan]
      simp only [byteLength_append, Nat.add_assoc]

/-- A line break is a token of its own or lies in a block comment. -/
theorem newline_mem_tokenize {source front back : String} (h : source = front ++ "\n" ++ back) :
    ⟨.newline, ⟨front.utf8ByteSize, front.utf8ByteSize + 1⟩⟩ ∈ tokenize source ∨
      ∃ token ∈ tokenize source, token.value = .blockComment ∧
        token.span.start ≤ front.utf8ByteSize ∧ front.utf8ByteSize < token.span.stop := by
  have htiling := tiling_locate_lexemes source.toList 0
  have htext : source.toList = front.toList ++ '\n' :: back.toList := by simp [h]
  rw [htext] at htiling
  obtain ⟨token, hmem, before, inside, behind, after, hfront, hspan, hlegal⟩ :=
    htiling.exists_mem_around
  rw [← htext] at hmem
  have hsize : front.utf8ByteSize = byteLength before + byteLength inside := by
    rw [← byteLength_toList, hfront, byteLength_append]
  rw [Nat.zero_add, Nat.zero_add] at hspan
  rcases hlegal.eq_newline_or_blockComment (by simp) with hnewline | hcomment
  · obtain ⟨hvalue, hsingle⟩ := Lexeme.mk.inj hnewline
    obtain ⟨rfl, rfl⟩ : inside = [] ∧ behind = [] := by
      cases inside <;> simp_all
    have htoken : token = ⟨.newline, ⟨byteLength before, byteLength before + 1⟩⟩ := by
      obtain ⟨value, span⟩ := token
      cases hvalue
      cases hspan
      rw [byteLength_append]
      rfl
    rw [hsize, byteLength_nil, Nat.add_zero, ← htoken]
    exact .inl hmem
  · refine .inr ⟨token, hmem, hcomment, ?_, ?_⟩
    · rw [hspan, hsize]
      exact Nat.le_add_right _ _
    · have hpos := Char.utf8Size_pos '\n'
      simp only [hspan, hsize, byteLength_append, byteLength_cons]
      omega

/-- A list of tokens with their spans cuts a source into parts. -/
structure Partitions (source : String) (tokens : List (Located Token)) : Prop where
  /-- The spans are non-empty and lie end to end from the first byte to the last. -/
  chain : Span.Chain 0 source.utf8ByteSize (tokens.map Located.span)
  /-- They end between two characters. -/
  boundary : ∀ token ∈ tokens, String.Pos.Raw.IsValid source ⟨token.span.stop⟩
  /-- Their slices make up the source. -/
  join_slices : String.join (tokens.map (·.span.slice source)) = source
  /-- No slice has a line break in it but those of line breaks themselves and of block comments. -/
  oneLine : ∀ token ∈ tokens, '\n' ∈ (token.span.slice source).toList →
    (token.value = .newline ∧ token.span.slice source = "\n") ∨ token.value = .blockComment
  /-- Every line break is a token of its own or lies in a block comment. -/
  newlines : ∀ front back, source = front ++ "\n" ++ back →
    ⟨.newline, ⟨front.utf8ByteSize, front.utf8ByteSize + 1⟩⟩ ∈ tokens ∨
      ∃ token ∈ tokens, token.value = .blockComment ∧
        token.span.start ≤ front.utf8ByteSize ∧ front.utf8ByteSize < token.span.stop
  /-- There are at most as many tokens as characters. -/
  length_le : tokens.length ≤ source.length

/-- The tokens of every source partition it. -/
theorem tokenize_partitions (source : String) : Partitions source (tokenize source) := by
  have htiling := tiling_locate_lexemes source.toList 0
  refine ⟨?_, ?_, join_slice_tokenize source, ?_, fun _ _ => newline_mem_tokenize, ?_⟩
  · have hchain := htiling.chain
    rwa [Nat.zero_add, byteLength_toList] at hchain
  · intro token htoken
    obtain ⟨before, text, after, hsource, hspan, _⟩ := htiling.exists_split htoken
    rw [hspan, Nat.zero_add, Nat.zero_add]
    exact isValid_byteLength hsource
  · intro token htoken hmem
    obtain ⟨before, text, after, hsource, hspan, hlegal⟩ := htiling.exists_split htoken
    rw [Nat.zero_add, Nat.zero_add] at hspan
    have hslice := toList_slice hsource
    rw [← hspan] at hslice
    rw [hslice] at hmem
    refine (hlegal.eq_newline_or_blockComment hmem).imp_left fun hnewline => ?_
    obtain ⟨hvalue, rfl⟩ := Lexeme.mk.inj hnewline
    exact ⟨hvalue, String.toList_inj.1 hslice⟩
  · have hlength := htiling.length_le
    rwa [String.length_toList] at hlength

/-- A character of two bytes, a string that a line break cuts off and a comment that never ends. -/
theorem partitions_unclosed :
    tokenize "é\n\"a\n/*\n" = [⟨.unknown, 0, 2⟩, ⟨.newline, 2, 3⟩, ⟨.unknown, 3, 5⟩,
      ⟨.newline, 5, 6⟩, ⟨.blockComment, 6, 9⟩] ∧
      Partitions "é\n\"a\n/*\n" [⟨.unknown, 0, 2⟩, ⟨.newline, 2, 3⟩, ⟨.unknown, 3, 5⟩,
        ⟨.newline, 5, 6⟩, ⟨.blockComment, 6, 9⟩] := by
  have hletter : Ruleless 'é' :=
    ⟨by decide, by decide, by decide, by decide, by decide, by simp [punctuation]⟩
  have hbody : StringBody ['a'] := .plain (by decide) (by decide) (by decide) .nil
  have hcomment : Lexeme.LegalBefore ⟨.blockComment, ['/', '*', '\n']⟩ [] :=
    .openComment (by decide)
  have htiling : Tiling 0 "é\n\"a\n/*\n".toList
      [⟨.unknown, 0, 2⟩, ⟨.newline, 2, 3⟩, ⟨.unknown, 3, 5⟩, ⟨.newline, 5, 6⟩,
        ⟨.blockComment, 6, 9⟩] :=
    .cons (.stray (.ruleless _ hletter)) (.cons (.newline _)
      (.cons (.openString hbody (.atNewline _)) (.cons (.newline _)
        (.cons hcomment (.nil 9)))))
  have htokens := tiling_iff_eq_locate_lexemes.1 htiling
  have hpartitions := tokenize_partitions "é\n\"a\n/*\n"
  rw [tokenize, ← htokens] at hpartitions
  exact ⟨htokens.symm, hpartitions⟩

end ProtocolMocks
