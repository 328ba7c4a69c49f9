import ProtocolMocks.Proofs.Partition

/-!
# Lexing is local to lines

What follows a line break token has no part in how the text before it is read. A string stops at the
end of its line, a comment that is never closed would have taken the line break too, and every other
token looks no further than at the character behind it. So the tokens of a source that ends in a
line break stay the same when more text is added, and those of the added text only move. Each line
break token of a source is therefore a place to cut it.
-/

namespace ProtocolMocks

open Token

/-- The span of the same bytes behind a text of the given length. -/
def Span.shift (span : Span) (offset : Nat) : Span := ⟨offset + span.start, offset + span.stop⟩

/-- The same value behind a text of the given length. -/
def Located.shift {α : Type} (token : Located α) (offset : Nat) : Located α :=
  ⟨token.value, token.span.shift offset⟩

@[simp] theorem Located.value_shift {α : Type} (token : Located α) (offset : Nat) :
    (token.shift offset).value = token.value := rfl

@[simp] theorem Located.span_shift {α : Type} (token : Located α) (offset : Nat) :
    (token.shift offset).span = token.span.shift offset := rfl

/-- Tokens further on have the same values. -/
theorem map_value_map_shift {α : Type} (tokens : List (Located α)) (offset : Nat) :
    (tokens.map (·.shift offset)).map Located.value = tokens.map Located.value := by
  rw [List.map_map]
  rfl

/-- Lexemes further on are located further on. -/
theorem locate_add (offset more : Nat) (ls : List Lexeme) :
    locate (offset + more) ls = (locate more ls).map (·.shift offset) := by
  induction ls generalizing more with
  | nil => rfl
  | cons l ls ih =>
    rw [locate, locate, List.map_cons, Nat.add_assoc, ih]
    rfl

/-- Further lexemes are located behind the texts of the first ones. -/
theorem locate_append (offset : Nat) (ls ls' : List Lexeme) :
    locate offset (ls ++ ls') =
      locate offset ls ++ locate (offset + byteLength (ls.map Lexeme.text).flatten) ls' := by
  induction ls generalizing offset with
  | nil => rfl
  | cons l ls ih =>
    rw [List.cons_append, locate, locate, ih, List.map_cons, List.flatten_cons, byteLength_append,
      Nat.add_assoc, List.cons_append]

/-- The text of a line break token is a line break. -/
theorem Lexeme.LegalBefore.text_of_newline {l : Lexeme} {rest : List Char}
    (h : l.LegalBefore rest) (hl : l.token = .newline) : l.text = ['\n'] := by
  cases h with
  | newline => rfl
  | keyword hkind =>
    have hall : ∀ entry ∈ keywords, entry.2 ≠ .newline := by decide
    exact absurd hl (hall _ hkind)
  | punctuation _ hkind =>
    have hall : ∀ entry ∈ Token.punctuation, entry.2 ≠ .newline := by decide
    exact absurd hl (hall _ hkind)
  | _ => cases hl

/-- Each lexeme of a text is legal before what follows it. -/
theorem exists_legalBefore_of_mem_lexemes {cs : List Char} {l : Lexeme} (h : l ∈ lexemes cs) :
    ∃ rest, l.LegalBefore rest := by
  fun_induction lexemes cs with
  | case1 => cases h
  | case2 c cs ih =>
    rcases List.mem_cons.1 h with rfl | hlater
    · exact ⟨_, legalBefore_scan c cs⟩
    · exact ih hlater

/-- If the last token is a line break, so is the last character. -/
theorem getLast?_of_getLast?_lexemes {cs : List Char} {l : Lexeme}
    (h : (lexemes cs).getLast? = some l) (hl : l.token = .newline) : cs.getLast? = some '\n' := by
  obtain ⟨front, hfront⟩ := List.getLast?_eq_some_iff.1 h
  have hmem : l ∈ lexemes cs := by simp [hfront]
  obtain ⟨rest, hlegal⟩ := exists_legalBefore_of_mem_lexemes hmem
  have hcs := flatten_lexemes cs
  rw [hfront, List.map_append, List.flatten_append] at hcs
  simp [← hcs, hlegal.text_of_newline hl]

/-- Neither the end of the text nor a backslash at the end keeps a string from closing here. -/
theorem BreaksOff.append {rest : List Char} (h : BreaksOff rest)
    (hlast : rest.getLast? = some '\n') (more : List Char) : BreaksOff (rest ++ more) := by
  cases h with
  | atEnd => cases hlast
  | atNewline rest => exact .atNewline (rest ++ more)
  | backslashAtEnd => simp at hlast
  | backslashAtNewline rest => exact .backslashAtNewline (rest ++ more)

/-- What keeps a string from closing lies in front of the last line break. -/
theorem BreaksOff.of_append {rest more : List Char} (h : BreaksOff (rest ++ more))
    (hlast : rest.getLast? = some '\n') : BreaksOff rest := by
  match rest with
  | [] => cases hlast
  | [c] =>
    obtain rfl : c = '\n' := Option.some.inj hlast
    exact .atNewline []
  | c :: d :: rest =>
    rw [List.cons_append, List.cons_append] at h
    cases h with
    | atNewline => exact .atNewline (d :: rest)
    | backslashAtNewline => exact .backslashAtNewline rest

/-- Of what follows a lexeme the rules look at the first character, and behind a string that is not
closed at what keeps it from closing. -/
theorem Lexeme.LegalBefore.of_head?_eq {l : Lexeme} {rest text : List Char} (h : l.LegalBefore rest)
    (hhead : text.head? = rest.head?) (hbreaks : BreaksOff rest → BreaksOff text) :
    l.LegalBefore text := by
  have hstops : ∀ inClass, Stops inClass rest → Stops inClass text := by
    intro inClass hrest
    rwa [Stops, hhead]
  cases h with
  | whitespace hshape hrest => exact .whitespace hshape (hstops _ hrest)
  | newline => exact .newline _
  | lineComment hbody hrest => exact .lineComment hbody (hstops _ hrest)
  | closedComment _ hinside => exact .closedComment _ hinside
  | openComment hinside =>
    obtain rfl := List.head?_eq_none_iff.1 hhead
    exact .openComment hinside
  | stringLiteral _ hbody => exact .stringLiteral _ hbody
  | numberLiteral hshape hrest => exact .numberLiteral hshape (hstops _ hrest)
  | keyword hkind hrest => exact .keyword hkind (hstops _ hrest)
  | identifier hplain hrest => exact .identifier hplain (hstops _ hrest)
  | atName hshape hrest => exact .atName hshape (hstops _ hrest)
  | arrow => exact .arrow _
  | punctuation _ hkind => exact .punctuation _ hkind
  | stray hstray =>
    refine .stray ?_
    cases hstray with
    | slash hrest => exact .slash (hhead ▸ hrest)
    | atSign hrest => exact .atSign (hstops _ hrest)
    | hyphen hrest => exact .hyphen (hhead ▸ hrest)
    | ruleless _ hc => exact .ruleless _ hc
  | openString hbody hrest => exact .openString hbody (hbreaks hrest)

/-- Where a text ends in a line break, what follows does not matter to a lexeme in front of it. -/
theorem Lexeme.legalBefore_append_iff {l : Lexeme} {rest : List Char}
    (hlast : rest.getLast? = some '\n') (more : List Char) :
    l.LegalBefore (rest ++ more) ↔ l.LegalBefore rest := by
  have hne : rest ≠ [] := by
    rintro rfl
    cases hlast
  have hhead : (rest ++ more).head? = rest.head? := List.head?_append_of_ne_nil _ hne
  exact ⟨fun h => h.of_head?_eq hhead.symm (·.of_append hlast),
    fun h => h.of_head?_eq hhead (·.append hlast more)⟩

/-- Behind a line break token the lexemes of more text follow. The induction is on the lexemes, down
to the last one, which is the line break. -/
theorem lexemes_append_of_getLast? {cs : List Char}
    (h : ∀ l ∈ (lexemes cs).getLast?, l.token = .newline) (more : List Char) :
    lexemes (cs ++ more) = lexemes cs ++ lexemes more := by
  fun_induction lexemes cs with
  | case1 => rfl
  | case2 c cs ih =>
    have hlegal := legalBefore_scan c cs
    have htext := scan_text_append c cs
    generalize (scan c cs).1 = l at hlegal htext h
    generalize (scan c cs).2 = rest at hlegal htext h ih
    cases hrest : (lexemes rest).getLast? with
    | none =>
      obtain rfl : rest = [] := by
        have hflatten := flatten_lexemes rest
        rwa [List.getLast?_eq_none_iff.1 hrest, List.map_nil, List.flatten_nil, eq_comm]
          at hflatten
      rw [lexemes] at h
      have hnewline := h l rfl
      have hl : l = ⟨.newline, ['\n']⟩ := by
        rw [← hnewline, ← hlegal.text_of_newline hnewline]
      rw [← htext, List.append_nil, hl, lexemes]
      exact lexemes_append (.newline more)
    | some last =>
      have hlast : last.token = .newline := by
        refine h last ?_
        rw [List.getLast?_cons, hrest]
        rfl
      have hmore := ih fun l hl => by
        rw [hrest, Option.mem_some_iff] at hl
        rw [← hl, hlast]
      have hlegalMore := (Lexeme.legalBefore_append_iff
        (getLast?_of_getLast?_lexemes hrest hlast) more).2 hlegal
      rw [← htext, List.append_assoc, lexemes_append hlegalMore, hmore, List.cons_append]

/-- The source is empty, or its last token is a line break. -/
def EndsLine (source : String) : Prop :=
  source = "" ∨ (tokenize source).getLast?.map Located.value = some .newline

/-- A source with a whole last line ends with a line break token. -/
theorem EndsLine.token_of_mem_getLast? {source : String} (h : EndsLine source) :
    ∀ l ∈ (lexemes source.toList).getLast?, l.token = .newline := by
  intro l hl
  rcases h with rfl | hlast
  · rw [String.toList_empty, lexemes] at hl
    cases hl
  · have hmap := congrArg List.getLast? (map_value_locate 0 (lexemes source.toList))
    rw [List.getLast?_map, List.getLast?_map, ← tokenize, hlast, Option.mem_def.1 hl] at hmap
    exact (Option.some.inj hmap).symm

/-- Behind a source that ends in a line break, any source has its tokens, moved. -/
theorem tokenize_append {front : String} (h : EndsLine front) (back : String) :
    tokenize (front ++ back) =
      tokenize front ++ (tokenize back).map (·.shift front.utf8ByteSize) := by
  have hlexemes := lexemes_append_of_getLast? h.token_of_mem_getLast? back.toList
  rw [tokenize, String.toList_append, hlexemes, locate_append, flatten_lexemes,
    byteLength_toList, tokenize, tokenize, ← locate_add, Nat.zero_add, Nat.add_zero]

/-- The texts of lexemes can be cut behind any one of them. -/
theorem flatten_map_text_append_cons (front : List Lexeme) (l : Lexeme) (back : List Lexeme) :
    ((front ++ l :: back).map Lexeme.text).flatten =
      ((front ++ [l]).map Lexeme.text).flatten ++ (back.map Lexeme.text).flatten := by
  simp

/-- The lexemes up to a line break token are those of the text up to it. -/
theorem lexemes_upTo_newline {cs : List Char} {front back : List Lexeme} {l : Lexeme}
    (h : lexemes cs = front ++ l :: back) (hl : l.token = .newline) :
    lexemes ((front ++ [l]).map Lexeme.text).flatten = front ++ [l] := by
  have hmem : l ∈ lexemes cs := by
    rw [h]
    exact List.mem_append_right _ List.mem_cons_self
  obtain ⟨_, hlegal⟩ := exists_legalBefore_of_mem_lexemes hmem
  have htext := hlegal.text_of_newline hl
  clear hmem hlegal
  fun_induction lexemes cs generalizing front with
  | case1 => simp at h
  | case2 c cs ih =>
    cases front with
    | nil =>
      obtain rfl : l = ⟨.newline, ['\n']⟩ := by rw [← hl, ← htext]
      have hnewline := lexemes_append (.newline [])
      rw [lexemes] at hnewline
      exact hnewline
    | cons first front =>
      rw [List.cons_append] at h
      obtain ⟨rfl, hrest⟩ := List.cons.inj h
      have hlegal := legalBefore_scan c cs
      rw [← flatten_lexemes (scan c cs).2, hrest, flatten_map_text_append_cons] at hlegal
      have hlast : ((front ++ [l]).map Lexeme.text).flatten.getLast? = some '\n' := by
        simp [htext]
      have hfirst := lexemes_append ((Lexeme.legalBefore_append_iff hlast _).1 hlegal)
      rw [List.cons_append, List.map_cons, List.flatten_cons, hfirst, ih hrest]

/-- A located token stands behind the texts of the lexemes in front of it. -/
theorem exists_of_mem_locate {token : Located Token} {offset : Nat} {ls : List Lexeme}
    (h : token ∈ locate offset ls) :
    ∃ front l back, ls = front ++ l :: back ∧
      token = l.locatedAt (offset + byteLength (front.map Lexeme.text).flatten) := by
  induction ls generalizing offset with
  | nil => cases h
  | cons first ls ih =>
    rcases List.mem_cons.1 h with rfl | hlater
    · exact ⟨[], first, ls, rfl, rfl⟩
    · obtain ⟨front, l, back, rfl, rfl⟩ := ih hlater
      refine ⟨first :: front, l, back, rfl, ?_⟩
      rw [List.map_cons, List.flatten_cons, byteLength_append, Nat.add_assoc]

/-- Behind each of its line break tokens a source can be cut. -/
theorem exists_cut_of_newline {source : String} {token : Located Token}
    (h : token ∈ tokenize source) (hvalue : token.value = .newline) :
    ∃ front back, source = front ++ back ∧ EndsLine front ∧
      front.utf8ByteSize = token.span.stop := by
  obtain ⟨front, l, back, hlexemes, rfl⟩ := exists_of_mem_locate h
  have hsource := flatten_lexemes source.toList
  rw [hlexemes, flatten_map_text_append_cons] at hsource
  refine ⟨String.ofList ((front ++ [l]).map Lexeme.text).flatten,
    String.ofList (back.map Lexeme.text).flatten, ?_, .inr ?_, ?_⟩
  · rw [← String.ofList_append, hsource, String.ofList_toList]
  · rw [tokenize, String.toList_ofList, lexemes_upTo_newline hlexemes hvalue, ← List.getLast?_map,
      map_value_locate, List.map_append, List.map_singleton, List.getLast?_concat]
    exact congrArg some hvalue
  · rw [← byteLength_toList, String.toList_ofList, List.map_append, List.flatten_append,
      byteLength_append]
    simp [Lexeme.locatedAt]

/-- Behind a source that ends in a line break, any source has its tokens, moved. So every line break
token of a source is a place to cut it, and its lines can be read one by one. -/
theorem lexing_local_to_lines :
    (∀ front back : String, EndsLine front → tokenize (front ++ back) =
      tokenize front ++ (tokenize back).map (·.shift front.utf8ByteSize)) ∧
    ∀ source, ∀ token ∈ tokenize source, token.value = .newline →
      ∃ front back, source = front ++ back ∧ EndsLine front ∧
        front.utf8ByteSize = token.span.stop :=
  ⟨fun _ back hline => tokenize_append hline back,
    fun _ _ hmem hvalue => exists_cut_of_newline hmem hvalue⟩

/-- A string that is not closed on its line stays apart from a quote on the next, and a comment that
is never closed from what stands in front of it. -/
theorem openString_stays_on_line :
    EndsLine "\"é\\\n" ∧
    tokenize ("\"é\\\n" ++ "b\"") =
      [⟨.unknown, 0, 3⟩, ⟨.unknown, 3, 4⟩, ⟨.newline, 4, 5⟩, ⟨.identifier "b", 5, 6⟩,
        ⟨.unknown, 6, 7⟩] ∧
    ∃ front back, "a\n/*" = front ++ back ∧ EndsLine front ∧ front.utf8ByteSize = 2 := by
  have hline : EndsLine "\"é\\\n" := .inr (by decide +kernel)
  have hmem : ⟨.newline, 1, 2⟩ ∈ tokenize "a\n/*" := by decide +kernel
  refine ⟨hline, ?_, lexing_local_to_lines.2 "a\n/*" _ hmem rfl⟩
  rw [lexing_local_to_lines.1 _ _ hline]
  decide +kernel

end ProtocolMocks
