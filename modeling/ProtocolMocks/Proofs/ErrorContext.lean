import ProtocolMocks.Source
import ProtocolMocks.Proofs.Excerpt
import ProtocolMocks.Proofs.Regions
import ProtocolMocks.Proofs.ViablePrefix

/-!
# The lines around an error

The span of an error lies in the source and meets it between characters, so an excerpt around it can
always be shown. Structural tokens hold no end of line. The excerpt therefore marks the line that
holds the offending token, or the last structural token if the source ends too early, and the number
in front of it counts the newlines before the error.
-/

namespace ProtocolMocks

open Token Declaration

/-- A structural token has its place from a token of the same kind and text. -/
theorem mem_of_mem_structuralTokensFrom {scope : Scope} {tokens : List (Located Token)}
    {token : Located StructuralToken} (h : token ∈ structuralTokensFrom scope tokens) :
    ⟨token.value.toToken, token.span⟩ ∈ tokens := by
  induction tokens generalizing scope with
  | nil => cases h
  | cons first tokens ih =>
    rw [structuralTokensFrom_cons, List.mem_append, Option.mem_toList,
      Scope.keep?_eq_some_iff] at h
    rcases h with ⟨-, rfl⟩ | hlater
    · exact List.mem_cons_self
    · exact List.mem_cons_of_mem _ (ih hlater)

/-- Structural tokens lie within a line. -/
theorem Lexeme.LegalBefore.no_end_of_line {l : Lexeme} {rest : List Char} (h : l.LegalBefore rest)
    {s : StructuralToken} (hs : StructuralToken.ofToken? l.token = some s) :
    ∀ c ∈ l.text, c ≠ '\n' ∧ c ≠ '\r' := by
  have hword : ∀ text, Shape isIdentifierStart isIdentifierPart text →
      ∀ c ∈ text, c ≠ '\n' ∧ c ≠ '\r' := by
    intro text hshape c hc
    constructor
    · rintro rfl
      exact hshape.not_mem (by decide) (by decide) hc
    · rintro rfl
      exact hshape.not_mem (by decide) (by decide) hc
  cases h with
  | keyword hkind => exact hword _ (shape_of_mem hkind)
  | identifier hplain => exact hword _ hplain.shape
  | arrow => simp
  | @punctuation c _ _ hkind =>
    have hall : ∀ entry ∈ Token.punctuation, entry.1 ≠ '\n' ∧ entry.1 ≠ '\r' := by decide
    exact List.forall_mem_singleton.2 (hall _ hkind)
  | _ => cases hs

/-- A structural token of a source is a slice of it without an end of line. -/
theorem Source.exists_split_of_mem_structuralTokens {source : String}
    {token : Located StructuralToken} (h : token ∈ structuralTokens source) :
    ∃ before text after, source.toList = before ++ text ++ after ∧ text ≠ [] ∧
      token.span = ⟨byteLength before, byteLength (before ++ text)⟩ ∧
      ∀ c ∈ text, c ≠ '\n' ∧ c ≠ '\r' := by
  have hmem := mem_of_mem_structuralTokensFrom h
  obtain ⟨before, text, after, hsource, hspan, hlegal⟩ :=
    (tiling_locate_lexemes source.toList 0).exists_split hmem
  obtain ⟨c, cs, htext⟩ := hlegal.exists_text_eq_cons
  refine ⟨before, text, after, hsource, ?_, ?_, ?_⟩
  · rw [show text = c :: cs from htext]
    exact List.cons_ne_nil c cs
  · simpa using hspan
  · exact hlegal.no_end_of_line (StructuralToken.ofToken?_toToken token.value)

/-- The error is about a token of the stream, or about its end, which is that of the last token. -/
inductive GrammarError.About (err : GrammarError) (stream : StructuralStream) :
    Located StructuralToken → Prop
  | found {token} : token ∈ stream → err.found = some token.value → err.span = token.span →
      About err stream token
  | atEnd {token} : stream.getLast? = some token → err.found = none →
      err.span = ⟨token.span.stop, token.span.stop⟩ → About err stream token

/-- Every error is about a token of the stream, the one that was found or the last one. -/
theorem exists_about_of_error {stream : StructuralStream} {err : GrammarError}
    (h : parseDeclarations stream = .error err) : ∃ token, err.About stream token := by
  obtain ⟨expected, rest, hdep, rfl⟩ := exists_departure_of_error h
  obtain ⟨taken, _, hsplit, _⟩ := Position.exists_walk_of_departure hdep
  cases rest with
  | cons token rest =>
    refine ⟨token, .found ?_ rfl rfl⟩
    rw [hsplit]
    exact List.mem_append_cons_self
  | nil =>
    cases hlast : stream.getLast? with
    | none =>
      rw [List.getLast?_eq_none_iff.1 hlast] at hdep
      cases hdep
    | some token => exact ⟨token, .atEnd hlast rfl (by simp [errorAt, endOffset, hlast])⟩

/-- What an error is about is a token of the stream. -/
theorem GrammarError.About.mem {err : GrammarError} {stream : StructuralStream}
    {token : Located StructuralToken} (h : err.About stream token) : token ∈ stream := by
  cases h with
  | found hmem => exact hmem
  | atEnd hlast => exact List.mem_of_getLast? hlast

/-- A span cuts a text between its characters. -/
structure Span.Cuts (span : Span) (text before upTo : List Char) : Prop where
  start : before <+: text
  stop : upTo <+: text
  eq : span = ⟨byteLength before, byteLength upTo⟩

/-- The ends of a span that cuts a source lie in the source and between characters. -/
theorem Span.Cuts.isValid {span : Span} {source : String} {before upTo : List Char}
    (h : span.Cuts source.toList before upTo) :
    ∀ offset ∈ [span.start, span.stop],
      offset ≤ source.utf8ByteSize ∧ String.Pos.Raw.IsValid source ⟨offset⟩ := by
  have hprefix : ∀ part, part <+: source.toList → byteLength part ≤ source.utf8ByteSize ∧
      String.Pos.Raw.IsValid source ⟨byteLength part⟩ := by
    rintro part ⟨rest, hrest⟩
    refine ⟨?_, isValid_byteLength hrest.symm⟩
    rw [← byteLength_toList, ← hrest, byteLength_append]
    omega
  intro offset hoffset
  rw [h.eq] at hoffset
  simp only [List.mem_cons, List.not_mem_nil, or_false] at hoffset
  rcases hoffset with rfl | rfl
  · exact hprefix before h.start
  · exact hprefix upTo h.stop

/-- An error lies in the source, and the newlines before it count the lines before the one that
holds the token. An error at the end of a token has as many before it as the start of the token. -/
theorem GrammarError.About.exists_line {err : GrammarError} {source : String}
    {token : Located StructuralToken} (h : err.About (Source.structuralTokens source) token) :
    ∃ before upTo front line back, err.span.Cuts source.toList before upTo ∧
      SourceContext.LineAt source.toList (before.count '\n') front line back ∧
      byteLength front ≤ token.span.start ∧ token.span.stop ≤ byteLength (front ++ line) := by
  obtain ⟨before, text, after, hsource, hne, hspan, htext⟩ :=
    Source.exists_split_of_mem_structuralTokens h.mem
  obtain ⟨front, head, tail, back, rfl, hline⟩ :=
    SourceContext.exists_lineAt before after hne htext
  rw [← hsource] at hline
  have hstart : front ++ head <+: source.toList := ⟨text ++ after, by rw [hsource]; simp⟩
  have hstop : front ++ head ++ text <+: source.toList := ⟨after, hsource.symm⟩
  have hin : byteLength front ≤ token.span.start ∧
      token.span.stop ≤ byteLength (front ++ (head ++ text ++ tail)) := by
    simp only [hspan, byteLength_append]
    omega
  cases h with
  | found _ _ herr => exact ⟨_, _, _, _, _, ⟨hstart, hstop, herr.trans hspan⟩, hline, hin⟩
  | atEnd _ _ herr =>
    have hcount : (front ++ head ++ text).count '\n' = (front ++ head).count '\n' := by
      rw [List.count_append, List.count_eq_zero.2 fun hmem => (htext _ hmem).1 rfl, Nat.add_zero]
    rw [← hcount] at hline
    refine ⟨_, _, _, _, _, ⟨hstop, hstop, ?_⟩, hline, hin⟩
    rw [herr, hspan]

/-- The excerpt around an offset has up to five rows and marks one, that of the line with the given
index. The newlines before the offset count the lines before that line. -/
structure SourceContext.Marks (source : String) (offset index : Nat) (line : List Char) : Prop where
  behind : ∃ before rest, source.toList = before ++ rest ∧ byteLength before = offset ∧
    before.count '\n' = index
  /-- The offset does not lie behind the last line. -/
  within : index < (lines source.toList).length
  shown : ∃ rows : List (List Char),
    render? source offset = some (String.ofList (rows.flatMap (· ++ ['\n']))) ∧
    (∀ r ∈ rows, '\n' ∉ r) ∧ 1 ≤ rows.length ∧ rows.length ≤ 5 ∧
    rows.filter IsMarked = [row index index line]

/-- An offset is marked by the line at which it stands. -/
theorem SourceContext.LineAt.marks {source : String} {before front line back : List Char}
    (h : LineAt source.toList (before.count '\n') front line back)
    (hbefore : before <+: source.toList) :
    Marks source (byteLength before) (before.count '\n') line := by
  obtain ⟨rest, hsource⟩ := hbefore
  obtain ⟨hlt, _⟩ := List.getElem?_eq_some_iff.1 h.listed
  refine ⟨⟨before, rest, hsource.symm, rfl, rfl⟩, hlt, rows _ (lines source.toList), ?_,
    fun _ => newline_not_mem_of_mem_rows, rows_of_getElem? h.listed⟩
  have htake : takeBytes? (byteLength before) source.toList = some before := by
    rw [← hsource]
    exact takeBytes?_byteLength before rest
  have hclamp : markedLine before (lines source.toList).length = before.count '\n' :=
    Nat.min_eq_left (Nat.le_sub_one_of_lt hlt)
  rw [render?, htake, Option.map_some]
  simp only [hclamp, excerpt_eq_flatMap_rows]

/-- An error of the grammar can be shown in its source. The excerpt marks the line with the
offending token, or with the last structural token if the source ends too early. -/
theorem error_context_marks_line {source : String} {err : GrammarError}
    (h : Source.declarations source = .error err) :
    (∀ offset ∈ [err.span.start, err.span.stop],
      offset ≤ source.utf8ByteSize ∧ String.Pos.Raw.IsValid source ⟨offset⟩) ∧
    ∃ token index front line back, err.About (Source.structuralTokens source) token ∧
      SourceContext.Marks source err.span.start index line ∧
      SourceContext.LineAt source.toList index front line back ∧
      byteLength front ≤ token.span.start ∧ token.span.stop ≤ byteLength (front ++ line) := by
  obtain ⟨token, habout⟩ := exists_about_of_error h
  obtain ⟨before, upTo, front, line, back, hcuts, hline, hin⟩ := habout.exists_line
  refine ⟨hcuts.isValid, token, _, front, line, back, habout, ?_, hline, hin⟩
  rw [show err.span.start = byteLength before from congrArg Span.start hcuts.eq]
  exact hline.marks hcuts.start

/-- The source ends after its second line, behind a two-byte character and carriage returns. -/
theorem openParameters_marks_second_line :
    Source.declarations "protocol P \x7b // é\r\n  func f(\r\n\n" =
      .error ⟨.argumentName, none, ⟨29, 29⟩⟩ ∧
    SourceContext.render? "protocol P \x7b // é\r\n  func f(\r\n\n" 29 =
      some "     1 | protocol P \x7b // é\n>>   2 |   func f(\n     3 | \n" ∧
    ∃ token index front line back,
      GrammarError.About ⟨.argumentName, none, ⟨29, 29⟩⟩
        (Source.structuralTokens "protocol P \x7b // é\r\n  func f(\r\n\n") token ∧
      SourceContext.Marks "protocol P \x7b // é\r\n  func f(\r\n\n" 29 index line ∧
      SourceContext.LineAt "protocol P \x7b // é\r\n  func f(\r\n\n".toList index front line back ∧
      byteLength front ≤ token.span.start ∧ token.span.stop ≤ byteLength (front ++ line) := by
  have hfails : Source.declarations "protocol P \x7b // é\r\n  func f(\r\n\n" =
      .error ⟨.argumentName, none, ⟨29, 29⟩⟩ := by decide +kernel
  exact ⟨hfails, by decide +kernel, (error_context_marks_line hfails).2⟩

end ProtocolMocks
