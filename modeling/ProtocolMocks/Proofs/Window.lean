import ProtocolMocks.Data.List
import ProtocolMocks.Proofs.Excerpt

/-!
# The window of an excerpt

An offset inside a character has no excerpt. Any other offset marks the line that the newlines in
front of it count, or the last line if there are fewer, and the excerpt shows the lines from two
before the marked one to two after it, as far as the text has them, each as it stands in the text.
-/

namespace ProtocolMocks.SourceContext

/-- The offset falls between two bytes of one character. -/
def InsideChar (offset : Nat) (text : List Char) : Prop :=
  ∃ before c after, text = before ++ c :: after ∧ byteLength before < offset ∧
    offset < byteLength before + c.utf8Size

theorem not_insideChar_nil (offset : Nat) : ¬ InsideChar offset [] := by
  rintro ⟨before, c, after, htext, -⟩
  cases before <;> cases htext

/-- An offset falls inside the first character or, seen from behind it, inside a later one. -/
theorem insideChar_cons_iff {offset : Nat} {c : Char} {cs : List Char} :
    InsideChar offset (c :: cs) ↔ (0 < offset ∧ offset < c.utf8Size) ∨
      (c.utf8Size ≤ offset ∧ InsideChar (offset - c.utf8Size) cs) := by
  constructor
  · rintro ⟨before, d, after, htext, hlt, hgt⟩
    cases before with
    | nil =>
      cases htext
      exact .inl ⟨hlt, by simpa using hgt⟩
    | cons b before =>
      cases htext
      rw [byteLength_cons] at hlt hgt
      exact .inr ⟨by omega, before, d, after, rfl, by omega, by omega⟩
  · rintro (⟨hpos, hlt⟩ | ⟨hle, before, d, after, rfl, hlt, hgt⟩)
    · exact ⟨[], c, cs, rfl, hpos, by simpa using hlt⟩
    · refine ⟨c :: before, d, after, rfl, ?_, ?_⟩ <;> rw [byteLength_cons] <;> omega

/-- An offset inside a character lies in the text. -/
theorem InsideChar.lt_byteLength {offset : Nat} {text : List Char} (h : InsideChar offset text) :
    offset < byteLength text := by
  obtain ⟨before, c, after, rfl, -, hlt⟩ := h
  rw [byteLength_append, byteLength_cons]
  omega

/-- A text cannot be cut at an offset if, and only if, this falls inside a character. -/
theorem takeBytes?_eq_none_iff {offset : Nat} {text : List Char} :
    takeBytes? offset text = none ↔ InsideChar offset text := by
  fun_induction takeBytes? offset text with
  | case1 offset => simp [not_insideChar_nil]
  | case2 c cs =>
    rw [insideChar_cons_iff]
    have := c.utf8Size_pos
    constructor
    · intro h
      cases h
    · rintro (⟨hpos, -⟩ | ⟨hle, -⟩) <;> omega
  | case3 offset c cs hpos hle ih =>
    rw [Option.map_eq_none_iff, ih, insideChar_cons_iff]
    constructor
    · exact fun h => .inr ⟨hle, h⟩
    · rintro (⟨-, hlt⟩ | ⟨-, h⟩)
      · omega
      · exact h
  | case4 offset c cs hpos hle =>
    rw [insideChar_cons_iff]
    exact iff_of_true rfl (.inl ⟨by omega, by omega⟩)

/-- What stands in front of an offset reaches up to it, or up to the end of the text. -/
theorem front_of_takeBytes? {offset : Nat} {text before : List Char}
    (h : takeBytes? offset text = some before) :
    before <+: text ∧ byteLength before = min offset (byteLength text) := by
  fun_induction takeBytes? offset text generalizing before with
  | case1 offset =>
    cases h
    simp
  | case2 c cs =>
    cases h
    simp
  | case3 offset c cs hpos hle ih =>
    obtain ⟨before, hbefore, rfl⟩ := Option.map_eq_some_iff.1 h
    obtain ⟨hfront, hlength⟩ := ih hbefore
    refine ⟨List.cons_prefix_cons.2 ⟨rfl, hfront⟩, ?_⟩
    rw [byteLength_cons, byteLength_cons, hlength]
    omega
  | case4 => cases h

/-- Of two fronts of a text, the one with fewer bytes is a front of the other. -/
theorem prefix_of_byteLength_le {front longer text : List Char} (h : front <+: text)
    (hlonger : longer <+: text) (hle : byteLength front ≤ byteLength longer) :
    front <+: longer := by
  rcases List.prefix_or_prefix_of_prefix h hlonger with hfront | ⟨rest, rfl⟩
  · exact hfront
  · cases rest with
    | nil => simp
    | cons c rest =>
      have hpos := c.utf8Size_pos
      rw [byteLength_append, byteLength_cons] at hle
      omega

/-- A line without the carriage return at its end. -/
def withoutReturn (line : List Char) : List Char :=
  if line.getLast? = some '\r' then line.dropLast else line

/-- Every piece with a newline behind it is a line, without the carriage return in front of the
newline. So is the last piece, if there is anything in it. -/
def linesOfPieces (pieces : List (List Char)) : List (List Char) :=
  pieces.dropLast.map withoutReturn ++ pieces.getLast?.toList.filter (· ≠ [])

/-- The lines of a text that is split at its newlines. -/
def splitLines (text : List Char) : List (List Char) := linesOfPieces (text.splitOn '\n')

/-- A piece with others behind it is a line, less a carriage return at its end. -/
theorem linesOfPieces_cons {pieces : List (List Char)} (h : pieces ≠ []) (piece : List Char) :
    linesOfPieces (piece :: pieces) = withoutReturn piece :: linesOfPieces pieces := by
  rw [linesOfPieces, List.dropLast_cons_of_ne_nil h, List.getLast?_cons_of_ne_nil h]
  rfl

/-- A character in front changes nothing about a carriage return at the end, unless it is that. -/
theorem withoutReturn_cons {c : Char} {line : List Char} (h : c = '\r' → line ≠ []) :
    withoutReturn (c :: line) = c :: withoutReturn line := by
  cases line with
  | nil =>
    have hc : c ≠ '\r' := fun hc => h hc rfl
    simp [withoutReturn, hc]
  | cons d line =>
    rw [withoutReturn, withoutReturn, List.getLast?_cons_cons]
    split <;> rfl

/-- Lines can be told by splitting the text. A character that ends no line joins the first piece,
which is the last one if no newline follows. -/
theorem lines_eq_splitLines (text : List Char) : lines text = splitLines text := by
  fun_induction lines text with
  | case1 => rfl
  | case2 cs ih =>
    rw [splitLines, splitOn_cons_self, linesOfPieces_cons (List.splitOn_ne_nil _ _), ih]
    rfl
  | case3 cs ih =>
    have hreturn : '\r' ≠ '\n' := by decide
    rw [splitLines, splitOn_cons_of_ne hreturn, splitOn_cons_self, List.modifyHead_cons,
      linesOfPieces_cons (List.splitOn_ne_nil _ _), ih]
    rfl
  | case4 c cs hnewline _ hnil =>
    obtain rfl := lines_eq_nil_iff.1 hnil
    rw [splitLines, splitOn_cons_of_ne hnewline]
    rfl
  | case5 c cs hnewline hreturn line more hcs ih =>
    rw [hcs, splitLines] at ih
    rw [splitLines, splitOn_cons_of_ne hnewline]
    cases hpieces : cs.splitOn '\n' with
    | nil => exact absurd hpieces (List.splitOn_ne_nil _ _)
    | cons piece pieces =>
      rw [hpieces] at ih
      rw [List.modifyHead_cons]
      cases pieces with
      | nil =>
        by_cases hpiece : piece = []
        · simp [linesOfPieces, hpiece] at ih
        · obtain ⟨rfl, rfl⟩ : line = piece ∧ more = [] := by simpa [linesOfPieces, hpiece] using ih
          simp [linesOfPieces]
      | cons next pieces =>
        have hjoined : c = '\r' → piece ≠ [] := by
          rintro hc rfl
          obtain ⟨rest, rfl⟩ := exists_of_splitOn_eq_nil_cons hpieces
          exact hreturn rest hc rfl
        rw [linesOfPieces_cons (List.cons_ne_nil _ _)] at ih ⊢
        obtain ⟨rfl, rfl⟩ := List.cons.inj ih
        rw [withoutReturn_cons hjoined]

theorem splitLines_eq_nil_iff {text : List Char} : splitLines text = [] ↔ text = [] := by
  rw [← lines_eq_splitLines, lines_eq_nil_iff]

/-- A line of the list stands somewhere in the text as it is. A character that ends no line joins a
line that starts the rest. -/
theorem exists_lineAt_of_getElem? {text line : List Char} {index : Nat}
    (h : (lines text)[index]? = some line) : ∃ front back, LineAt text index front line back := by
  have hnewline := newline_not_mem_of_mem_lines (List.mem_of_getElem? h)
  suffices hplace : ∃ front back, text = front ++ line ++ back ∧ AtLineStart front ∧
      LineEnd line back ∧ front.count '\n' = index by
    obtain ⟨front, back, htext, hstart, hends, hcount⟩ := hplace
    exact ⟨front, back, htext, hstart, hnewline, hends, hcount, h⟩
  clear hnewline
  fun_induction lines text generalizing index line with
  | case1 => cases h
  | case2 cs ih =>
    cases index with
    | zero =>
      cases h
      exact ⟨[], '\n' :: cs, rfl, .inl rfl, .newline cs (by simp), rfl⟩
    | succ index =>
      obtain ⟨front, back, rfl, hstart, hends, hcount⟩ := ih h
      exact ⟨'\n' :: front, back, rfl, hstart.cons fun _ => rfl, hends, by simp [hcount]⟩
  | case3 cs ih =>
    cases index with
    | zero =>
      cases h
      exact ⟨[], '\r' :: '\n' :: cs, rfl, .inl rfl, .returnNewline [] cs, rfl⟩
    | succ index =>
      obtain ⟨front, back, rfl, hstart, hends, hcount⟩ := ih h
      have hfront : AtLineStart ('\r' :: '\n' :: front) :=
        (hstart.cons fun _ => rfl).cons fun hnil => by cases hnil
      exact ⟨'\r' :: '\n' :: front, back, rfl, hfront, hends, by simp [hcount]⟩
  | case4 c cs hnewline _ hnil ih =>
    obtain rfl := lines_eq_nil_iff.1 hnil
    cases index with
    | zero =>
      cases h
      exact ⟨[], [], rfl, .inl rfl, .atEnd [c], rfl⟩
    | succ index => cases h
  | case5 c cs hnewline hreturn first more hcs ih =>
    rw [hcs] at ih
    cases index with
    | zero =>
      cases h
      have hfirst : (first :: more)[0]? = some first := rfl
      obtain ⟨front, back, htext, hstart, hends, hcount⟩ := ih hfirst
      have hfront : front = [] := by
        rcases hstart with hfront | hlast
        · exact hfront
        · exact absurd (List.mem_of_getLast? hlast) (List.count_eq_zero.1 hcount)
      subst hfront
      rw [List.nil_append] at htext
      have hjoined : LineEnd (c :: first) back :=
        hends.cons fun hc rest hrest => hreturn rest hc (htext.trans hrest)
      exact ⟨[], back, by rw [htext]; rfl, .inl rfl, hjoined, rfl⟩
    | succ index =>
      have hlater : (first :: more)[index + 1]? = some line := h
      obtain ⟨front, back, htext, hstart, hends, hcount⟩ := ih hlater
      have hne : front ≠ [] := by
        rintro rfl
        cases hcount
      have hfront : AtLineStart (c :: front) := hstart.cons fun hnil => absurd hnil hne
      refine ⟨c :: front, back, by rw [htext]; rfl, hfront, hends, ?_⟩
      rw [List.count_cons_of_ne hnewline, hcount]

/-- The rows from two lines before the marked one to two lines after it, as far as there are any. -/
def window (marked : Nat) (ls : List (List Char)) : List (List Char) :=
  (List.range' (marked - 2) (min ls.length (marked + 3) - (marked - 2))).map fun index =>
    row marked index (ls.getD index [])

/-- The rows are those of the window around the marked line. -/
theorem rows_eq_window (marked : Nat) (ls : List (List Char)) :
    rows marked ls = window marked ls := by
  apply List.ext_getElem?
  intro i
  have hshown : ((ls.zipIdx.take (marked + 2 + 1)).drop (marked - 2))[i]? =
      if marked - 2 + i < marked + 3 then (ls[marked - 2 + i]?).map (·, marked - 2 + i)
      else none := by
    rw [List.getElem?_drop, List.getElem?_take, List.getElem?_zipIdx, Nat.zero_add]
  rw [rows, window, List.getElem?_map, List.getElem?_map, margin, hshown]
  by_cases hi : i < min ls.length (marked + 3) - (marked - 2)
  · have hlt : marked - 2 + i < ls.length := by omega
    rw [List.getElem?_range' hi, if_pos (by omega), List.getElem?_eq_getElem hlt]
    simp [hlt]
  · have hshort := Nat.le_of_not_lt hi
    have hnone : (List.range' (marked - 2) (min ls.length (marked + 3) - (marked - 2)))[i]? =
        none := by
      rw [List.getElem?_eq_none_iff, List.length_range']
      exact hshort
    rw [hnone]
    split
    · rw [List.getElem?_eq_none (by omega)]
      rfl
    · rfl

/-- Every row shows a line of the text. -/
theorem exists_lineAt_of_mem_window {text r : List Char} {marked : Nat}
    (h : r ∈ window marked (splitLines text)) :
    ∃ index front line back, r = row marked index line ∧ LineAt text index front line back := by
  obtain ⟨index, hindex, rfl⟩ := List.mem_map.1 h
  have hlt : index < (splitLines text).length := by
    have := List.mem_range'_1.1 hindex
    omega
  have hlisted : (lines text)[index]? = some ((splitLines text).getD index []) := by
    rw [lines_eq_splitLines, List.getD_eq_getElem?_getD, List.getElem?_eq_getElem hlt]
    rfl
  obtain ⟨front, back, hline⟩ := exists_lineAt_of_getElem? hlisted
  exact ⟨index, front, _, back, rfl, hline⟩

/-- An offset marks the line that the newlines in front of it count, or the last line if there are
fewer lines. Offsets beyond the end count as the end. -/
def MarksLine (source : String) (offset marked : Nat) : Prop :=
  ∃ before, before <+: source.toList ∧ byteLength before = min offset source.utf8ByteSize ∧
    marked = min (before.count '\n') ((splitLines source.toList).length - 1)

/-- A later offset never marks an earlier line. -/
theorem MarksLine.mono {source : String} {offset later marked marked' : Nat}
    (h : MarksLine source offset marked) (h' : MarksLine source later marked')
    (hle : offset ≤ later) : marked ≤ marked' := by
  obtain ⟨before, hbefore, hlength, rfl⟩ := h
  obtain ⟨upTo, hupTo, hlength', rfl⟩ := h'
  have hfront : before <+: upTo := prefix_of_byteLength_le hbefore hupTo (by omega)
  have hcount := hfront.sublist.count_le '\n'
  omega

/-- The excerpt around an offset is the window around the line that the offset marks. -/
theorem exists_window_of_render? {source text : String} {offset : Nat}
    (h : render? source offset = some text) :
    ∃ marked, MarksLine source offset marked ∧
      text.toList = (window marked (splitLines source.toList)).flatMap (· ++ ['\n']) := by
  obtain ⟨before, hbefore, htext⟩ := Option.map_eq_some_iff.1 h
  obtain ⟨hfront, hlength⟩ := front_of_takeBytes? hbefore
  rw [byteLength_toList] at hlength
  refine ⟨_, ⟨before, hfront, hlength, rfl⟩, ?_⟩
  rw [← htext, String.toList_ofList, excerpt_eq_flatMap_rows, rows_eq_window, lines_eq_splitLines]
  rfl

/-- Unless there is no text, the marked line is one of its lines. -/
theorem MarksLine.exists_line {source : String} {offset marked : Nat}
    (h : MarksLine source offset marked) (hsource : source ≠ "") :
    ∃ line, (splitLines source.toList)[marked]? = some line := by
  obtain ⟨before, -, -, rfl⟩ := h
  have hlines : splitLines source.toList ≠ [] := by
    rw [Ne, splitLines_eq_nil_iff, String.toList_eq_nil_iff]
    exact hsource
  have hpos := List.length_pos_iff.2 hlines
  exact ⟨_, List.getElem?_eq_getElem (by omega)⟩

/-- What an excerpt tells about its source. -/
structure ShowsWindow (source : String) (marked : Nat) (text : String) : Prop where
  /-- It is made of the rows around the marked line, each on a line of its own. -/
  rows : text.toList = (window marked (splitLines source.toList)).flatMap (· ++ ['\n'])
  oneLine : ∀ r ∈ window marked (splitLines source.toList), '\n' ∉ r
  /-- Only the empty source has nothing to show. -/
  empty_iff : text = "" ↔ source = ""
  /-- Otherwise one row has the mark. -/
  one_marked : source ≠ "" → ∃ line, (splitLines source.toList)[marked]? = some line ∧
    (window marked (splitLines source.toList)).filter IsMarked = [row marked marked line]
  /-- The rows show lines of the source as they stand there. -/
  unaltered : ∀ r ∈ window marked (splitLines source.toList), ∃ index front line back,
    r = row marked index line ∧ LineAt source.toList index front line back

/-- The text of the window shows it, with one row marked. -/
theorem MarksLine.showsWindow {source text : String} {offset marked : Nat}
    (h : MarksLine source offset marked)
    (htext : text.toList = (window marked (splitLines source.toList)).flatMap (· ++ ['\n'])) :
    ShowsWindow source marked text := by
  have hempty : text = "" ↔ window marked (splitLines source.toList) = [] := by
    rw [← String.toList_eq_nil_iff, htext, List.flatMap_eq_nil_iff,
      List.eq_nil_iff_forall_not_mem]
    simp
  have hmarked : source ≠ "" → ∃ line, (splitLines source.toList)[marked]? = some line ∧
      (window marked (splitLines source.toList)).filter IsMarked = [row marked marked line] := by
    intro hsource
    obtain ⟨line, hline⟩ := h.exists_line hsource
    refine ⟨line, hline, ?_⟩
    rw [← rows_eq_window]
    exact (rows_of_getElem? hline).2.2
  refine ⟨htext, fun r hr => ?_, hempty.trans ⟨fun hnone => ?_, ?_⟩, hmarked,
    fun _ => exists_lineAt_of_mem_window⟩
  · rw [← rows_eq_window, ← lines_eq_splitLines] at hr
    exact newline_not_mem_of_mem_rows hr
  · by_contra hsource
    obtain ⟨line, -, hfilter⟩ := hmarked hsource
    rw [hnone] at hfilter
    cases hfilter
  · rintro rfl
    have hlines : splitLines "".toList = [] := rfl
    rw [hlines, window]
    simp

/-- There is no excerpt just for the offsets inside a character. Any other offset has one, the
window around the line that it marks, and going forward in the source never moves the mark back. -/
theorem excerpt_shows_window (source : String) :
    (∀ offset, render? source offset = none ↔
      offset < source.utf8ByteSize ∧ InsideChar offset source.toList) ∧
    (∀ offset text, render? source offset = some text →
      ∃ marked, MarksLine source offset marked ∧ ShowsWindow source marked text) ∧
    ∀ offset later marked marked', offset ≤ later → MarksLine source offset marked →
      MarksLine source later marked' → marked ≤ marked' := by
  refine ⟨fun offset => ?_, fun offset text h => ?_, fun _ _ _ _ hle h h' => h.mono h' hle⟩
  · rw [render?, Option.map_eq_none_iff, takeBytes?_eq_none_iff, ← byteLength_toList]
    exact (and_iff_right_of_imp InsideChar.lt_byteLength).symm
  · obtain ⟨marked, hmarks, htext⟩ := exists_window_of_render? h
    exact ⟨marked, hmarks, hmarks.showsWindow htext⟩

/-- Of seven lines the outer two are left out, and the offset after the one in front of the fourth
line lies inside its two-byte character. -/
theorem fourthLine_shows_window :
    (7 < "a\nb\nc\né\r\nd\ne\nf".utf8ByteSize ∧
      InsideChar 7 "a\nb\nc\né\r\nd\ne\nf".toList) ∧
    render? "a\nb\nc\né\r\nd\ne\nf" 6 =
      some "     2 | b\n     3 | c\n>>   4 | é\n     5 | d\n     6 | e\n" ∧
    ∃ marked, MarksLine "a\nb\nc\né\r\nd\ne\nf" 6 marked ∧
      ShowsWindow "a\nb\nc\né\r\nd\ne\nf" marked
        "     2 | b\n     3 | c\n>>   4 | é\n     5 | d\n     6 | e\n" := by
  obtain ⟨hnone, hsome, -⟩ := excerpt_shows_window "a\nb\nc\né\r\nd\ne\nf"
  have hinside : render? "a\nb\nc\né\r\nd\ne\nf" 7 = none := by decide +kernel
  have hshown : render? "a\nb\nc\né\r\nd\ne\nf" 6 =
      some "     2 | b\n     3 | c\n>>   4 | é\n     5 | d\n     6 | e\n" := by decide +kernel
  exact ⟨(hnone 7).1 hinside, hshown, hsome 6 _ hshown⟩

end ProtocolMocks.SourceContext
