import ProtocolMocks.SourceContext
import ProtocolMocks.Proofs.Partition

/-!
# Lines and excerpts

The lines of a text are numbered by the newlines in front of them. `LineAt` says where in the text a
line of the list stands, and every part of the text without a line break lies in a line. An excerpt
is made of rows, one for each line that it shows: the marked one and up to two on either side.
-/

namespace ProtocolMocks.SourceContext

/-- What stands behind a line: nothing, or its end. -/
inductive LineEnd : List Char → List Char → Prop
  | atEnd (line : List Char) : LineEnd line []
  | newline {line} (rest : List Char) : line.getLast? ≠ some '\r' → LineEnd line ('\n' :: rest)
  | returnNewline (line rest : List Char) : LineEnd line ('\r' :: '\n' :: rest)

/-- No line has been begun: the text is empty or ends with a newline. -/
def AtLineStart (text : List Char) : Prop := text = [] ∨ text.getLast? = some '\n'

theorem AtLineStart.of_cons {c : Char} {text : List Char} (h : AtLineStart (c :: text)) :
    AtLineStart text := by
  cases text with
  | nil => exact .inl rfl
  | cons d text => exact .inr (by simpa [AtLineStart, List.getLast?_cons_cons] using h)

/-- One more character in front of complete lines. -/
theorem AtLineStart.cons {c : Char} {front : List Char} (h : AtLineStart front)
    (hc : front = [] → c = '\n') : AtLineStart (c :: front) := by
  rcases h with rfl | hlast
  · exact .inr (by rw [hc rfl]; rfl)
  · exact .inr (by rw [List.getLast?_cons, hlast]; rfl)

theorem LineEnd.of_cons {c : Char} {line back : List Char} (h : LineEnd (c :: line) back) :
    LineEnd line back := by
  cases h with
  | atEnd => exact .atEnd line
  | newline rest hreturn =>
    refine .newline rest fun hlast => hreturn ?_
    rw [List.getLast?_cons, hlast]
    rfl
  | returnNewline rest => exact .returnNewline line rest

/-- A character in front joins the line and leaves its end as it is. -/
theorem LineEnd.cons {c : Char} {line back : List Char} (h : LineEnd line back)
    (hreturn : c = '\r' → ∀ rest, line ++ back ≠ '\n' :: rest) : LineEnd (c :: line) back := by
  cases h with
  | atEnd => exact .atEnd _
  | returnNewline rest => exact .returnNewline _ rest
  | newline rest hlast =>
    refine .newline rest fun hjoined => ?_
    cases line with
    | nil => exact hreturn (Option.some.inj hjoined) rest rfl
    | cons d line => exact hlast (by rwa [List.getLast?_cons_cons] at hjoined)

/-- A character that ends no line belongs to the line behind it. -/
theorem lines_cons {c : Char} {cs : List Char} (hnewline : c ≠ '\n')
    (hreturn : c = '\r' → ∀ rest, cs ≠ '\n' :: rest) :
    lines (c :: cs) = match lines cs with
      | [] => [[c]]
      | line :: rest => (c :: line) :: rest :=
  (lines.eq_4 _ _ hnewline fun rest hc hcs => hreturn hc rest hcs).trans rfl

/-- Only an empty text has no lines. -/
theorem lines_eq_nil_iff {cs : List Char} : lines cs = [] ↔ cs = [] := by
  constructor
  · intro h
    fun_cases lines cs with
    | case1 => rfl
    | _ => simp_all [lines]
  · rintro rfl
    rfl

/-- Complete lines in front of a text are lines of their own, one for each newline, as the last
character of the front is one. -/
theorem lines_append {front : List Char} (h : AtLineStart front) (rest : List Char) :
    lines (front ++ rest) = lines front ++ lines rest ∧
      (lines front).length = front.count '\n' := by
  fun_induction lines front with
  | case1 => exact ⟨rfl, rfl⟩
  | case2 cs ih =>
    obtain ⟨happend, hlength⟩ := ih h.of_cons
    rw [List.cons_append, lines, happend, List.length_cons, hlength]
    simp
  | case3 cs ih =>
    obtain ⟨happend, hlength⟩ := ih h.of_cons.of_cons
    rw [List.cons_append, List.cons_append, lines, happend, List.length_cons, hlength]
    simp
  | case4 c cs hnewline _ hnil =>
    obtain rfl := lines_eq_nil_iff.1 hnil
    rcases h with h | h
    · cases h
    · exact absurd (Option.some.inj h) hnewline
  | case5 c cs hnewline hreturn line more hcs ih =>
    obtain ⟨happend, hlength⟩ := ih h.of_cons
    have hjoined : c = '\r' → ∀ rest', cs ++ rest ≠ '\n' :: rest' := by
      intro hc rest' heq
      cases cs with
      | nil => cases hcs
      | cons d cs =>
        obtain ⟨rfl, _⟩ := List.cons.inj heq
        exact hreturn cs hc rfl
    rw [List.cons_append, lines_cons hnewline hjoined, happend, hcs]
    rw [hcs] at hlength
    refine ⟨rfl, ?_⟩
    rw [List.count_cons_of_ne hnewline, ← hlength]
    rfl

/-- What stands before its end is the first line. -/
theorem head?_lines_append {line back : List Char} (hline : '\n' ∉ line)
    (hback : LineEnd line back) (hne : line ++ back ≠ []) :
    (lines (line ++ back)).head? = some line := by
  induction line with
  | nil =>
    cases hback with
    | atEnd => exact absurd rfl hne
    | newline | returnNewline => simp [lines]
  | cons c line ih =>
    obtain ⟨hc, hline⟩ := List.ne_and_not_mem_of_not_mem_cons hline
    have hjoined : c = '\r' → ∀ rest, line ++ back ≠ '\n' :: rest := by
      rintro rfl rest heq
      cases line with
      | nil => cases hback <;> simp_all
      | cons d line => simp_all
    rw [List.cons_append, lines_cons hc.symm hjoined]
    by_cases hempty : line ++ back = []
    · obtain ⟨rfl, rfl⟩ := List.append_eq_nil_iff.1 hempty
      rfl
    · have hfirst := ih hline hback.of_cons hempty
      cases hlines : lines (line ++ back) with
      | nil => simp [hlines] at hfirst
      | cons first more =>
        rw [hlines, List.head?_cons, Option.some.injEq] at hfirst
        rw [hfirst]
        rfl

/-- Lines hold no newlines. -/
theorem newline_not_mem_of_mem_lines {text line : List Char} (h : line ∈ lines text) :
    '\n' ∉ line := by
  fun_induction lines text generalizing line with
  | case1 => cases h
  | case2 cs ih | case3 cs ih =>
    rcases List.mem_cons.1 h with rfl | hlater
    · exact List.not_mem_nil
    · exact ih hlater
  | case4 c cs hnewline hreturn hnil ih =>
    rw [List.mem_singleton.1 h]
    simpa [eq_comm] using hnewline
  | case5 c cs hnewline hreturn first more hcs ih =>
    rcases List.mem_cons.1 h with rfl | hlater
    · have hfirst := ih (hcs ▸ List.mem_cons_self)
      exact List.not_mem_cons_of_ne_of_not_mem (Ne.symm hnewline) hfirst
    · exact ih (hcs ▸ List.mem_cons_of_mem _ hlater)

/-- Any text is made of complete lines and of a part without a newline. -/
theorem exists_last_line (text : List Char) :
    ∃ front head, text = front ++ head ∧ AtLineStart front ∧ '\n' ∉ head := by
  induction text with
  | nil => exact ⟨[], [], rfl, .inl rfl, List.not_mem_nil⟩
  | cons c text ih =>
    obtain ⟨front, head, rfl, hfront, hhead⟩ := ih
    by_cases hstart : front = [] → c = '\n'
    · exact ⟨c :: front, head, rfl, hfront.cons hstart, hhead⟩
    · obtain ⟨rfl, hc⟩ := Classical.not_imp.1 hstart
      exact ⟨[], c :: head, rfl, .inl rfl, List.not_mem_cons_of_ne_of_not_mem (Ne.symm hc) hhead⟩

/-- Behind the start of a line stands the rest of the line and then its end, as long as the two do
not part a carriage return from its newline. -/
theorem exists_line_end {part text : List Char}
    (hpart : ∀ rest, text = '\n' :: rest → part.getLast? ≠ some '\r') :
    ∃ tail back, text = tail ++ back ∧ '\n' ∉ tail ∧ LineEnd (part ++ tail) back := by
  induction text generalizing part with
  | nil => exact ⟨[], [], rfl, List.not_mem_nil, .atEnd _⟩
  | cons c text ih =>
    by_cases hnewline : c = '\n'
    · subst hnewline
      have hreturn := hpart text rfl
      exact ⟨[], '\n' :: text, rfl, List.not_mem_nil, .newline text (by simpa using hreturn)⟩
    by_cases hreturn : ∃ rest, c = '\r' ∧ text = '\n' :: rest
    · obtain ⟨rest, rfl, rfl⟩ := hreturn
      exact ⟨[], '\r' :: '\n' :: rest, rfl, List.not_mem_nil, .returnNewline _ rest⟩
    have hlonger : ∀ rest, text = '\n' :: rest → (part ++ [c]).getLast? ≠ some '\r' := by
      intro rest hrest hlast
      rw [List.getLast?_concat, Option.some.injEq] at hlast
      exact hreturn ⟨rest, hlast, hrest⟩
    obtain ⟨tail, back, rfl, htail, hback⟩ := ih hlonger
    rw [List.append_assoc] at hback
    exact ⟨c :: tail, back, rfl, List.not_mem_cons_of_ne_of_not_mem (Ne.symm hnewline) htail, hback⟩

/-- The line with the given index, in its place between complete lines and its own end. -/
structure LineAt (text : List Char) (index : Nat) (front line back : List Char) : Prop where
  eq_append : text = front ++ line ++ back
  start : AtLineStart front
  oneLine : '\n' ∉ line
  ends : LineEnd line back
  count_eq : front.count '\n' = index
  /-- The list of lines has the line at the index. -/
  listed : (lines text)[index]? = some line

/-- Every part of a text without an end of line in it lies in a line, the one that the newlines in
front of the part count. -/
theorem exists_lineAt (before after : List Char) {part : List Char} (hne : part ≠ [])
    (hpart : ∀ c ∈ part, c ≠ '\n' ∧ c ≠ '\r') :
    ∃ front head tail back, before = front ++ head ∧
      LineAt (before ++ part ++ after) (before.count '\n') front (head ++ part ++ tail) back := by
  obtain ⟨front, head, rfl, hfront, hhead⟩ := exists_last_line before
  have hnewline : '\n' ∉ part := fun hmem => (hpart _ hmem).1 rfl
  have hlast : (head ++ part).getLast? ≠ some '\r' := by
    rw [List.getLast?_append_of_ne_nil _ hne]
    intro hreturn
    exact (hpart _ (List.mem_of_getLast? hreturn)).2 rfl
  have hends : ∀ rest, after = '\n' :: rest → (head ++ part).getLast? ≠ some '\r' :=
    fun _ _ => hlast
  obtain ⟨tail, back, rfl, htail, hback⟩ := exists_line_end hends
  have hline : '\n' ∉ head ++ part ++ tail := by simp [hhead, hnewline, htail]
  have hcount : front.count '\n' = (front ++ head).count '\n' := by
    rw [List.count_append, List.count_eq_zero.2 hhead, Nat.add_zero]
  have htext : front ++ head ++ part ++ (tail ++ back) =
      front ++ (head ++ part ++ tail ++ back) := by simp
  refine ⟨front, head, tail, back, rfl, by simp, hfront, hline, hback, hcount, ?_⟩
  obtain ⟨happend, hlength⟩ := lines_append hfront (head ++ part ++ tail ++ back)
  have hfirst := head?_lines_append hline hback (by simp [hne])
  rw [htext, happend, ← hcount, ← hlength, List.getElem?_append_right (Nat.le_refl _),
    Nat.sub_self, ← List.head?_eq_getElem?, hfirst]

/-- One line of an excerpt without its newline. -/
def row (marked index : Nat) (line : List Char) : List Char :=
  (if index = marked then ">>" else "  ").toList ++ ' ' ::
    List.leftpad 3 ' ' (Nat.repr (index + 1)).toList ++ " | ".toList ++ line

/-- A row with the mark. -/
def IsMarked (row : List Char) : Prop := ">>".toList <+: row

instance : DecidablePred IsMarked := fun row => inferInstanceAs (Decidable (">>".toList <+: row))

/-- A row is marked if its line is the one to be shown. -/
theorem isMarked_row_iff {marked index : Nat} {line : List Char} :
    IsMarked (row marked index line) ↔ index = marked := by
  by_cases h : index = marked <;> simp [IsMarked, row, h]

/-- A row has no newline in it if its line has none. -/
theorem newline_not_mem_row {line : List Char} (h : '\n' ∉ line) (marked index : Nat) :
    '\n' ∉ row marked index line := by
  have hdigits : '\n' ∉ Nat.toDigits 10 (index + 1) := by
    intro hmem
    have hdigit := Nat.isDigit_of_mem_toDigits (by decide) (by decide) hmem
    exact absurd hdigit (by decide)
  have hmark : '\n' ∉ (if index = marked then ">>" else "  ").toList := by
    split <;> decide
  simp [row, Nat.repr, List.leftpad, hdigits, hmark, h]

/-- The rows of the excerpt around a marked line. -/
def rows (marked : Nat) (ls : List (List Char)) : List (List Char) :=
  ((ls.zipIdx.take (marked + margin + 1)).drop (marked - margin)).map fun (line, index) =>
    row marked index line

/-- The excerpt is its rows, each with a newline behind it. -/
theorem excerpt_eq_flatMap_rows (marked : Nat) (ls : List (List Char)) :
    excerpt marked ls = (rows marked ls).flatMap (· ++ ['\n']) := by
  rw [rows, List.flatMap_map]
  rfl

/-- The rows of a text have no newlines in them. -/
theorem newline_not_mem_of_mem_rows {text r : List Char} {marked : Nat}
    (h : r ∈ rows marked (lines text)) : '\n' ∉ r := by
  obtain ⟨⟨line, index⟩, hshown, rfl⟩ := List.mem_map.1 h
  have hlisted := List.mem_of_mem_take (List.mem_of_mem_drop hshown)
  obtain ⟨_, _, hline⟩ := List.mem_zipIdx hlisted
  have hmem : line ∈ lines text := by
    rw [hline]
    exact List.getElem_mem _
  exact newline_not_mem_row (newline_not_mem_of_mem_lines hmem) marked index

/-- The numbered lines of an excerpt are those around the marked one. -/
theorem shown_append_cons (upper : List (List Char)) (line : List Char)
    (lower : List (List Char)) :
    ((upper ++ line :: lower).zipIdx.take (upper.length + margin + 1)).drop
        (upper.length - margin) =
      upper.zipIdx.drop (upper.length - margin) ++
        (line, upper.length) :: (lower.zipIdx (upper.length + 1)).take margin := by
  have htake : upper.length + margin + 1 - upper.length = margin + 1 := by omega
  have hall : (upper.zipIdx).take (upper.length + margin + 1) = upper.zipIdx := by
    rw [List.take_of_length_le]
    rw [List.length_zipIdx]
    omega
  have hnone : upper.length - margin - upper.length = 0 := by omega
  rw [List.zipIdx_append, List.take_append, List.length_zipIdx, htake, hall, List.drop_append,
    List.length_zipIdx, hnone, List.drop_zero, Nat.zero_add, List.zipIdx_cons,
    List.take_succ_cons]

theorem not_isMarked_of_ne {marked index : Nat} (h : index ≠ marked) (line : List Char) :
    ¬ IsMarked (row marked index line) := mt isMarked_row_iff.1 h

/-- Around the marked row there are up to two others on either side. -/
theorem rows_append_cons (upper : List (List Char)) (line : List Char)
    (lower : List (List Char)) :
    ∃ above below, rows upper.length (upper ++ line :: lower) =
        above ++ row upper.length upper.length line :: below ∧
      above.length ≤ margin ∧ below.length ≤ margin ∧ ∀ r ∈ above ++ below, ¬ IsMarked r := by
  refine ⟨(upper.zipIdx.drop (upper.length - margin)).map fun (line, index) =>
      row upper.length index line,
    ((lower.zipIdx (upper.length + 1)).take margin).map fun (line, index) =>
      row upper.length index line, ?_, ?_, ?_, ?_⟩
  · rw [rows, shown_append_cons, List.map_append, List.map_cons]
  · rw [List.length_map, List.length_drop, List.length_zipIdx]
    omega
  · rw [List.length_map, List.length_take]
    omega
  · intro r hr
    rcases List.mem_append.1 hr with hr | hr
    · obtain ⟨⟨other, index⟩, hmem, rfl⟩ := List.mem_map.1 hr
      have hindex := List.mem_zipIdx (List.mem_of_mem_drop hmem)
      exact not_isMarked_of_ne (by omega) other
    · obtain ⟨⟨other, index⟩, hmem, rfl⟩ := List.mem_map.1 hr
      have hindex := List.mem_zipIdx (List.mem_of_mem_take hmem)
      exact not_isMarked_of_ne (by omega) other

/-- An excerpt has one to five rows, and exactly one of them is marked. -/
theorem rows_of_getElem? {marked : Nat} {ls : List (List Char)} {line : List Char}
    (h : ls[marked]? = some line) :
    1 ≤ (rows marked ls).length ∧ (rows marked ls).length ≤ 5 ∧
      (rows marked ls).filter IsMarked = [row marked marked line] := by
  obtain ⟨hlt, hline⟩ := List.getElem?_eq_some_iff.1 h
  have hsplit : ls = ls.take marked ++ line :: ls.drop (marked + 1) := by
    rw [← hline, ← List.drop_eq_getElem_cons hlt, List.take_append_drop]
  have hlength : (ls.take marked).length = marked := List.length_take_of_le (Nat.le_of_lt hlt)
  obtain ⟨above, below, hrows, habove, hbelow, hother⟩ :=
    rows_append_cons (ls.take marked) line (ls.drop (marked + 1))
  rw [← hsplit, hlength] at hrows
  rw [hrows, List.length_append, List.length_cons]
  have hmargin : margin = 2 := rfl
  refine ⟨by omega, by omega, ?_⟩
  have hnone : ∀ part, part ⊆ above ++ below → part.filter (decide <| IsMarked ·) = [] := by
    intro part hpart
    rw [List.filter_eq_nil_iff]
    intro r hr
    simpa using hother r (hpart hr)
  rw [List.filter_append, hnone above (List.subset_append_left _ _),
    List.filter_cons_of_pos (by simp [isMarked_row_iff]),
    hnone below (List.subset_append_right _ _), List.nil_append]

/-- The text in front of an offset between two characters. -/
theorem takeBytes?_byteLength (before after : List Char) :
    takeBytes? (byteLength before) (before ++ after) = some before := by
  induction before with
  | nil => cases after <;> simp [takeBytes?]
  | cons c before ih =>
    have hpos := c.utf8Size_pos
    have hle : c.utf8Size ≤ byteLength (c :: before) := by
      rw [byteLength_cons]
      omega
    have hne : byteLength (c :: before) ≠ 0 := by
      rw [byteLength_cons]
      omega
    rw [List.cons_append, takeBytes?, if_neg hne, if_pos hle, byteLength_cons,
      Nat.add_sub_cancel_left, ih]
    rfl

end ProtocolMocks.SourceContext
