import ProtocolMocks.Token.Lexer

/-!
# The lexical rules

The rules as a relation between a lexeme and the text behind it, which says how far each kind of
token reaches. `scan` follows them exactly: the lexeme that it takes is legal before what it leaves,
and no other lexeme at the front of the same text is legal. So the rules never leave two readings,
and never none.
-/

namespace ProtocolMocks

open Token

/-- A text that starts in one class of characters and goes on in another. -/
def Shape (start part : Char → Bool) : List Char → Prop
  | [] => False
  | c :: cs => start c = true ∧ ∀ d ∈ cs, part d = true

instance (start part : Char → Bool) : DecidablePred (Shape start part)
  | [] => inferInstanceAs (Decidable False)
  | c :: cs => decidable_of_iff (start c = true ∧ cs.all part = true)
    (and_congr_right fun _ => List.all_eq_true)

/-- The text does not start in the class. -/
def Stops (inClass : Char → Bool) (text : List Char) : Prop :=
  ∀ c ∈ text.head?, inClass c = false

/-- An identifier is a word in the shape of one that is not a keyword. -/
structure PlainIdentifier (name : String) : Prop where
  shape : Shape isIdentifierStart isIdentifierPart name.toList
  not_keyword : name ∉ keywords.map Prod.fst

instance : DecidablePred PlainIdentifier := fun name =>
  decidable_of_iff (Shape isIdentifierStart isIdentifierPart name.toList ∧
    name ∉ keywords.map Prod.fst) ⟨fun h => ⟨h.1, h.2⟩, fun h => ⟨h.shape, h.not_keyword⟩⟩

/-- The inside of a string, with a backslash before each quote, backslash or other character that
is escaped. -/
inductive StringBody : List Char → Prop
  | nil : StringBody []
  | plain {c body} : c ≠ '"' → c ≠ '\\' → c ≠ '\n' → StringBody body → StringBody (c :: body)
  | escaped {c body} : c ≠ '\n' → StringBody body → StringBody ('\\' :: c :: body)

/-- What can neither continue nor close a string: the end, a line break, and a backslash before
one of them. -/
inductive BreaksOff : List Char → Prop
  | atEnd : BreaksOff []
  | atNewline (rest : List Char) : BreaksOff ('\n' :: rest)
  | backslashAtEnd : BreaksOff ['\\']
  | backslashAtNewline (rest : List Char) : BreaksOff ('\\' :: '\n' :: rest)

/-- A character that no token but an unknown one starts with. -/
structure Ruleless (c : Char) : Prop where
  not_blank : isBlank c = false
  not_newline : c ≠ '\n'
  not_word : isIdentifierStart c = false
  not_digit : c.isDigit = false
  not_mark : c ∉ ['/', '"', '@', '-']
  not_punctuation : ∀ kind, (c, kind) ∉ punctuation

/-- A character that starts no other token in front of the rest: a slash without a comment, an at
sign without a name, a hyphen without an arrow, or a character without a rule. -/
inductive Stray : Char → List Char → Prop
  | slash {rest} : (∀ d ∈ rest.head?, d ≠ '/' ∧ d ≠ '*') → Stray '/' rest
  | atSign {rest} : Stops isIdentifierStart rest → Stray '@' rest
  | hyphen {rest} : (∀ d ∈ rest.head?, d ≠ '>') → Stray '-' rest
  | ruleless {c} (rest : List Char) : Ruleless c → Stray c rest

/-- The marks that close a block comment. -/
def commentEnd : List Char := ['*', '/']

/-- The rules that say which lexemes may stand before which text. -/
inductive Lexeme.LegalBefore : Lexeme → List Char → Prop
  | whitespace {text rest} : Shape isBlank isBlank text → Stops isBlank rest →
      LegalBefore ⟨.whitespace, text⟩ rest
  | newline (rest : List Char) : LegalBefore ⟨.newline, ['\n']⟩ rest
  | lineComment {body rest} : '\n' ∉ body → Stops (· != '\n') rest →
      LegalBefore ⟨.lineComment, '/' :: '/' :: body⟩ rest
  | closedComment {inside} (rest : List Char) : ¬ commentEnd <:+: inside ++ ['*'] →
      LegalBefore ⟨.blockComment, '/' :: '*' :: (inside ++ commentEnd)⟩ rest
  | openComment {inside} : ¬ commentEnd <:+: inside →
      LegalBefore ⟨.blockComment, '/' :: '*' :: inside⟩ []
  | stringLiteral {body} (rest : List Char) : StringBody body →
      LegalBefore ⟨.stringLiteral, '"' :: (body ++ ['"'])⟩ rest
  | numberLiteral {text rest} : Shape Char.isDigit isNumberPart text → Stops isNumberPart rest →
      LegalBefore ⟨.numberLiteral, text⟩ rest
  | keyword {word kind rest} : (word, kind) ∈ keywords → Stops isIdentifierPart rest →
      LegalBefore ⟨kind, word.toList⟩ rest
  | identifier {name rest} : PlainIdentifier name → Stops isIdentifierPart rest →
      LegalBefore ⟨.identifier name, name.toList⟩ rest
  | atName {name rest} : Shape isIdentifierStart isIdentifierPart name.toList →
      Stops isIdentifierPart rest → LegalBefore ⟨.attribute name, '@' :: name.toList⟩ rest
  | arrow (rest : List Char) : LegalBefore ⟨.arrow, ['-', '>']⟩ rest
  | punctuation {c kind} (rest : List Char) : (c, kind) ∈ punctuation →
      LegalBefore ⟨kind, [c]⟩ rest
  | stray {c rest} : Stray c rest → LegalBefore ⟨.unknown, [c]⟩ rest
  | openString {body rest} : StringBody body → BreaksOff rest →
      LegalBefore ⟨.unknown, '"' :: body⟩ rest

/-- The end of a text stops every run. -/
theorem stops_nil (inClass : Char → Bool) : Stops inClass [] := by
  intro c hc
  cases hc

@[simp] theorem stops_cons_iff {inClass : Char → Bool} {c : Char} {cs : List Char} :
    Stops inClass (c :: cs) ↔ inClass c = false := by
  simp [Stops]

/-- A run that is taken as far as it goes is stopped by what is left. -/
theorem stops_dropWhile (inClass : Char → Bool) (cs : List Char) :
    Stops inClass (cs.dropWhile inClass) := by
  induction cs with
  | nil => exact stops_nil inClass
  | cons c cs ih =>
    by_cases hc : inClass c = true
    · rw [List.dropWhile_cons_of_pos hc]
      exact ih
    · rw [List.dropWhile_cons_of_neg hc, stops_cons_iff]
      exact Bool.eq_false_iff.2 hc

theorem takeWhile_of_stops {inClass : Char → Bool} {rest : List Char} (h : Stops inClass rest) :
    rest.takeWhile inClass = [] := by
  cases rest with
  | nil => rfl
  | cons c rest =>
    rw [stops_cons_iff] at h
    exact List.takeWhile_cons_of_neg (by simp [h])

theorem dropWhile_of_stops {inClass : Char → Bool} {rest : List Char} (h : Stops inClass rest) :
    rest.dropWhile inClass = rest := by
  cases rest with
  | nil => rfl
  | cons c rest =>
    rw [stops_cons_iff] at h
    exact List.dropWhile_cons_of_neg (by simp [h])

/-- A run that is stopped is taken as a whole. -/
theorem takeWhile_run {inClass : Char → Bool} {run rest : List Char}
    (hrun : ∀ c ∈ run, inClass c = true) (hrest : Stops inClass rest) :
    (run ++ rest).takeWhile inClass = run := by
  rw [List.takeWhile_append_of_pos hrun, takeWhile_of_stops hrest, List.append_nil]

/-- A run that is stopped is dropped as a whole. -/
theorem dropWhile_run {inClass : Char → Bool} {run rest : List Char}
    (hrun : ∀ c ∈ run, inClass c = true) (hrest : Stops inClass rest) :
    (run ++ rest).dropWhile inClass = rest := by
  rw [List.dropWhile_append_of_pos hrun, dropWhile_of_stops hrest]

/-- A first character with the run behind it has the shape of a word. -/
theorem shape_takeWhile {start part : Char → Bool} {c : Char} (h : start c = true)
    (cs : List Char) : Shape start part (c :: cs.takeWhile part) :=
  ⟨h, fun _ hd => List.all_eq_true.1 List.all_takeWhile _ hd⟩

/-- A closing mark before the last one would have been found first. -/
theorem splitComment_closed {inside : List Char} (h : ¬ commentEnd <:+: inside ++ ['*'])
    (rest : List Char) :
    splitComment (inside ++ commentEnd ++ rest) = (inside ++ commentEnd, rest) := by
  induction inside with
  | nil => rfl
  | cons c inside ih =>
    rw [List.cons_append, List.infix_cons_iff, not_or] at h
    have hfirst : ∀ cs, c = '*' → inside ++ commentEnd ++ rest = '/' :: cs → False := by
      rintro cs rfl hslash
      cases inside with
      | nil => cases hslash
      | cons d inside =>
        cases hslash
        exact h.1 ⟨inside ++ ['*'], rfl⟩
    rw [List.cons_append, List.cons_append, splitComment.eq_3 _ _ hfirst, ih h.2]

/-- A comment that is never closed goes on to the end. -/
theorem splitComment_open {inside : List Char} (h : ¬ commentEnd <:+: inside) :
    splitComment inside = (inside, []) := by
  induction inside with
  | nil => rfl
  | cons c inside ih =>
    rw [List.infix_cons_iff, not_or] at h
    have hfirst : ∀ cs, c = '*' → inside = '/' :: cs → False := by
      rintro cs rfl rfl
      exact h.1 ⟨cs, rfl⟩
    rw [splitComment.eq_3 _ _ hfirst, ih h.2]

/-- If a text has a closing mark, it has a first one. -/
theorem exists_first_commentEnd {cs : List Char} (h : commentEnd <:+: cs) :
    ∃ inside rest, cs = inside ++ commentEnd ++ rest ∧ ¬ commentEnd <:+: inside ++ ['*'] := by
  induction cs with
  | nil => simp [commentEnd] at h
  | cons c cs ih =>
    by_cases hfront : commentEnd <+: c :: cs
    · obtain ⟨rest, hrest⟩ := hfront
      exact ⟨[], rest, hrest.symm, by decide⟩
    · have hlater := (List.infix_cons_iff.1 h).resolve_left hfront
      obtain ⟨inside, rest, rfl, hinside⟩ := ih hlater
      refine ⟨c :: inside, rest, rfl, ?_⟩
      rw [List.cons_append, List.infix_cons_iff, not_or]
      refine ⟨fun hearly => hfront (hearly.trans ?_), hinside⟩
      exact ⟨'/' :: rest, by simp [commentEnd]⟩

/-- A comment ends with the first closing mark, or with the text if there is none. -/
theorem legalBefore_splitComment (cs : List Char) :
    Lexeme.LegalBefore ⟨.blockComment, '/' :: '*' :: (splitComment cs).1⟩ (splitComment cs).2 := by
  by_cases h : commentEnd <:+: cs
  · obtain ⟨inside, rest, rfl, hinside⟩ := exists_first_commentEnd h
    rw [splitComment_closed hinside]
    exact .closedComment rest hinside
  · rw [splitComment_open h]
    exact .openComment h

/-- A body is taken whole, whatever follows. -/
theorem splitString_body {body : List Char} (h : StringBody body) (rest : List Char) :
    splitString (body ++ rest) = (body ++ (splitString rest).1, (splitString rest).2) := by
  induction h with
  | nil => rfl
  | @plain c body hquote hbackslash hnewline _ ih =>
    have hlast : c = '\\' → body ++ rest = [] → False := fun hc _ => hbackslash hc
    have hescape : ∀ d cs, c = '\\' → body ++ rest = d :: cs → False :=
      fun _ _ hc _ => hbackslash hc
    rw [List.cons_append, splitString.eq_4 _ _ hlast hescape,
      if_neg (not_or.2 ⟨hquote, hnewline⟩), ih]
    rfl
  | @escaped c body hnewline _ ih =>
    rw [List.cons_append, List.cons_append, splitString, if_neg hnewline, ih]
    rfl

/-- Where a string breaks off, no more of it is taken. -/
theorem splitString_of_breaksOff {rest : List Char} (h : BreaksOff rest) :
    splitString rest = ([], rest) := by
  cases h <;> simp [splitString]

/-- What is taken of a string is a body without unescaped quotes or line breaks. -/
theorem stringBody_splitString (cs : List Char) : StringBody (splitString cs).1 := by
  fun_induction splitString cs with
  | case1 | case2 | case3 | case5 => exact .nil
  | case4 c cs hnewline ih => exact .escaped hnewline ih
  | case6 c cs hlast hescape hother ih =>
    rw [not_or] at hother
    refine .plain hother.1 ?_ hother.2 ih
    intro hbackslash
    cases cs with
    | nil => exact hlast hbackslash rfl
    | cons d cs => exact hescape d cs hbackslash rfl

/-- A body goes on until a quote, or until the string can no longer be closed. -/
theorem quote_or_breaksOff_splitString (cs : List Char) :
    (∃ rest, (splitString cs).2 = '"' :: rest) ∨ BreaksOff (splitString cs).2 := by
  fun_induction splitString cs with
  | case1 => exact .inr .atEnd
  | case2 => exact .inr .backslashAtEnd
  | case3 cs => exact .inr (.backslashAtNewline cs)
  | case4 c cs hnewline ih => exact ih
  | case5 c cs _ _ hstop =>
    rcases hstop with rfl | rfl
    · exact .inl ⟨cs, rfl⟩
    · exact .inr (.atNewline cs)
  | case6 c cs _ _ _ ih => exact ih

/-- A keyword is read as its kind. -/
theorem ofWord_of_mem {word : String} {kind : Token} (h : (word, kind) ∈ keywords) :
    ofWord word = kind := by
  have hall : ∀ entry ∈ keywords, ofWord entry.1 = entry.2 := by decide
  exact hall _ h

/-- Keywords have the shape of identifiers. -/
theorem shape_of_mem {word : String} {kind : Token} (h : (word, kind) ∈ keywords) :
    Shape isIdentifierStart isIdentifierPart word.toList := by
  have hall : ∀ entry ∈ keywords, Shape isIdentifierStart isIdentifierPart entry.1.toList := by
    decide
  exact hall _ h

/-- A plain identifier is read as itself. -/
theorem ofWord_of_plain {name : String} (h : PlainIdentifier name) :
    ofWord name = .identifier name := by
  have hlookup : keywords.lookup name = none := by
    rw [List.lookup_eq_none_iff]
    intro entry hentry
    rw [bne_iff_ne]
    rintro rfl
    exact h.not_keyword (List.mem_map_of_mem hentry)
  rw [ofWord, hlookup]
  rfl

/-- A word is a keyword of the table or an identifier, not both. -/
theorem legalBefore_word {word : List Char} {rest : List Char}
    (hshape : Shape isIdentifierStart isIdentifierPart word)
    (hrest : Stops isIdentifierPart rest) :
    Lexeme.LegalBefore ⟨ofWord (String.ofList word), word⟩ rest := by
  by_cases h : String.ofList word ∈ keywords.map Prod.fst
  · obtain ⟨entry, hentry, hword⟩ := List.mem_map.1 h
    have hlegal := Lexeme.LegalBefore.keyword hentry hrest
    rw [hword, String.toList_ofList] at hlegal
    rw [← hword, ofWord_of_mem hentry]
    exact hlegal
  · have hplain : PlainIdentifier (String.ofList word) :=
      ⟨by rw [String.toList_ofList]; exact hshape, h⟩
    have hlegal := Lexeme.LegalBefore.identifier hplain hrest
    rw [String.toList_ofList] at hlegal
    rw [ofWord_of_plain hplain]
    exact hlegal

/-- A punctuation mark is looked up as its kind, as no mark has two. -/
theorem lookup_punctuation_of_mem {c : Char} {kind : Token} (h : (c, kind) ∈ punctuation) :
    punctuation.lookup c = some kind := by
  have hall : ∀ entry ∈ punctuation, punctuation.lookup entry.1 = some entry.2 := by decide
  exact hall _ h

/-- A kind that was looked up is that of the mark. -/
theorem mem_of_lookup_punctuation {c : Char} {kind : Token}
    (h : punctuation.lookup c = some kind) : (c, kind) ∈ punctuation := by
  obtain ⟨front, back, hsplit, _⟩ := List.lookup_eq_some_iff.1 h
  rw [hsplit]
  exact List.mem_append_right front List.mem_cons_self

/-- The blanks are the space, the tab and the carriage return. -/
theorem isBlank_eq_true_iff {c : Char} : isBlank c = true ↔ c = ' ' ∨ c = '\t' ∨ c = '\r' := by
  simp [isBlank, or_assoc]

/-- Blanks and line breaks start neither words nor numbers. -/
theorem not_isBlank_of_isIdentifierPart {c : Char} (h : isIdentifierPart c = true) :
    isBlank c = false ∧ c ≠ '\n' := by
  constructor
  · rw [Bool.eq_false_iff, Ne, isBlank_eq_true_iff]
    rintro (rfl | rfl | rfl) <;> exact absurd h (by decide)
  · rintro rfl
    exact absurd h (by decide)

/-- What may start an identifier may also continue it. -/
theorem isIdentifierPart_of_isIdentifierStart {c : Char} (h : isIdentifierStart c = true) :
    isIdentifierPart c = true := by
  simp only [isIdentifierStart, isIdentifierPart, Char.isAlphanum, Bool.or_eq_true] at h ⊢
  exact h.imp_left .inl

/-- Digits may continue an identifier. -/
theorem isIdentifierPart_of_isDigit {c : Char} (h : c.isDigit = true) :
    isIdentifierPart c = true := by
  simp only [isIdentifierPart, Char.isAlphanum, Bool.or_eq_true]
  exact .inl (.inr h)

/-- Digits do not start an identifier. -/
theorem not_isIdentifierStart_of_isDigit {c : Char} (h : c.isDigit = true) :
    isIdentifierStart c = false := by
  have hall : ∀ n ∈ List.range' 48 10, isIdentifierStart (Char.ofNat n) = false := by decide
  have hrange : c.toNat ∈ List.range' 48 10 := by
    have hbounds := Char.isDigit_iff_toNat.1 h
    rw [List.mem_range'_1]
    simp only [Char.reduceToNat] at hbounds
    omega
  have hstart := hall _ hrange
  rw [Char.ofNat_toNat] at hstart
  exact hstart

/-- What is scanned from a slash is a comment or a stray slash, legal before what is left. -/
theorem legalBefore_scanSlash (cs : List Char) :
    (scanSlash cs).1.LegalBefore (scanSlash cs).2 := by
  unfold scanSlash
  split
  · rename_i cs
    refine .lineComment (fun hnewline => ?_) (stops_dropWhile _ cs)
    have hother := List.all_eq_true.1 List.all_takeWhile _ hnewline
    exact absurd hother (by decide)
  · rename_i cs
    exact legalBefore_splitComment cs
  · rename_i hslash hstar
    refine .stray (.slash fun d hd => ?_)
    obtain ⟨rest, rfl⟩ := List.head?_eq_some_iff.1 hd
    constructor
    · rintro rfl
      exact hslash rest rfl
    · rintro rfl
      exact hstar rest rfl

/-- What is scanned from a quote is a string or one that breaks off, legal before what is left. -/
theorem legalBefore_scanQuote (cs : List Char) :
    (scanQuote cs).1.LegalBefore (scanQuote cs).2 := by
  have hbody := stringBody_splitString cs
  have hend := quote_or_breaksOff_splitString cs
  unfold scanQuote
  split
  · rename_i rest _
    exact .stringLiteral rest hbody
  · rename_i hquote
    rcases hend with ⟨rest, hrest⟩ | hrest
    · exact absurd hrest (hquote rest)
    · exact .openString hbody hrest

/-- What is scanned from an at sign is an attribute or a stray sign, legal before what is left. -/
theorem legalBefore_scanAt (cs : List Char) : (scanAt cs).1.LegalBefore (scanAt cs).2 := by
  cases cs with
  | nil => exact .stray (.atSign (stops_nil _))
  | cons c cs =>
    by_cases hstart : isIdentifierStart c = true
    · have hshape : Shape isIdentifierStart isIdentifierPart
          (String.ofList (c :: cs.takeWhile isIdentifierPart)).toList := by
        rw [String.toList_ofList]
        exact shape_takeWhile hstart cs
      have hlegal := Lexeme.LegalBefore.atName hshape (stops_dropWhile isIdentifierPart cs)
      rw [String.toList_ofList] at hlegal
      rw [scanAt, if_pos hstart]
      exact hlegal
    · rw [scanAt, if_neg hstart]
      exact .stray (.atSign (stops_cons_iff.2 (Bool.eq_false_iff.2 hstart)))

/-- What is scanned from a hyphen is an arrow or a stray hyphen, legal before what is left. -/
theorem legalBefore_scanHyphen (cs : List Char) :
    (scanHyphen cs).1.LegalBefore (scanHyphen cs).2 := by
  unfold scanHyphen
  split
  · rename_i rest
    exact .arrow rest
  · rename_i hangle
    refine .stray (.hyphen ?_)
    rintro d hd rfl
    obtain ⟨rest, rfl⟩ := List.head?_eq_some_iff.1 hd
    exact hangle rest rfl

/-- The lexeme that `scan` takes is legal before what it leaves. -/
theorem legalBefore_scan (c : Char) (cs : List Char) :
    (scan c cs).1.LegalBefore (scan c cs).2 := by
  unfold scan
  split
  · rename_i hblank
    exact .whitespace (shape_takeWhile hblank cs) (stops_dropWhile _ cs)
  rename_i hblank
  split
  · exact .newline cs
  rename_i hnewline
  split
  · rename_i hstart
    exact legalBefore_word (shape_takeWhile hstart cs) (stops_dropWhile _ cs)
  rename_i hstart
  split
  · rename_i hdigit
    exact .numberLiteral (shape_takeWhile hdigit cs) (stops_dropWhile _ cs)
  rename_i hdigit
  split
  · exact legalBefore_scanSlash cs
  rename_i hslash
  split
  · exact legalBefore_scanQuote cs
  rename_i hquote
  split
  · exact legalBefore_scanAt cs
  rename_i hat
  split
  · exact legalBefore_scanHyphen cs
  rename_i hhyphen
  cases hlookup : punctuation.lookup c with
  | some kind => exact .punctuation cs (mem_of_lookup_punctuation hlookup)
  | none =>
    have hmark : c ∉ ['/', '"', '@', '-'] := by simp [hslash, hquote, hat, hhyphen]
    refine .stray (.ruleless cs ⟨Bool.eq_false_iff.2 hblank, hnewline, Bool.eq_false_iff.2 hstart,
      Bool.eq_false_iff.2 hdigit, hmark, fun kind hkind => ?_⟩)
    rw [lookup_punctuation_of_mem hkind] at hlookup
    cases hlookup

/-- A run that is stopped is scanned as one lexeme. -/
theorem scanRun_run {part : Char → Bool} {run rest : List Char}
    (hrun : ∀ d ∈ run, part d = true) (hrest : Stops part rest) (kind : List Char → Token)
    (c : Char) : scanRun part kind c (run ++ rest) = (⟨kind (c :: run), c :: run⟩, rest) := by
  rw [scanRun, takeWhile_run hrun hrest, dropWhile_run hrun hrest]

/-- A blank starts a run of blanks. -/
theorem scan_of_isBlank {c : Char} (h : isBlank c = true) (cs : List Char) :
    scan c cs = scanRun isBlank (fun _ => .whitespace) c cs := by
  rw [scan, if_pos h]

/-- A letter or an underscore starts a word. -/
theorem scan_of_isIdentifierStart {c : Char} (h : isIdentifierStart c = true) (cs : List Char) :
    scan c cs = scanRun isIdentifierPart (fun word => ofWord (String.ofList word)) c cs := by
  obtain ⟨hblank, hnewline⟩ :=
    not_isBlank_of_isIdentifierPart (isIdentifierPart_of_isIdentifierStart h)
  simp only [scan, hblank, hnewline, h, if_true, if_false, Bool.false_eq_true]

/-- A digit starts a number. -/
theorem scan_of_isDigit {c : Char} (h : c.isDigit = true) (cs : List Char) :
    scan c cs = scanRun isNumberPart (fun _ => .numberLiteral) c cs := by
  obtain ⟨hblank, hnewline⟩ := not_isBlank_of_isIdentifierPart (isIdentifierPart_of_isDigit h)
  have hstart := not_isIdentifierStart_of_isDigit h
  simp only [scan, hblank, hnewline, hstart, h, if_true, if_false, Bool.false_eq_true]

theorem scan_slash (cs : List Char) : scan '/' cs = scanSlash cs := rfl

theorem scan_quote (cs : List Char) : scan '"' cs = scanQuote cs := rfl

theorem scan_at (cs : List Char) : scan '@' cs = scanAt cs := rfl

theorem scan_hyphen (cs : List Char) : scan '-' cs = scanHyphen cs := rfl

/-- A punctuation mark is a lexeme by itself. -/
theorem scan_of_mem_punctuation {c : Char} {kind : Token} (h : (c, kind) ∈ punctuation)
    (cs : List Char) : scan c cs = (⟨kind, [c]⟩, cs) := by
  have hall : ∀ entry ∈ punctuation, scan entry.1 cs = (⟨entry.2, [entry.1]⟩, cs) := by
    simp only [punctuation, List.forall_mem_cons]
    exact ⟨rfl, rfl, rfl, rfl, rfl, rfl, rfl, rfl, rfl, rfl, rfl, rfl, rfl, rfl, rfl, rfl, by simp⟩
  exact hall _ h

/-- A character that no rule is about is an unknown lexeme by itself. -/
theorem scan_of_ruleless {c : Char} (h : Ruleless c) (cs : List Char) :
    scan c cs = (⟨.unknown, [c]⟩, cs) := by
  have hlookup : punctuation.lookup c = none := by
    cases hlookup : punctuation.lookup c with
    | none => rfl
    | some kind => exact absurd (mem_of_lookup_punctuation hlookup) (h.not_punctuation kind)
  obtain ⟨hslash, hquote, hat, hhyphen⟩ : c ≠ '/' ∧ c ≠ '"' ∧ c ≠ '@' ∧ c ≠ '-' := by
    simpa using h.not_mark
  simp only [scan, h.not_blank, h.not_newline, h.not_word, h.not_digit, hslash, hquote, hat,
    hhyphen, hlookup, if_false, Bool.false_eq_true, Option.getD_none]

/-- A word is read as what it stands for. -/
theorem scan_word {word rest : List Char} {c : Char} {cs : List Char}
    (hshape : Shape isIdentifierStart isIdentifierPart word)
    (hrest : Stops isIdentifierPart rest) (htext : word ++ rest = c :: cs) :
    scan c cs = (⟨ofWord (String.ofList word), word⟩, rest) := by
  cases word with
  | nil => exact hshape.elim
  | cons d word =>
    rw [List.cons_append, List.cons.injEq] at htext
    obtain ⟨rfl, rfl⟩ := htext
    rw [scan_of_isIdentifierStart hshape.1, scanRun_run hshape.2 hrest]

/-- Two slashes start a comment that goes on to the end of the line. -/
theorem scanSlash_line {body rest : List Char} (hbody : '\n' ∉ body)
    (hrest : Stops (· != '\n') rest) :
    scanSlash ('/' :: (body ++ rest)) = (⟨.lineComment, '/' :: '/' :: body⟩, rest) := by
  have hrun : ∀ d ∈ body, (d != '\n') = true := by
    intro d hd
    rw [bne_iff_ne]
    rintro rfl
    exact hbody hd
  rw [scanSlash, takeWhile_run hrun hrest, dropWhile_run hrun hrest]

/-- A slash and an asterisk start a comment that goes on to the first sign that closes it. -/
theorem scanSlash_closed {inside : List Char} (h : ¬ commentEnd <:+: inside ++ ['*'])
    (rest : List Char) :
    scanSlash ('*' :: (inside ++ commentEnd ++ rest)) =
      (⟨.blockComment, '/' :: '*' :: (inside ++ commentEnd)⟩, rest) := by
  rw [scanSlash, splitComment_closed h]

/-- A block comment that is never closed goes on to the end of the text. -/
theorem scanSlash_open {inside : List Char} (h : ¬ commentEnd <:+: inside) :
    scanSlash ('*' :: inside) = (⟨.blockComment, '/' :: '*' :: inside⟩, []) := by
  rw [scanSlash, splitComment_open h]

/-- A quote starts a string that goes on to the next unescaped quote. -/
theorem scanQuote_closed {body : List Char} (hbody : StringBody body) (rest : List Char) :
    scanQuote (body ++ '"' :: rest) = (⟨.stringLiteral, '"' :: (body ++ ['"'])⟩, rest) := by
  have hquote : splitString ('"' :: rest) = ([], '"' :: rest) := by simp [splitString]
  rw [scanQuote, splitString_body hbody, hquote, List.append_nil]
  rfl

/-- A string that breaks off is unknown, up to the place where it does. -/
theorem scanQuote_open {body rest : List Char} (hbody : StringBody body) (hrest : BreaksOff rest) :
    scanQuote (body ++ rest) = (⟨.unknown, '"' :: body⟩, rest) := by
  rw [scanQuote, splitString_body hbody, splitString_of_breaksOff hrest, List.append_nil]
  cases hrest <;> rfl

/-- An at sign with a word behind it is an attribute. -/
theorem scanAt_name {name rest : List Char}
    (hshape : Shape isIdentifierStart isIdentifierPart name) (hrest : Stops isIdentifierPart rest) :
    scanAt (name ++ rest) = (⟨.attribute (String.ofList name), '@' :: name⟩, rest) := by
  cases name with
  | nil => exact hshape.elim
  | cons c name =>
    rw [List.cons_append, scanAt, if_pos hshape.1, takeWhile_run hshape.2 hrest,
      dropWhile_run hshape.2 hrest]

/-- A sign that starts nothing is an unknown lexeme by itself. -/
theorem scan_of_stray {c : Char} {rest : List Char} (h : Stray c rest) :
    scan c rest = (⟨.unknown, [c]⟩, rest) := by
  cases h with
  | slash hrest =>
    rw [scan_slash, scanSlash.eq_3]
    · rintro cs rfl
      exact (hrest _ rfl).1 rfl
    · rintro cs rfl
      exact (hrest _ rfl).2 rfl
  | atSign hrest =>
    cases rest with
    | nil => rfl
    | cons d rest =>
      rw [stops_cons_iff] at hrest
      rw [scan_at, scanAt, hrest]
      rfl
  | hyphen hrest =>
    rw [scan_hyphen, scanHyphen.eq_2]
    rintro cs rfl
    exact hrest _ rfl rfl
  | ruleless _ hc => exact scan_of_ruleless hc rest

/-- A lexeme that is legal before the rest is the one that `scan` takes. -/
theorem scan_of_legalBefore {l : Lexeme} {rest : List Char} (h : l.LegalBefore rest) {c : Char}
    {cs : List Char} (htext : l.text ++ rest = c :: cs) : scan c cs = (l, rest) := by
  cases h with
  | @whitespace text _ hshape hrest =>
    cases text with
    | nil => exact hshape.elim
    | cons d text =>
      rw [List.cons_append, List.cons.injEq] at htext
      obtain ⟨rfl, rfl⟩ := htext
      rw [scan_of_isBlank hshape.1, scanRun_run hshape.2 hrest]
  | newline =>
    cases htext
    rfl
  | lineComment hbody hrest =>
    cases htext
    exact (scan_slash _).trans (scanSlash_line hbody hrest)
  | closedComment _ hinside =>
    cases htext
    exact (scan_slash _).trans (scanSlash_closed hinside rest)
  | openComment hinside =>
    rw [List.append_nil] at htext
    cases htext
    exact (scan_slash _).trans (scanSlash_open hinside)
  | stringLiteral _ hbody =>
    rw [List.cons_append, List.append_assoc] at htext
    cases htext
    exact (scan_quote _).trans (scanQuote_closed hbody rest)
  | @numberLiteral text _ hshape hrest =>
    cases text with
    | nil => exact hshape.elim
    | cons d text =>
      rw [List.cons_append, List.cons.injEq] at htext
      obtain ⟨rfl, rfl⟩ := htext
      rw [scan_of_isDigit hshape.1, scanRun_run hshape.2 hrest]
  | keyword hkind hrest =>
    rw [scan_word (shape_of_mem hkind) hrest htext, String.ofList_toList, ofWord_of_mem hkind]
  | identifier hplain hrest =>
    rw [scan_word hplain.shape hrest htext, String.ofList_toList, ofWord_of_plain hplain]
  | @atName name _ hshape hrest =>
    cases htext
    have hname := scanAt_name hshape hrest
    rw [String.ofList_toList] at hname
    exact (scan_at _).trans hname
  | arrow =>
    cases htext
    rfl
  | punctuation _ hkind =>
    cases htext
    exact scan_of_mem_punctuation hkind rest
  | stray hstray =>
    cases htext
    exact scan_of_stray hstray
  | openString hbody hrest =>
    cases htext
    exact (scan_quote _).trans (scanQuote_open hbody hrest)

/-- The rules say exactly what `scan` takes. -/
theorem scan_eq_iff {c : Char} {cs : List Char} {l : Lexeme} {rest : List Char} :
    scan c cs = (l, rest) ↔ l.text ++ rest = c :: cs ∧ l.LegalBefore rest := by
  constructor
  · intro h
    have htext := scan_text_append c cs
    have hlegal := legalBefore_scan c cs
    rw [h] at htext hlegal
    exact ⟨htext, hlegal⟩
  · rintro ⟨htext, hlegal⟩
    exact scan_of_legalBefore hlegal htext

end ProtocolMocks
