import ProtocolMocks.Proofs.Printing
import ProtocolMocks.Proofs.QuietTokens

/-!
# Reading the members of a mock class

The texts that the lines of a mock class are made of are read as quiet tokens. An ending with a
capital letter keeps a name from becoming a keyword, and between two words there is always a mark or
a blank, so that they stay apart.
-/

namespace ProtocolMocks

open Token

/-- A plain identifier with an ending that has a capital letter in it is one again, since keywords
are written in small letters. -/
theorem PlainIdentifier.append {name ending : String} (h : PlainIdentifier name)
    (hpart : ending.toList.all isIdentifierPart = true)
    (hupper : ending.toList.any Char.isUpper = true) : PlainIdentifier (name ++ ending) where
  shape := by
    have hshape := h.shape
    rw [String.toList_append]
    cases hname : name.toList with
    | nil => simp [hname, Shape] at hshape
    | cons c cs =>
      rw [hname] at hshape
      exact ⟨hshape.1, List.forall_mem_append.2 ⟨hshape.2, List.all_eq_true.1 hpart⟩⟩
  not_keyword := by
    have hlower : ∀ word ∈ keywords.map Prod.fst, word.toList.any Char.isUpper = false := by decide
    intro hkeyword
    have hnone := hlower _ hkeyword
    rw [String.toList_append, List.any_append, hupper, Bool.or_true] at hnone
    cases hnone

/-- The text is read as fitting tokens in front of anything that does not continue its last word. -/
def Readable (Fits : List Token → Prop) (text : List Char) : Prop :=
  ∀ rest, Stops isIdentifierPart rest → ∃ shown, Fits shown ∧ Shows text shown rest

/-- The text is read as fitting tokens also behind a blank. -/
structure Legible (Fits : List Token → Prop) (text : List Char) : Prop where
  starts : ∀ rest, Stops isBlank (text ++ rest)
  readable : Readable Fits text

/-- What stops a run goes on doing so with more text behind it. -/
theorem Stops.append {inClass : Char → Bool} {text rest : List Char} (h : Stops inClass text)
    (hrest : Stops inClass rest) : Stops inClass (text ++ rest) := by
  cases text with
  | nil => exact hrest
  | cons c text =>
    rw [stops_cons_iff] at h
    exact stops_cons_iff.2 h

section

variable {text back : List Char}

/-- An empty text is read as no tokens. -/
theorem readable_nil : Readable Quiet [] := fun rest _ => ⟨[], .nil, shows_nil rest⟩

/-- Readable texts are readable next to each other if the second one does not continue the last word
of the first. -/
theorem Readable.append (h : Readable Quiet text) (hback : Readable Quiet back)
    (hstops : Stops isIdentifierPart back) : Readable Quiet (text ++ back) := by
  intro rest hrest
  obtain ⟨shownBack, hquietBack, hshowsBack⟩ := hback rest hrest
  obtain ⟨shown, hquiet, hshows⟩ := h (back ++ rest) (hstops.append hrest)
  exact ⟨shown ++ shownBack, hquiet.append hquietBack, hshows.append hshowsBack⟩

/-- A readable text may stand behind a legible one if it does not continue the last word. -/
theorem Legible.append (h : Legible Quiet text) (hback : Readable Quiet back)
    (hstops : Stops isIdentifierPart back) : Legible Quiet (text ++ back) where
  starts rest := by
    rw [List.append_assoc]
    exact h.starts _
  readable := h.readable.append hback hstops

/-- A legible text is readable behind a blank. -/
theorem Legible.space {Fits : List Token → Prop} (h : Legible Fits text) :
    Readable Fits (' ' :: text) := by
  intro rest hrest
  obtain ⟨shown, hfits, hshows⟩ := h.readable rest hrest
  exact ⟨shown, hfits, (shows_space (h.starts rest)).append hshows⟩

/-- The brace behind a header. -/
theorem Legible.opensBlock {Fits : List Token → Prop} {head : String}
    (h : Legible Fits head.toList) :
    Legible (fun shown => ∃ front, Fits front ∧ shown = front ++ [.leftBrace])
      (head ++ " \x7b").toList := by
  have htext : (head ++ " \x7b").toList = head.toList ++ ([' '] ++ ['{']) := by simp
  rw [htext]
  constructor
  · intro rest
    rw [List.append_assoc]
    exact h.starts _
  · intro rest _
    have hbrace := (shows_space (stops_cons_iff.2 rfl)).append
      (shows_mark '{' .leftBrace (by decide) rest)
    obtain ⟨front, hfront, hshows⟩ := h.readable (' ' :: '{' :: rest) (stops_cons_iff.2 rfl)
    exact ⟨_, ⟨front, hfront, rfl⟩, hshows.append hbrace⟩

/-- A plain identifier is legible. -/
theorem legible_name {name : String} (h : PlainIdentifier name) : Legible Quiet name.toList where
  starts := h.shape.stops_isBlank
  readable _ hrest := ⟨_, .cons rfl rfl .nil, shows_name h hrest⟩

/-- A keyword that may stand in a class is legible. -/
theorem legible_keyword (word : String) (kind : Token) (h : (word, kind) ∈ keywords)
    (hmember : kind.isMember = true) : Legible Quiet word.toList where
  starts := (shape_of_mem h).stops_isBlank
  readable _ hrest := by
    have hall : ∀ entry ∈ keywords, entry.2.isBracket = false := by decide
    exact ⟨_, .cons (hall _ h) hmember .nil, shows_keyword word kind h hrest⟩

/-- No punctuation mark is blank. -/
theorem not_isBlank_of_mem_punctuation {c : Char} {kind : Token} (h : (c, kind) ∈ punctuation) :
    isBlank c = false := by
  have hall : ∀ entry ∈ punctuation, isBlank entry.1 = false := by decide
  exact hall _ h

/-- A mark may stand in front of anything. -/
theorem Readable.mark (h : Readable Quiet text) (c : Char) (kind : Token)
    (hkind : (c, kind) ∈ punctuation) (hbracket : kind.isBracket = false) :
    Legible Quiet (c :: text) where
  starts _ := stops_cons_iff.2 (not_isBlank_of_mem_punctuation hkind)
  readable rest hrest := by
    have hall : ∀ entry ∈ punctuation, entry.2.isMember = true := by decide
    obtain ⟨shown, hquiet, hshows⟩ := h rest hrest
    exact ⟨_, .cons hbracket (hall _ hkind) hquiet, (shows_mark c kind hkind _).append hshows⟩

/-- A readable text in parentheses is legible. -/
theorem Readable.parens (h : Readable Quiet text) : Legible Quiet ('(' :: (text ++ [')'])) where
  starts _ := stops_cons_iff.2 rfl
  readable rest _ := by
    obtain ⟨shown, hquiet, hshows⟩ := h ([')'] ++ rest) (stops_cons_iff.2 rfl)
    have hclosing := hshows.append (shows_mark ')' .rightParen (by decide) rest)
    exact ⟨_, hquiet.parens, (shows_mark '(' .leftParen (by decide) _).append hclosing⟩

end

/-- The type of a property behind its name, with the mark behind the type. -/
theorem readable_typeClause {type : List Char} (h : Legible Quiet type) (c : Char) (kind : Token)
    (hkind : (c, kind) ∈ punctuation) (hbracket : kind.isBracket = false)
    (hstops : isIdentifierPart c = false) : Readable Quiet (':' :: ' ' :: (type ++ [c])) := by
  have hmark := readable_nil.mark c kind hkind hbracket
  have htype := h.append hmark.readable (stops_cons_iff.2 hstops)
  exact (htype.space.mark ':' .colon (by decide) rfl).readable

/-- The signature of a plain requirement is legible. -/
theorem legible_signature {r : Requirement} (h : r.Plain) : Legible Quiet r.signature.toList where
  starts := (prints_requirement h).starts
  readable rest hrest := by
    obtain ⟨kept, hspelled, hreads⟩ := (prints_requirement h).reads rest hrest
    exact ⟨_, hspelled.quiet, hreads.1⟩

/-- Named parts in parentheses, as in the type and in the value of a record, are written like
parameters without a label. -/
theorem legible_tuple {ps : List Parameter} {part : Parameter → String}
    (h : ∀ p ∈ ps, PlainIdentifier p.name ∧ PlainIdentifier (part p)) :
    Legible Quiet
      ("(" ++ ", ".intercalate (ps.map fun p => p.name ++ ": " ++ part p) ++ ")").toList := by
  have hplain : ∀ q ∈ ps.map fun p => (⟨none, p.name, part p⟩ : Parameter), q.Plain := by
    intro q hq
    obtain ⟨p, hp, rfl⟩ := List.mem_map.1 hq
    exact ⟨nofun, (h p hp).1, (h p hp).2⟩
  have hparts : Readable Quiet (", ".intercalate ((ps.map fun p =>
      (⟨none, p.name, part p⟩ : Parameter)).map Parameter.spelling)).toList := by
    intro rest hrest
    obtain ⟨kept, hps, hreads⟩ := readsAs_parameters hplain rest hrest
    exact ⟨_, hps.quiet, hreads.1⟩
  have htext := hparts.parens
  rw [List.map_map] at htext
  simpa [Parameter.spelling, Function.comp_def] using htext

section

variable {r : Requirement} (h : r.Plain)

include h

/-- The type of a record is legible: it is a name or a tuple of named types. -/
theorem legible_recordType : Legible Quiet r.recordType.toList := by
  have hparts : ∀ p ∈ r.parameters, PlainIdentifier p.name ∧ PlainIdentifier p.typeName :=
    fun p hp => ⟨(h.parameters p hp).name, (h.parameters p hp).typeName⟩
  unfold Requirement.recordType
  split
  · exact legible_name (by decide)
  · rename_i p hps
    exact legible_name (hparts p (by simp [hps])).2
  · exact legible_tuple hparts

/-- The value of a record is legible: it is a name or a tuple of named values. -/
theorem legible_recordValue : Legible Quiet r.recordValue.toList := by
  have hparts : ∀ p ∈ r.parameters, PlainIdentifier p.name ∧ PlainIdentifier p.name :=
    fun p hp => ⟨(h.parameters p hp).name, (h.parameters p hp).name⟩
  unfold Requirement.recordValue
  split
  · exact readable_nil.parens
  · rename_i p hps
    exact legible_name (hparts p (by simp [hps])).1
  · exact legible_tuple hparts

theorem legible_stubName : Legible Quiet r.stubName.toList :=
  legible_name (h.name.append (by decide) (by decide))

theorem legible_recordName : Legible Quiet r.recordName.toList :=
  legible_name (h.name.append (by decide) (by decide))

theorem legible_stubProperty : Legible Quiet r.stubProperty.toList := by
  have htype := readable_typeClause (legible_name h.returnType) '!' .bang (by decide) rfl rfl
  have hname := (legible_stubName h).append htype (stops_cons_iff.2 rfl)
  have hvar := legible_keyword "var" .varKeyword (by decide) rfl
  have hline := hvar.append hname.space (stops_cons_iff.2 rfl)
  simpa [Requirement.stubProperty] using hline

theorem legible_recordProperty : Legible Quiet r.recordProperty.toList := by
  have htype := readable_typeClause (legible_recordType h) '?' .question (by decide) rfl rfl
  have hname := (legible_recordName h).append htype (stops_cons_iff.2 rfl)
  have hvar := legible_keyword "var" .varKeyword (by decide) rfl
  have hproperty := hvar.append hname.space (stops_cons_iff.2 rfl)
  have hset : Legible Quiet "set".toList := legible_name (by decide)
  have hsetter := hset.readable.parens.append hproperty.space (stops_cons_iff.2 rfl)
  have hprivate := legible_keyword "private" .modifier (by decide) rfl
  have hline := hprivate.append hsetter.readable (stops_cons_iff.2 rfl)
  have htext : r.recordProperty =
      "private(set) var " ++ r.recordName ++ ": " ++ r.recordType ++ "?" := rfl
  rw [htext]
  simpa using hline

/-- The statement that records a call. -/
theorem legible_assignment : Legible Quiet (r.recordName ++ " = " ++ r.recordValue).toList := by
  have hvalue := (legible_recordValue h).space.mark '=' .equals (by decide) rfl
  have hline := (legible_recordName h).append hvalue.space (stops_cons_iff.2 rfl)
  simpa using hline

/-- The statement that gives the result back is legible. -/
theorem legible_return : Legible Quiet ("return " ++ r.stubName).toList := by
  have hreturn : Legible Quiet "return".toList := legible_name (by decide)
  have hline := hreturn.append (legible_stubName h).space (stops_cons_iff.2 rfl)
  simpa using hline

end

end ProtocolMocks
