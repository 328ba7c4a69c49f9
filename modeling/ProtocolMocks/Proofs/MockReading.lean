import ProtocolMocks.Source
import ProtocolMocks.Proofs.Adjacency
import ProtocolMocks.Proofs.MemberReading
import ProtocolMocks.Proofs.PageText
import ProtocolMocks.Proofs.RoundTrip

/-!
# Mocks read back

A mock class is read as its keyword, its name and quiet tokens, because the lines of its page are
and the braces of its blocks fit. The generated text therefore lists the mock classes as the only
types, and the generator finds no protocol in its own output.
-/

namespace ProtocolMocks

open Token

/-- What the steps add to a page is read as fitting tokens, at any level of indentation and whatever
follows. -/
def StepsReadable (indent : String) (Fits : List Token → Prop) (steps : List PageStep) : Prop :=
  ∀ level rest, ∃ shown, Fits shown ∧
    Shows (PageStep.allAdded indent level steps).toList shown rest

section

variable {indent : String}

theorem stepsReadable_nil : StepsReadable indent Quiet [] :=
  fun _ rest => ⟨[], .nil, shows_nil rest⟩

/-- An empty line is readable, as it shows no tokens. -/
theorem stepsReadable_blank : StepsReadable indent Quiet [.blank] := by
  intro level rest
  refine ⟨[], .nil, ?_⟩
  simpa [PageStep.allAdded, PageStep.added] using shows_newline rest

/-- Readable steps are readable next to each other. -/
theorem StepsReadable.append {front back : List PageStep} (h : StepsReadable indent Quiet front)
    (hback : StepsReadable indent Quiet back) : StepsReadable indent Quiet (front ++ back) := by
  intro level rest
  obtain ⟨shownBack, hquietBack, hshowsBack⟩ :=
    hback (front.foldl PageStep.levelAfter level) rest
  obtain ⟨shown, hquiet, hshows⟩ := h level (_ ++ rest)
  refine ⟨shown ++ shownBack, hquiet.append hquietBack, ?_⟩
  rw [PageStep.allAdded_append, String.toList_append]
  exact hshows.append hshowsBack

/-- Steps in groups, with an empty line between neighbours. -/
theorem stepsReadable_intercalate {groups : List (List PageStep)}
    (h : ∀ steps ∈ groups, StepsReadable indent Quiet steps) :
    StepsReadable indent Quiet ([PageStep.blank].intercalate groups) := by
  induction groups with
  | nil => exact stepsReadable_nil
  | cons steps groups ih =>
    obtain ⟨hsteps, hgroups⟩ := List.forall_mem_cons.1 h
    cases groups with
    | nil =>
      rw [List.intercalate_singleton]
      exact hsteps
    | cons next groups =>
      rw [List.intercalate_cons_cons]
      exact (hsteps.append stepsReadable_blank).append (ih hgroups)

variable (hindent : ∀ c ∈ indent.toList, isBlank c = true)

include hindent

/-- Indentation is spacing. -/
theorem shows_indented {text : String} {shown : List Token} {rest : List Char}
    (hstarts : Stops isBlank (text.toList ++ '\n' :: rest))
    (h : Shows text.toList shown ('\n' :: rest)) (level : Nat) :
    Shows (Page.indented indent level text).toList shown rest := by
  have hblanks : ∀ c ∈ (String.join (List.replicate level indent)).toList, isBlank c = true := by
    intro c hc
    rw [String.toList_join, List.mem_flatMap] at hc
    obtain ⟨part, hpart, hc⟩ := hc
    rw [List.eq_of_mem_replicate hpart] at hc
    exact hindent c hc
  have htext : (Page.indented indent level text).toList =
      (String.join (List.replicate level indent)).toList ++ (text.toList ++ ['\n']) := by
    simp [Page.indented]
  have hline := h.append (shows_newline rest)
  rw [List.append_nil] at hline
  rw [htext]
  refine (shows_blanks hblanks ?_).append hline
  rw [List.append_assoc]
  exact hstarts

/-- A line with a legible text is readable. -/
theorem stepsReadable_line {text : String} (h : Legible Quiet text.toList) :
    StepsReadable indent Quiet [.line text] := by
  intro level rest
  obtain ⟨shown, hquiet, hshows⟩ := h.readable ('\n' :: rest) (stops_cons_iff.2 rfl)
  refine ⟨shown, hquiet, ?_⟩
  have hline := shows_indented hindent (h.starts _) hshows level
  simpa [PageStep.allAdded, PageStep.added] using hline

theorem stepsReadable_lines {α : Type} {text : α → String} {items : List α}
    (h : ∀ item ∈ items, Legible Quiet (text item).toList) :
    StepsReadable indent Quiet (items.map (.line <| text ·)) := by
  induction items with
  | nil => exact stepsReadable_nil
  | cons item items ih =>
    obtain ⟨hitem, hitems⟩ := List.forall_mem_cons.1 h
    exact (stepsReadable_line hindent hitem).append (ih hitems)

/-- A block is read as what opens it and, in braces, what its body is read as. -/
theorem stepsReadable_block {Fits : List Token → Prop}
    (hextend : ∀ front back, Fits front → Quiet back → Fits (front ++ back)) {head : String}
    (hhead : Legible Fits head.toList) {body : List PageStep}
    (hbody : StepsReadable indent Quiet body) :
    StepsReadable indent Fits (.openBlock (head ++ " \x7b") :: body ++ [.closeBlock "\x7d"]) := by
  intro level rest
  have hopens := hhead.opensBlock
  generalize hafter : body.foldl PageStep.levelAfter (level + 1) - 1 = after
  have hbrace : Shows "\x7d".toList [.rightBrace] ('\n' :: rest) :=
    shows_mark '}' .rightBrace (by decide) ('\n' :: rest)
  have hclosing := shows_indented hindent (stops_cons_iff.2 rfl) hbrace after
  obtain ⟨inside, hinside, hshowsInside⟩ :=
    hbody (level + 1) ((Page.indented indent after "\x7d").toList ++ rest)
  have hbehind := hshowsInside.append hclosing
  obtain ⟨_, ⟨front, hfront, rfl⟩, hshowsFront⟩ :=
    hopens.readable ('\n' :: _) (stops_cons_iff.2 rfl)
  have hblock := (shows_indented hindent (hopens.starts _) hshowsFront level).append hbehind
  refine ⟨_, hextend front _ hfront hinside.braces, ?_⟩
  simpa [PageStep.allAdded, PageStep.added, PageStep.allAdded_append, PageStep.levelAfter, hafter]
    using hblock

/-- The steps for a method of a plain requirement are readable. -/
theorem stepsReadable_method {r : Requirement} (h : r.Plain) :
    StepsReadable indent Quiet (Mock.method r) := by
  have hassignment := stepsReadable_line hindent (legible_assignment h)
  have hreturn : StepsReadable indent Quiet
      (if r.returnsValue then [.line ("return " ++ r.stubName)] else []) := by
    split
    · exact stepsReadable_line hindent (legible_return h)
    · exact stepsReadable_nil
  exact stepsReadable_block hindent (fun _ _ => Quiet.append) (legible_signature h)
    (hassignment.append hreturn)

/-- The steps for the members of a plain protocol are readable, group by group. -/
theorem stepsReadable_groups {p : ProtocolDecl} (h : p.Plain) :
    ∀ steps ∈ Mock.groups p, StepsReadable indent Quiet steps := by
  refine Mock.forall_mem_groups ?_ ?_ ?_
  · refine stepsReadable_lines hindent fun r hr => ?_
    exact legible_stubProperty (h.requirements r (List.mem_filter.1 hr).1)
  · exact stepsReadable_lines hindent fun r hr => legible_recordProperty (h.requirements r hr)
  · exact fun r hr => stepsReadable_method hindent (h.requirements r hr)

end

/-- The tokens of a class: the keyword, the name and quiet ones. -/
def ClassTokens (name : String) (tokens : List Token) : Prop :=
  ∃ behind, Quiet behind ∧ tokens = .typeKeyword .classType :: .identifier name :: behind

/-- More quiet tokens may stand behind those of a class. -/
theorem ClassTokens.append {name : String} {front back : List Token} (h : ClassTokens name front)
    (hback : Quiet back) : ClassTokens name (front ++ back) := by
  obtain ⟨behind, hbehind, rfl⟩ := h
  exact ⟨behind ++ back, hbehind.append hback, rfl⟩

/-- The brackets of a class are nested. -/
theorem ClassTokens.nested {name : String} {tokens : List Token} (h : ClassTokens name tokens) :
    Nested tokens := by
  obtain ⟨behind, hbehind, rfl⟩ := h
  exact .cons rfl (.cons rfl hbehind.nested)

/-- The keyword of the class is the only one that declares a type. -/
theorem ClassTokens.of_mem {name : String} {tokens : List Token} (h : ClassTokens name tokens) :
    ∀ t ∈ tokens, t = .typeKeyword .classType ∨ t.isMember = true := by
  obtain ⟨behind, hbehind, rfl⟩ := h
  refine List.forall_mem_cons.2 ⟨.inl rfl, List.forall_mem_cons.2 ⟨.inr rfl, fun t ht => ?_⟩⟩
  exact .inr (hbehind.members t ht)

/-- The keyword, a name and something readable make up a legible class. -/
theorem legible_class {name : String} (h : PlainIdentifier name) {back : List Char}
    (hback : Readable Quiet back) (hstops : Stops isIdentifierPart back) :
    Legible (ClassTokens name) ("class".toList ++ ' ' :: (name.toList ++ back)) where
  starts _ := stops_cons_iff.2 rfl
  readable rest hrest := by
    obtain ⟨behind, hbehind, hshowsBack⟩ := hback rest hrest
    have hname := (shows_name h (hstops.append hrest)).append hshowsBack
    have hspace : Shows [' '] [] (name.toList ++ back ++ rest) := by
      refine shows_space ?_
      rw [List.append_assoc]
      exact h.shape.stops_isBlank _
    refine ⟨_, ⟨behind, hbehind, rfl⟩, ?_⟩
    exact (shows_keyword "class" (.typeKeyword .classType) (by decide)
      (stops_cons_iff.2 rfl)).append (hspace.append hname)

section

variable {options : MockOptions} {p : ProtocolDecl} (h : p.Plain)
  (hname : PlainIdentifier (p.name ++ options.suffix))

include h hname

/-- The header of a mock is legible, with the protocol that it conforms to or without. -/
theorem legible_header : Legible (ClassTokens (p.name ++ options.suffix))
    ("class " ++ p.name ++ options.suffix ++
      if options.conformToProtocol then ": " ++ p.name else "").toList := by
  have hclause : Readable Quiet (if options.conformToProtocol then ": " ++ p.name else "").toList ∧
      Stops isIdentifierPart (if options.conformToProtocol then ": " ++ p.name else "").toList := by
    split
    · have hcolon := (legible_name h.name).space.mark ':' .colon (by decide) rfl
      rw [String.toList_append]
      exact ⟨hcolon.readable, stops_cons_iff.2 rfl⟩
    · exact ⟨readable_nil, stops_nil _⟩
  have hclass := legible_class hname hclause.1 hclause.2
  simpa using hclass

/-- The steps for a whole mock are readable as a class. -/
theorem stepsReadable_class (hindent : ∀ c ∈ options.indent.toList, isBlank c = true) :
    StepsReadable options.indent (ClassTokens (p.name ++ options.suffix))
      (Mock.steps options p) :=
  stepsReadable_block hindent (fun _ _ => ClassTokens.append) (legible_header h hname)
    (stepsReadable_intercalate (stepsReadable_groups hindent h))

end

/-- The tokens of the mock classes of some protocols. -/
inductive MockTokens (suffix : String) : List ProtocolDecl → List Token → Prop
  | nil : MockTokens suffix [] []
  | cons {p ps front back} : ClassTokens (p.name ++ suffix) front → MockTokens suffix ps back →
      MockTokens suffix (p :: ps) (front ++ back)

namespace MockTokens

variable {suffix : String} {ps : List ProtocolDecl} {tokens : List Token}

/-- The brackets of mocks are nested. -/
theorem nested (h : MockTokens suffix ps tokens) : Nested tokens := by
  induction h with
  | nil => exact .nil
  | cons hclass _ ih => exact hclass.nested.append ih

/-- The keywords of the classes are the only tokens of mocks that declare types. -/
theorem of_mem (h : MockTokens suffix ps tokens) :
    ∀ t ∈ tokens, t = .typeKeyword .classType ∨ t.isMember = true := by
  induction h with
  | nil => exact List.forall_mem_nil _
  | cons hclass _ ih => exact List.forall_mem_append.2 ⟨hclass.of_mem, ih⟩

end MockTokens

/-- Members have no part in the listing of type names. -/
theorem typeNamesAfter_append_of_members {front : List Token} (h : ∀ t ∈ front, t.isMember = true)
    (back : List Token) : typeNamesAfter none (front ++ back) = typeNamesAfter none back := by
  induction front with
  | nil => rfl
  | cons t front ih =>
    obtain ⟨ht, hfront⟩ := List.forall_mem_cons.1 h
    have hnone : nameBetween? (some t) (front ++ back).head? = none := by
      cases t <;> first | rfl | cases ht
    rw [List.cons_append, typeNamesAfter_cons, hnone, ih hfront]
    rfl

/-- Mocks list their classes, in order, and no other types. -/
theorem MockTokens.typeNamesAfter_eq {suffix : String} {ps : List ProtocolDecl}
    {tokens : List Token} (h : MockTokens suffix ps tokens) :
    typeNamesAfter none tokens = ps.map fun p => ⟨.classType, p.name ++ suffix⟩ := by
  induction h with
  | nil => rfl
  | @cons p ps _ back hclass _ ih =>
    obtain ⟨behind, hbehind, rfl⟩ := hclass
    have hname : typeNamesAfter none
        (.typeKeyword .classType :: .identifier (p.name ++ suffix) :: (behind ++ back)) =
          ⟨.classType, p.name ++ suffix⟩ :: typeNamesAfter none (behind ++ back) := rfl
    rw [List.cons_append, List.cons_append, hname,
      typeNamesAfter_append_of_members hbehind.members, ih]
    rfl

/-- Mocks with empty lines between them are read as the tokens of their classes. -/
theorem exists_mockTokens {options : MockOptions}
    (hindent : ∀ c ∈ options.indent.toList, isBlank c = true) {ps : List ProtocolDecl}
    (hplain : ∀ p ∈ ps, p.Plain) (hname : ∀ p ∈ ps, PlainIdentifier (p.name ++ options.suffix))
    (rest : List Char) :
    ∃ shown, MockTokens options.suffix ps shown ∧
      Shows ("\n".intercalate (ps.map (Mock.render options))).toList shown rest := by
  induction ps with
  | nil => exact ⟨[], .nil, shows_nil rest⟩
  | cons p ps ih =>
    obtain ⟨hp, hps⟩ := List.forall_mem_cons.1 hplain
    obtain ⟨hpName, hpsName⟩ := List.forall_mem_cons.1 hname
    obtain ⟨back, hback, hshowsBack⟩ := ih hps hpsName
    have hclass := stepsReadable_class hp hpName hindent 0
    rw [← Mock.render_eq_allAdded] at hclass
    cases ps with
    | nil =>
      obtain ⟨front, hfront, hshowsFront⟩ := hclass rest
      refine ⟨front ++ [], .cons hfront .nil, ?_⟩
      rw [List.append_nil, List.map_singleton, String.intercalate_singleton]
      exact hshowsFront
    | cons q qs =>
      have hgap := (shows_newline _).append hshowsBack
      obtain ⟨front, hfront, hshowsFront⟩ := hclass (['\n'] ++ _ ++ rest)
      refine ⟨front ++ back, .cons hfront hback, ?_⟩
      rw [List.map_cons, List.map_cons, String.intercalate_cons_cons]
      simpa using hshowsFront.append hgap

/-- The tokens of the generated text, spacing aside, are those of the mock classes. -/
theorem mockTokens_generate {options : MockOptions}
    (hindent : ∀ c ∈ options.indent.toList, isBlank c = true) {ps : List ProtocolDecl}
    (hplain : ∀ p ∈ ps, p.Plain) (hname : ∀ p ∈ ps, PlainIdentifier (p.name ++ options.suffix)) :
    MockTokens options.suffix (Mock.selected options ps)
      (((tokenize (Mock.generate options ps)).map Located.value).filter (!·.isSpacing)) := by
  have hselected : ∀ p ∈ Mock.selected options ps, p ∈ ps := fun p hp => (List.mem_filter.1 hp).1
  obtain ⟨shown, hmocks, tokens, htokens, rfl⟩ :=
    exists_mockTokens hindent (fun p hp => hplain p (hselected p hp))
      (fun p hp => hname p (hselected p hp)) []
  have hnil : tokensOf [] = [] := by simp [tokensOf, lexemes]
  rw [hnil, List.append_nil, List.append_nil] at htokens
  rw [tokenize, map_value_locate, ← tokensOf, Mock.generate, htokens]
  exact hmocks

section

variable {suffix : String} {ps : List ProtocolDecl} {text : String}
  (h : MockTokens suffix ps (((tokenize text).map Located.value).filter (!·.isSpacing)))

include h

/-- Each token of a text of mocks is spacing, the keyword of a class or a member. -/
theorem MockTokens.value_cases {token : Located Token} (htoken : token ∈ tokenize text) :
    token.value.isSpacing = true ∨ token.value = .typeKeyword .classType ∨
      token.value.isMember = true := by
  by_cases hspacing : token.value.isSpacing = true
  · exact .inl hspacing
  · refine .inr (h.of_mem _ (List.mem_filter.2 ⟨List.mem_map_of_mem htoken, ?_⟩))
    simpa using hspacing

/-- In a text of mocks there are no unknown tokens, string literals, comments or `protocol`
keywords. -/
theorem MockTokens.value_notMem {token : Located Token} (htoken : token ∈ tokenize text) :
    token.value ∉ [.unknown, .stringLiteral, .lineComment, .blockComment, .protocolKeyword] := by
  intro hvalue
  have hcases := h.value_cases htoken
  simp only [List.mem_cons, List.not_mem_nil, or_false] at hvalue
  rcases hvalue with hvalue | hvalue | hvalue | hvalue | hvalue <;>
    simp [hvalue, isSpacing, isMember] at hcases

/-- A text of mocks lists the classes of the mocks, in order. -/
theorem MockTokens.typeNames_eq :
    Source.typeNames text = ps.map fun p => ⟨.classType, p.name ++ suffix⟩ := by
  have hfilter : ((tokenize text).map Located.value).filter (!·.isTrivia) =
      ((tokenize text).map Located.value).filter (!·.isSpacing) := by
    refine List.filter_congr fun t ht => ?_
    obtain ⟨token, htoken, rfl⟩ := List.mem_map.1 ht
    have hcomment := h.value_notMem htoken
    cases hvalue : token.value <;> simp_all [isTrivia, isSpacing]
  rw [Source.typeNames, typeNames, hfilter, h.typeNamesAfter_eq]

/-- The filter keeps nothing of a text of mocks, since there is no `protocol` in it. -/
theorem MockTokens.structuralTokens_eq_nil : Source.structuralTokens text = [] := by
  have hnone : .protocolKeyword ∉ (tokenize text).map Located.value := by
    intro hmem
    obtain ⟨token, htoken, hvalue⟩ := List.mem_map.1 hmem
    exact h.value_notMem htoken (by simp [hvalue])
  have hkept := keptTokens_outside_of_not_mem hnone
  rwa [← map_value_structuralTokens, List.map_eq_nil_iff] at hkept

end

/-- Generated mocks are read as mock classes and nothing else: their brackets are nested, they list
one class for each selected protocol, and there is no protocol among them. -/
theorem mocks_read_back {options : MockOptions} (hsuffix : options.suffix = "Mock")
    (hindent : ∀ c ∈ options.indent.toList, c = ' ' ∨ c = '\t') {source : String}
    {decls : List ProtocolDecl} (h : Source.declarations source = .ok decls) :
    ∃ text, Source.mocks options source = .ok text ∧
      (∀ token ∈ tokenize text, token.value ∉
        [.unknown, .stringLiteral, .lineComment, .blockComment, .protocolKeyword]) ∧
      Nested ((tokenize text).map Located.value) ∧
      Source.typeNames text =
        (Mock.selected options decls).map (fun p => ⟨.classType, p.name ++ "Mock"⟩) ∧
      Source.structuralTokens text = [] ∧ Source.declarations text = .ok [] := by
  have hblank : ∀ c ∈ options.indent.toList, isBlank c = true := by
    intro c hc
    rcases hindent c hc with rfl | rfl <;> rfl
  have hplain := plain_of_declarations h
  have hname : ∀ p ∈ decls, PlainIdentifier (p.name ++ options.suffix) := by
    intro p hp
    rw [hsuffix]
    exact (hplain p hp).name.append (by decide) (by decide)
  have hmocks := mockTokens_generate hblank hplain hname
  have hnone := hmocks.structuralTokens_eq_nil
  refine ⟨Mock.generate options decls, ?_, fun token htoken => hmocks.value_notMem htoken,
    hmocks.nested.of_filter, ?_, hnone, ?_⟩
  · rw [Source.mocks, h]
    rfl
  · rw [hmocks.typeNames_eq, hsuffix]
  · rw [Source.declarations, hnone]
    exact parseDeclarations_of_spelled .nil

/-- Of two protocols, the one that conforms to the marker has a mock. -/
theorem greeter_mock_read_back :
    Source.declarations (printDeclarations "  " [greeter, ⟨"Class", [], []⟩]) =
      .ok [greeter, ⟨"Class", [], []⟩] ∧
    ∃ text, Source.mocks { marker := "Named", indent := "\t" }
        (printDeclarations "  " [greeter, ⟨"Class", [], []⟩]) = .ok text ∧
      (∀ token ∈ tokenize text, token.value ∉
        [.unknown, .stringLiteral, .lineComment, .blockComment, .protocolKeyword]) ∧
      Nested ((tokenize text).map Located.value) ∧
      Source.typeNames text = [⟨.classType, "GreeterMock"⟩] ∧
      Source.structuralTokens text = [] ∧ Source.declarations text = .ok [] := by
  have hindent : ∀ c ∈ "  ".toList, isBlank c = true := by simp [isBlank]
  have hdecls : Source.declarations (printDeclarations "  " [greeter, ⟨"Class", [], []⟩]) =
      .ok [greeter, ⟨"Class", [], []⟩] := declarations_printDeclarations hindent (by decide)
  exact ⟨hdecls, @mocks_read_back { marker := "Named", indent := "\t" } rfl (by simp) _ _ hdecls⟩

end ProtocolMocks
