import ProtocolMocks.Source
import ProtocolMocks.Proofs.Printing
import ProtocolMocks.Proofs.VoidClause

/-!
# Declarations survive printing

Printing declarations and reading the print back gives the same declarations, if all their names
are plain identifiers. What is read from a source always has such names, because the lexer makes no
other identifiers and neither the filter nor the grammar makes names of its own, `Void` apart.
-/

namespace ProtocolMocks

open Token

/-- Of printed declarations the filter keeps a spelling of them. -/
theorem spelled_printDeclarations {indent : String}
    (hindent : ∀ c ∈ indent.toList, isBlank c = true) {decls : List ProtocolDecl}
    (h : ∀ p ∈ decls, p.Plain) :
    Repeated ProtocolDecl.SpelledBy decls
      (keptTokens .outside (tokensOf (printDeclarations indent decls).toList)) := by
  induction decls with
  | nil =>
    have hempty : tokensOf (printDeclarations indent []).toList = [] := by
      simp [printDeclarations, tokensOf, lexemes]
    rw [hempty]
    exact .nil
  | cons p decls ih =>
    have hmore := ih fun q hq => h q (List.mem_cons_of_mem _ hq)
    have htext : (printDeclarations indent (p :: decls)).toList =
        (p.print indent).toList ++ (printDeclarations indent decls).toList := by
      simp [printDeclarations]
    obtain ⟨front, back, hfront, hback, htokens, hspelled⟩ :=
      tokensOf_print hindent (h p List.mem_cons_self) (printDeclarations indent decls).toList
    rw [htext, htokens, keptTokens_region hfront hback]
    exact .cons hspelled hmore

/-- Plain declarations are read back from their print. -/
theorem declarations_printDeclarations {indent : String}
    (hindent : ∀ c ∈ indent.toList, isBlank c = true) {decls : List ProtocolDecl}
    (h : ∀ p ∈ decls, p.Plain) :
    Source.declarations (printDeclarations indent decls) = .ok decls := by
  refine parseDeclarations_of_spelled ?_
  rw [Source.map_value_structuralTokens]
  exact spelled_printDeclarations hindent h

/-- The name of a legal identifier is plain. -/
theorem Lexeme.LegalBefore.plainIdentifier {name : String} {text rest : List Char}
    (h : Lexeme.LegalBefore ⟨.identifier name, text⟩ rest) : PlainIdentifier name := by
  cases h with
  | keyword hkind => simp [keywords] at hkind
  | identifier hplain => exact hplain
  | punctuation _ hkind => simp [Token.punctuation] at hkind

/-- The names that reach the parser are plain identifiers. -/
theorem plainIdentifier_of_mem_structuralTokens {source name : String}
    (h : .identifier name ∈ (Source.structuralTokens source).map Located.value) :
    PlainIdentifier name := by
  rw [Source.map_value_structuralTokens] at h
  have htoken : Token.identifier name ∈ (tokenize source).map Located.value := by
    rw [tokenize, map_value_locate]
    exact mem_of_mem_keptTokens h
  obtain ⟨token, hmem, hvalue⟩ := List.mem_map.1 htoken
  obtain ⟨before, text, after, _, _, hlegal⟩ :=
    (tiling_locate_lexemes source.toList 0).exists_split hmem
  rw [hvalue] at hlegal
  exact hlegal.plainIdentifier

/-- The type of a function without a result has a plain name. -/
theorem plainIdentifier_voidType : PlainIdentifier voidType where
  shape := by decide
  not_keyword := by decide

section

variable {tokens : List StructuralToken}

/-- All identifiers among the tokens are plain. -/
def PlainNames (tokens : List StructuralToken) : Prop :=
  ∀ name, .identifier name ∈ tokens → PlainIdentifier name

/-- Fewer tokens still have plain names. -/
theorem PlainNames.mono {part : List StructuralToken} (h : PlainNames tokens)
    (hsubset : part ⊆ tokens) : PlainNames part :=
  fun name hname => h name (hsubset hname)

/-- Each of several items is spelled by some of the tokens. -/
theorem Repeated.exists_of_mem {α : Type} {Item : α → List StructuralToken → Prop}
    {values : List α} (h : Repeated Item values tokens) {value : α} (hvalue : value ∈ values) :
    ∃ part, Item value part ∧ part ⊆ tokens := by
  induction h with
  | nil => cases hvalue
  | @cons item items front back hitem _ ih =>
    rcases List.mem_cons.1 hvalue with rfl | hlater
    · exact ⟨front, hitem, List.subset_append_left front back⟩
    · obtain ⟨part, hpart, hsubset⟩ := ih hlater
      exact ⟨part, hpart, List.subset_append_of_subset_right front hsubset⟩

/-- Each item of a list is spelled by some of the tokens. -/
theorem CommaSeparated.exists_of_mem {α : Type} {Item : α → List StructuralToken → Prop}
    {values : List α} (h : CommaSeparated Item values tokens) {value : α}
    (hvalue : value ∈ values) : ∃ part, Item value part ∧ part ⊆ tokens := by
  induction h with
  | @single item tokens hitem =>
    rw [List.mem_singleton.1 hvalue]
    exact ⟨tokens, hitem, List.Subset.refl tokens⟩
  | @cons item items front back hitem _ ih =>
    rcases List.mem_cons.1 hvalue with rfl | hlater
    · exact ⟨front, hitem, List.subset_append_left front _⟩
    · obtain ⟨part, hpart, hsubset⟩ := ih hlater
      refine ⟨part, hpart, List.subset_append_of_subset_right front ?_⟩
      exact List.subset_cons_of_subset _ hsubset

/-- A parameter that is spelled with plain names is plain. -/
theorem Parameter.SpelledBy.plain {p : Parameter} (h : p.SpelledBy tokens)
    (hnames : PlainNames tokens) : p.Plain := by
  cases h with
  | unlabelled name typeName =>
    refine ⟨?_, hnames name (by simp), hnames typeName (by simp)⟩
    intro label hlabel
    cases hlabel
  | labelled label name typeName =>
    refine ⟨?_, hnames name (by simp), hnames typeName (by simp)⟩
    intro label' hlabel
    cases hlabel
    exact hnames label (by simp)

theorem Requirement.SpelledBy.plain {r : Requirement} (h : r.SpelledBy tokens)
    (hnames : PlainNames tokens) : r.Plain := by
  obtain ⟨hps, hclause⟩ := h
  rename_i name ps result inside clause
  refine ⟨hnames name (by simp), fun p hp => ?_, ?_⟩
  · cases hps with
    | empty => cases hp
    | list hlist =>
      obtain ⟨part, hpart, hsubset⟩ := hlist.exists_of_mem hp
      refine hpart.plain (hnames.mono fun t ht => ?_)
      simp [hsubset ht]
  · cases hclause with
    | omitted => exact plainIdentifier_voidType
    | written => exact hnames result (by simp)

theorem ProtocolDecl.SpelledBy.plain {p : ProtocolDecl} (h : p.SpelledBy tokens)
    (hnames : PlainNames tokens) : p.Plain := by
  obtain ⟨hclause, hbody⟩ := h
  rename_i name rs names clause body
  refine ⟨hnames name (by simp), fun r hr => ?_, fun conformance hconformance => ?_⟩
  · obtain ⟨part, hpart, hsubset⟩ := hbody.exists_of_mem hr
    refine hpart.plain (hnames.mono fun t ht => ?_)
    simp [hsubset ht]
  · cases hclause with
    | omitted => cases hconformance
    | written hlist =>
      obtain ⟨part, ⟨_⟩, hsubset⟩ := hlist.exists_of_mem hconformance
      have hmem := hsubset (List.mem_singleton.2 rfl)
      exact hnames conformance (by simp [hmem])

end

/-- Whatever is read from a source has plain names. -/
theorem plain_of_declarations {source : String} {decls : List ProtocolDecl}
    (h : Source.declarations source = .ok decls) : ∀ p ∈ decls, p.Plain := by
  intro p hp
  have hspelled := spelled_of_parseDeclarations h
  obtain ⟨part, hpart, hsubset⟩ := hspelled.exists_of_mem hp
  refine hpart.plain fun name hname => ?_
  exact plainIdentifier_of_mem_structuralTokens (hsubset hname)

/-- Plain declarations are what reading their print gives, and only plain declarations are ever
read, so that printing and reading again changes nothing. -/
theorem declarations_survive_printing {indent : String}
    (hindent : ∀ c ∈ indent.toList, isBlank c = true) :
    (∀ decls : List ProtocolDecl, (∀ p ∈ decls, p.Plain) →
      Source.declarations (printDeclarations indent decls) = .ok decls) ∧
    ∀ source decls, Source.declarations source = .ok decls →
      (∀ p ∈ decls, p.Plain) ∧
        Source.declarations (printDeclarations indent decls) = .ok decls := by
  constructor
  · intro decls h
    exact declarations_printDeclarations hindent h
  · intro source decls h
    have hplain := plain_of_declarations h
    exact ⟨hplain, declarations_printDeclarations hindent hplain⟩

/-- A protocol with conformances, a label and a method that returns nothing. -/
def greeter : ProtocolDecl where
  name := "Greeter"
  requirements :=
    [⟨"greet", [⟨some "for", "person", "Person"⟩, ⟨none, "loudly", "Bool"⟩], "String"⟩,
      ⟨"stop", [], voidType⟩]
  conformances := ["Named", "Named"]

/-- A protocol with two functions is printed and read again. -/
theorem greeter_survives_printing :
    (∀ c ∈ "  ".toList, isBlank c = true) ∧ greeter.Plain ∧
      Source.declarations (printDeclarations "  " [greeter]) = .ok [greeter] := by
  have hindent : ∀ c ∈ "  ".toList, isBlank c = true := by simp [isBlank]
  have hplain : ∀ p ∈ [greeter], p.Plain := by decide
  exact ⟨hindent, by decide, (declarations_survive_printing hindent).1 [greeter] hplain⟩

end ProtocolMocks
