import ProtocolMocks.Mock

/-!
# The text of a page

What a step adds to a page depends on the indent and the level of the page, not on its text. The
text of a page is therefore what its steps add, one after the other, and a mock class, which starts
with a header, always has text.
-/

namespace ProtocolMocks

namespace PageStep

/-- The level of indentation after a step. -/
def levelAfter (level : Nat) : PageStep → Nat
  | .openBlock _ => level + 1
  | .closeBlock _ => level - 1
  | .line _ | .blank => level

/-- What a step adds to a page at a level of indentation. -/
def added (indent : String) (level : Nat) : PageStep → String
  | .line text | .openBlock text => Page.indented indent level text
  | .closeBlock text => Page.indented indent (level - 1) text
  | .blank => "\n"

/-- What steps add to a page, the first at the given level. -/
def allAdded (indent : String) : Nat → List PageStep → String
  | _, [] => ""
  | level, step :: steps =>
    step.added indent level ++ allAdded indent (step.levelAfter level) steps

/-- Steps in a row add what each adds, the second ones from the level that is left. -/
theorem allAdded_append (indent : String) (level : Nat) (front back : List PageStep) :
    allAdded indent level (front ++ back) =
      allAdded indent level front ++ allAdded indent (front.foldl levelAfter level) back := by
  induction front generalizing level with
  | nil => simp [allAdded]
  | cons step front ih =>
    rw [List.cons_append, allAdded, allAdded, ih, List.foldl_cons, String.append_assoc]

end PageStep

namespace Page

/-- All that a step does to a page: it changes the level and appends to the text. -/
theorem write_eq (page : Page) (step : PageStep) :
    page.write step =
      ⟨page.indent, step.levelAfter page.level,
        page.text ++ step.added page.indent page.level⟩ := by
  cases step <;> rfl

/-- Steps keep the indent, move the level one after the other and add their texts. -/
theorem writeAll_eq (page : Page) (steps : List PageStep) :
    page.writeAll steps = ⟨page.indent, steps.foldl PageStep.levelAfter page.level,
      page.text ++ PageStep.allAdded page.indent page.level steps⟩ := by
  induction steps generalizing page with
  | nil => simp [writeAll, PageStep.allAdded]
  | cons step steps ih =>
    have hrest := ih (page.write step)
    rw [writeAll] at hrest
    rw [writeAll, List.foldl_cons, hrest, write_eq, List.foldl_cons, PageStep.allAdded,
      String.append_assoc]

/-- A page holds what it held before the steps and what they add. -/
theorem text_writeAll (page : Page) (steps : List PageStep) :
    (page.writeAll steps).text = page.text ++ PageStep.allAdded page.indent page.level steps := by
  rw [writeAll_eq]

end Page

namespace Mock

/-- What holds of the properties and of every method holds of all groups. -/
theorem forall_mem_groups {P : List PageStep → Prop} {p : ProtocolDecl}
    (hstubs : P ((p.requirements.filter Requirement.returnsValue).map (.line ·.stubProperty)))
    (hrecords : P (p.requirements.map (.line ·.recordProperty)))
    (hmethods : ∀ r ∈ p.requirements, P (method r)) : ∀ steps ∈ groups p, P steps := by
  rw [groups]
  refine List.forall_mem_append.2 ⟨fun steps hsteps => ?_, List.forall_mem_map.2 hmethods⟩
  have hgroup := (List.mem_filter.1 hsteps).1
  simp only [List.mem_cons, List.not_mem_nil, or_false] at hgroup
  rcases hgroup with rfl | rfl
  · exact hstubs
  · exact hrecords

variable (options : MockOptions)

/-- The text of a mock is what its steps add to an empty page. -/
theorem render_eq_allAdded (p : ProtocolDecl) :
    render options p = PageStep.allAdded options.indent 0 (steps options p) := by
  rw [render, Page.text_writeAll, Page.empty, String.empty_append]

/-- The text of a mock is never empty. -/
theorem render_ne_empty (p : ProtocolDecl) : render options p ≠ "" := by
  rw [render_eq_allAdded, steps]
  simp [PageStep.allAdded, PageStep.added, Page.indented]

/-- Without a selected protocol, and only then, there is no text at all. -/
theorem generate_eq_empty_iff (ps : List ProtocolDecl) :
    generate options ps = "" ↔ selected options ps = [] := by
  rw [generate]
  constructor
  · intro h
    cases hps : selected options ps with
    | nil => rfl
    | cons p qs =>
      rw [hps, List.map_cons, ← String.append_empty (s := render options p),
        String.intercalate_cons_append, String.append_eq_empty_iff] at h
      exact absurd h.1 (render_ne_empty options p)
  · intro h
    rw [h, List.map_nil, String.intercalate_nil]

/-- The mocks of two lists stand one after the other, with an empty line between them if neither is
without text. -/
theorem generate_append (ps qs : List ProtocolDecl) :
    generate options (ps ++ qs) = generate options ps ++
      (if generate options ps ≠ "" ∧ generate options qs ≠ "" then "\n" else "") ++
      generate options qs := by
  have hselected : selected options (ps ++ qs) = selected options ps ++ selected options qs :=
    List.filter_append ..
  by_cases hps : selected options ps = []
  · have hempty := (generate_eq_empty_iff options ps).2 hps
    rw [hempty, generate, hselected, hps, List.nil_append, ← generate]
    simp
  by_cases hqs : selected options qs = []
  · have hempty := (generate_eq_empty_iff options qs).2 hqs
    rw [hempty, generate, hselected, hqs, List.append_nil, ← generate]
    simp
  have hboth : generate options ps ≠ "" ∧ generate options qs ≠ "" := by
    rw [Ne, Ne, generate_eq_empty_iff, generate_eq_empty_iff]
    exact ⟨hps, hqs⟩
  rw [if_pos hboth, generate, hselected, List.map_append,
    String.intercalate_append_of_ne_nil (by simpa using hps) (by simpa using hqs)]
  rfl

end Mock

end ProtocolMocks
