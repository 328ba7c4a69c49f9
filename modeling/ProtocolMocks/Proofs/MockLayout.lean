import ProtocolMocks.Proofs.PageText

/-!
# The layout of a mock class

A class is written step by step on a page that counts the blocks around each line. Its lines can
also be told without a page: a header, blocks with one empty line between neighbours, and a closing
brace, each line behind the indents that its place asks for. What is written are exactly these
lines.
-/

namespace ProtocolMocks

/-- A line and the number of indents in front of it. -/
structure PageLine where
  level : Nat
  text : String
deriving DecidableEq, Repr

namespace PageLine

/-- The line between two blocks. -/
def empty : PageLine := ⟨0, ""⟩

/-- The text of a line, with a newline behind it. -/
def print (indent : String) (line : PageLine) : String :=
  String.join (List.replicate line.level indent) ++ line.text ++ "\n"

/-- The text of some lines in order. -/
def printAll (indent : String) (lines : List PageLine) : String :=
  String.join (lines.map (print indent))

end PageLine

namespace Mock

/-- One block of the given lines, or none if there are no lines. -/
def blockOf (lines : List PageLine) : List (List PageLine) := if lines = [] then [] else [lines]

/-- The properties that hold what the methods are to return. -/
def stubLines (p : ProtocolDecl) : List PageLine :=
  (p.requirements.filter (·.returnType ≠ "Void")).map fun r => ⟨1, r.stubProperty⟩

/-- The properties that record the latest calls. -/
def recordLines (p : ProtocolDecl) : List PageLine :=
  p.requirements.map fun r => ⟨1, r.recordProperty⟩

/-- The lines of the method for a requirement. -/
def methodLines (r : Requirement) : List PageLine :=
  [⟨1, r.signature ++ " \x7b"⟩, ⟨2, r.recordName ++ " = " ++ r.recordValue⟩] ++
    (if r.returnType = "Void" then [] else [⟨2, "return " ++ r.stubName⟩]) ++
    [⟨1, "\x7d"⟩]

/-- The blocks of a class in order. -/
def blocks (p : ProtocolDecl) : List (List PageLine) :=
  blockOf (stubLines p) ++ blockOf (recordLines p) ++ p.requirements.map methodLines

/-- The lines of a class in order. -/
def classLines (options : MockOptions) (p : ProtocolDecl) : List PageLine :=
  ⟨0, header options p⟩ :: [PageLine.empty].intercalate (blocks p) ++ [⟨0, "\x7d"⟩]

end Mock

namespace PageStep

/-- The line that a step writes at a level of indentation. -/
def lineAt (level : Nat) : PageStep → PageLine
  | .line text | .openBlock text => ⟨level, text⟩
  | .closeBlock text => ⟨level - 1, text⟩
  | .blank => .empty

/-- The lines that steps write, the first at the given level. -/
def linesFrom : Nat → List PageStep → List PageLine
  | _, [] => []
  | level, step :: steps => step.lineAt level :: linesFrom (step.levelAfter level) steps

/-- Steps that close as many blocks as they open. -/
def KeepsLevel (steps : List PageStep) : Prop := ∀ level, steps.foldl levelAfter level = level

/-- What a step adds is the line that it writes. -/
theorem added_eq_print (indent : String) (level : Nat) (step : PageStep) :
    step.added indent level = (step.lineAt level).print indent := by
  cases step <;> rfl

/-- What steps add is the lines that they write. -/
theorem allAdded_eq_printAll (indent : String) (level : Nat) (steps : List PageStep) :
    allAdded indent level steps = PageLine.printAll indent (linesFrom level steps) := by
  induction steps generalizing level with
  | nil => rfl
  | cons step steps ih =>
    rw [allAdded, ih, added_eq_print, linesFrom, PageLine.printAll, PageLine.printAll,
      List.map_cons, String.join_cons]

/-- Steps in a row write the lines of each, the second ones from the level that is left. -/
theorem linesFrom_append (level : Nat) (front back : List PageStep) :
    linesFrom level (front ++ back) =
      linesFrom level front ++ linesFrom (front.foldl levelAfter level) back := by
  induction front generalizing level with
  | nil => rfl
  | cons step front ih =>
    rw [List.cons_append, linesFrom, linesFrom, ih, List.foldl_cons, List.cons_append]

/-- Groups that keep the level stand side by side, with an empty line between neighbours. -/
theorem linesFrom_intercalate {groups : List (List PageStep)}
    (h : ∀ steps ∈ groups, KeepsLevel steps) (level : Nat) (more : List PageStep) :
    linesFrom level ([blank].intercalate groups ++ more) =
      [PageLine.empty].intercalate (groups.map (linesFrom level)) ++ linesFrom level more := by
  induction groups with
  | nil => rfl
  | cons steps groups ih =>
    obtain ⟨hsteps, hgroups⟩ := List.forall_mem_cons.1 h
    cases groups with
    | nil =>
      rw [List.map_singleton, List.intercalate_singleton, List.intercalate_singleton,
        linesFrom_append, hsteps]
    | cons next groups =>
      have hblank : ∀ steps, linesFrom level (blank :: steps) = .empty :: linesFrom level steps :=
        fun _ => rfl
      rw [List.map_cons, List.map_cons, List.intercalate_cons_cons, List.intercalate_cons_cons,
        ← List.map_cons, List.append_assoc, List.append_assoc, List.append_assoc,
        linesFrom_append, hsteps, List.singleton_append, hblank, ih hgroups]
      simp

end PageStep

namespace Mock

open PageStep

theorem returnsValue_iff {r : Requirement} : r.returnsValue = true ↔ r.returnType ≠ "Void" := by
  simp [Requirement.returnsValue, voidType]

/-- Plain lines keep the level. -/
theorem keepsLevel_lines {α : Type} (text : α → String) (items : List α) :
    KeepsLevel (items.map (.line <| text ·)) := by
  intro level
  induction items with
  | nil => rfl
  | cons item items ih => exact ih

/-- A method closes the block that it opens. -/
theorem keepsLevel_method (r : Requirement) : KeepsLevel (method r) := by
  intro level
  rw [method]
  split <;> rfl

/-- Each group of members closes the blocks that it opens. -/
theorem keepsLevel_groups (p : ProtocolDecl) : ∀ steps ∈ groups p, KeepsLevel steps :=
  forall_mem_groups (keepsLevel_lines _ _) (keepsLevel_lines _ _) fun r _ => keepsLevel_method r

/-- Plain lines are written at the level that they start from. -/
theorem linesFrom_lines {α : Type} (text : α → String) (items : List α) (level : Nat) :
    linesFrom level (items.map (.line <| text ·)) = items.map (⟨level, text ·⟩) := by
  induction items with
  | nil => rfl
  | cons item items ih =>
    rw [List.map_cons, List.map_cons, linesFrom, levelAfter, ih]
    rfl

/-- The lines of a method are its signature, its body and its closing brace. -/
theorem linesFrom_method (r : Requirement) : linesFrom 1 (method r) = methodLines r := by
  rw [method, methodLines]
  by_cases hvoid : r.returnType = "Void"
  · rw [if_pos hvoid, if_neg (by rw [returnsValue_iff]; exact not_not_intro hvoid)]
    rfl
  · rw [if_neg hvoid, if_pos (returnsValue_iff.2 hvoid)]
    rfl

/-- Groups without steps are left out, and so are blocks without lines. -/
theorem map_linesFrom_filter (level : Nat) (groups : List (List PageStep)) :
    (groups.filter (!·.isEmpty)).map (linesFrom level) =
      groups.flatMap fun steps => blockOf (linesFrom level steps) := by
  induction groups with
  | nil => rfl
  | cons steps groups ih =>
    rw [List.filter_cons, List.flatMap_cons, ← ih]
    cases steps with
    | nil => rfl
    | cons step steps => rfl

/-- The lines for results are those of the functions that return a value. -/
theorem stubLines_eq (p : ProtocolDecl) : stubLines p =
    linesFrom 1 ((p.requirements.filter Requirement.returnsValue).map (.line ·.stubProperty)) := by
  have hfilter : p.requirements.filter (·.returnType ≠ "Void") =
      p.requirements.filter Requirement.returnsValue := by
    refine List.filter_congr fun r _ => ?_
    rw [Bool.eq_iff_iff, decide_eq_true_iff, returnsValue_iff]
  rw [stubLines, hfilter, linesFrom_lines]

/-- Each group of members is written as one block. -/
theorem map_linesFrom_groups (p : ProtocolDecl) : (groups p).map (linesFrom 1) = blocks p := by
  have hrecords : recordLines p = linesFrom 1 (p.requirements.map (.line ·.recordProperty)) := by
    rw [linesFrom_lines, recordLines]
  have hmethods : (p.requirements.map method).map (linesFrom 1) =
      p.requirements.map methodLines := by
    rw [List.map_map]
    exact List.map_congr_left fun r _ => linesFrom_method r
  rw [groups, List.map_append, map_linesFrom_filter, hmethods, blocks, stubLines_eq, hrecords]
  simp

/-- No block of members is empty. -/
theorem nil_not_mem_blocks (p : ProtocolDecl) : [] ∉ blocks p := by
  have hblockOf : ∀ lines, [] ∉ blockOf lines := by
    intro lines
    rw [blockOf]
    split
    · exact List.not_mem_nil
    · rw [List.mem_singleton]
      exact ne_comm.1 ‹_›
  simp [blocks, hblockOf, methodLines]

/-- The lines of a mock are its header, its members and its closing brace. -/
theorem linesFrom_steps (options : MockOptions) (p : ProtocolDecl) :
    linesFrom 0 (steps options p) = classLines options p := by
  have hopens : ∀ more, linesFrom 0 (.openBlock (header options p) :: more) =
      ⟨0, header options p⟩ :: linesFrom 1 more := fun _ => rfl
  rw [steps, List.cons_append, hopens, linesFrom_intercalate (keepsLevel_groups p),
    map_linesFrom_groups, classLines, List.cons_append]
  rfl

/-- The text of a mock is its lines, printed with the indentation of the options. -/
theorem render_eq_printAll (options : MockOptions) (p : ProtocolDecl) :
    render options p = PageLine.printAll options.indent (classLines options p) := by
  rw [render_eq_allAdded, allAdded_eq_printAll, linesFrom_steps]

/-- The text of a class is that of its lines, with no block that lacks lines, and the generated text
is made of the texts of exactly the protocols that name the marker, in order and with an empty line
between neighbours. -/
theorem mocks_laid_out (options : MockOptions) :
    (∀ p, render options p = PageLine.printAll options.indent (classLines options p) ∧
      [] ∉ blocks p) ∧
    ∀ ps, generate options ps = "\n".intercalate
      ((ps.filter (options.marker ∈ ·.conformances)).map fun p =>
        PageLine.printAll options.indent (classLines options p)) := by
  refine ⟨fun p => ⟨render_eq_printAll options p, nil_not_mem_blocks p⟩, fun ps => ?_⟩
  have hselected : selected options ps = ps.filter (options.marker ∈ ·.conformances) := by
    refine List.filter_congr fun p _ => ?_
    rw [ProtocolDecl.conformsTo, Bool.eq_iff_iff, decide_eq_true_iff, List.contains_iff_mem]
  rw [generate, hselected]
  exact congrArg _ (List.map_congr_left fun p _ => render_eq_printAll options p)

end Mock

end ProtocolMocks
