/-!
# Indented pages

Generated text is a sequence of steps: plain lines, blank lines, and lines that open or close a
block. A page writes each line behind one indent for every block that is open around it.
-/

namespace ProtocolMocks

/-- One step of writing a page. -/
inductive PageStep where
  | line (text : String)
  | blank
  /-- Writes a line and indents what follows. -/
  | openBlock (text : String)
  /-- Takes one indent back, if there is one, and writes a line. -/
  | closeBlock (text : String)
deriving DecidableEq, Repr

/-- A page that is being written. -/
structure Page where
  indent : String
  level : Nat
  text : String
deriving DecidableEq, Repr

namespace Page

/-- A page without text. -/
def empty (indent : String) : Page := ⟨indent, 0, ""⟩

/-- A line at a level of indentation. -/
def indented (indent : String) (level : Nat) (text : String) : String :=
  String.join (List.replicate level indent) ++ text ++ "\n"

/-- Carries out one step. -/
def write (page : Page) : PageStep → Page
  | .line text => { page with text := page.text ++ indented page.indent page.level text }
  | .blank => { page with text := page.text ++ "\n" }
  | .openBlock text =>
    { page with text := page.text ++ indented page.indent page.level text, level := page.level + 1 }
  | .closeBlock text =>
    { page with
      text := page.text ++ indented page.indent (page.level - 1) text, level := page.level - 1 }

/-- Carries out steps in order. -/
def writeAll (page : Page) (steps : List PageStep) : Page := steps.foldl write page

/-- The pages after each of the steps. -/
def history (page : Page) : List PageStep → List Page
  | [] => []
  | step :: steps => page.write step :: (page.write step).history steps

end Page

end ProtocolMocks
