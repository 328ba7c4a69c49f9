import ProtocolMocks.Span

/-!
# The lines around an error

An error message shows the line that holds a byte offset with up to two lines on either side. Lines
end at a newline, with the carriage return in front of it if there is one, and a final newline
starts no further line.
-/

namespace ProtocolMocks.SourceContext

/-- The lines of a text without their ends. -/
def lines : List Char → List (List Char)
  | [] => []
  | '\n' :: cs => [] :: lines cs
  | '\r' :: '\n' :: cs => [] :: lines cs
  | c :: cs =>
    match lines cs with
    | [] => [[c]]
    | line :: rest => (c :: line) :: rest

/-- How many lines are shown before and after the marked one. -/
def margin : Nat := 2

/-- The index of the line to mark, given the text in front of the offset and the number of lines.
An offset after the final newline marks the last line. -/
def markedLine (before : List Char) (lineCount : Nat) : Nat :=
  min (before.count '\n') (lineCount - 1)

/-- One line of the excerpt: a mark, the line number in at least three columns, and the text. -/
def renderLine (marked index : Nat) (line : List Char) : List Char :=
  (if index = marked then ">>" else "  ").toList ++ ' ' ::
    List.leftpad 3 ' ' (Nat.repr (index + 1)).toList ++ " | ".toList ++ line ++ ['\n']

/-- The excerpt around the marked line. -/
def excerpt (marked : Nat) (lines : List (List Char)) : List Char :=
  let shown := (lines.zipIdx.take (marked + margin + 1)).drop (marked - margin)
  (shown.map fun (line, index) => renderLine marked index line).flatten

/-- The excerpt around a byte offset. Offsets beyond the end count as the end; an offset inside a
character has no excerpt. -/
def render? (source : String) (offset : Nat) : Option String :=
  (takeBytes? offset source.toList).map fun before =>
    let ls := lines source.toList
    String.ofList (excerpt (markedLine before ls.length) ls)

end ProtocolMocks.SourceContext
