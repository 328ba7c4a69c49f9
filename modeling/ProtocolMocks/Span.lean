/-!
# Byte spans

A source is measured in the bytes of its UTF-8 form. `byteLength` counts them, a `Span` is a
half-open range of them, and a `Located` value carries the span that it was read from.
-/

namespace ProtocolMocks

/-- A half-open range of byte offsets. -/
structure Span where
  start : Nat
  stop : Nat
deriving DecidableEq, Repr

/-- A value together with the part of the source that it was read from. -/
structure Located (α : Type) where
  value : α
  span : Span
deriving DecidableEq, Repr

/-- The number of bytes that a text takes up in UTF-8. -/
def byteLength (cs : List Char) : Nat := (String.ofList cs).utf8ByteSize

@[simp] theorem byteLength_nil : byteLength [] = 0 := String.utf8ByteSize_empty

@[simp] theorem byteLength_append (xs ys : List Char) :
    byteLength (xs ++ ys) = byteLength xs + byteLength ys := by
  rw [byteLength, String.ofList_append, String.utf8ByteSize_append, byteLength, byteLength]

@[simp] theorem byteLength_cons (c : Char) (cs : List Char) :
    byteLength (c :: cs) = c.utf8Size + byteLength cs := by
  rw [byteLength, String.ofList_cons, String.utf8ByteSize_append, String.utf8ByteSize_singleton,
    byteLength]

/-- The length of a text in bytes is the size of its UTF-8 form. -/
theorem byteLength_toList (s : String) : byteLength s.toList = s.utf8ByteSize := by
  rw [byteLength, String.ofList_toList]

/-- The characters in front of a byte offset, the whole text if the offset lies beyond its end,
and nothing if the offset falls inside a character. -/
def takeBytes? : Nat → List Char → Option (List Char)
  | _, [] => some []
  | offset, c :: cs =>
    if offset = 0 then some []
    else if c.utf8Size ≤ offset then (takeBytes? (offset - c.utf8Size) cs).map (c :: ·)
    else none

end ProtocolMocks
