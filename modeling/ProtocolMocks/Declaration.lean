/-!
# Protocol declarations

What a protocol declares: its name, the methods it requires and the protocols it conforms to. Types
are names and nothing more.
-/

namespace ProtocolMocks

/-- One parameter of a required method. The label is what callers write, if the declaration spells
one out; the name is what the body sees. -/
structure Parameter where
  label : Option String
  name : String
  typeName : String
deriving DecidableEq, Repr

/-- The return type of a method that declares none. -/
def voidType : String := "Void"

/-- A method that a protocol requires. -/
structure Requirement where
  name : String
  parameters : List Parameter
  returnType : String := voidType
deriving DecidableEq, Repr

/-- A method returns a value unless its return type is exactly `Void`. -/
def Requirement.returnsValue (r : Requirement) : Bool := r.returnType != voidType

/-- A protocol declaration; requirements and conformances keep their order and their duplicates. -/
structure ProtocolDecl where
  name : String
  requirements : List Requirement
  conformances : List String
deriving DecidableEq, Repr

/-- Whether the protocol names the given one among its conformances. -/
def ProtocolDecl.conformsTo (p : ProtocolDecl) (name : String) : Bool :=
  p.conformances.contains name

end ProtocolMocks
