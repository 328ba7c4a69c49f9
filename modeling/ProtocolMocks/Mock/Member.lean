import ProtocolMocks.Declaration

/-!
# Members of a mock class

For each required method a mock stores what the latest call was given and, if the method returns a
value, what it is to return. The texts here are the parts of those members; no part knows about
indentation.
-/

namespace ProtocolMocks

/-- The parameter as it stands in the method's signature. -/
def Parameter.spelling (p : Parameter) : String :=
  match p.label with
  | some label => label ++ " " ++ p.name ++ ": " ++ p.typeName
  | none => p.name ++ ": " ++ p.typeName

namespace Requirement

/-- The method as it is declared, without a return clause if it returns nothing. -/
def signature (r : Requirement) : String :=
  "func " ++ r.name ++ "(" ++ ", ".intercalate (r.parameters.map Parameter.spelling) ++ ")" ++
    if r.returnsValue then " -> " ++ r.returnType else ""

/-- The property that holds what the method is to return. -/
def stubName (r : Requirement) : String := r.name ++ "ReturnValue"

/-- The property that records the latest call. -/
def recordName (r : Requirement) : String := r.name ++ "Invoked"

/-- The type of the record: nothing, the one argument, or a labelled tuple of all. -/
def recordType (r : Requirement) : String :=
  match r.parameters with
  | [] => "Void"
  | [p] => p.typeName
  | ps => "(" ++ ", ".intercalate (ps.map fun p => p.name ++ ": " ++ p.typeName) ++ ")"

/-- The value that a call records. -/
def recordValue (r : Requirement) : String :=
  match r.parameters with
  | [] => "()"
  | [p] => p.name
  | ps => "(" ++ ", ".intercalate (ps.map fun p => p.name ++ ": " ++ p.name) ++ ")"

/-- The declaration of the property that holds the value to return. -/
def stubProperty (r : Requirement) : String :=
  "var " ++ r.stubName ++ ": " ++ r.returnType ++ "!"

/-- The declaration of the property that records the latest call. -/
def recordProperty (r : Requirement) : String :=
  "private(set) var " ++ r.recordName ++ ": " ++ r.recordType ++ "?"

end Requirement

end ProtocolMocks
