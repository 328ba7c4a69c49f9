import ProtocolMocks.Mock.Page
import ProtocolMocks.Mock.Member

/-!
# Mock classes

A mock class is laid out in groups with an empty line between neighbours: the values to return, the
records of calls, and then one method after the other, each in declaration order.
-/

namespace ProtocolMocks

/-- What the user can choose about the generated classes. -/
structure MockOptions where
  /-- The conformance that selects a protocol. -/
  marker : String := "Mocking"
  /-- What follows the protocol's name in the name of the class. -/
  suffix : String := "Mock"
  /-- One level of indentation. -/
  indent : String := "    "
  /-- Whether the class is declared to conform to the protocol. -/
  conformToProtocol : Bool := true
deriving DecidableEq, Repr

namespace Mock

/-- The line that opens the class. -/
def header (options : MockOptions) (p : ProtocolDecl) : String :=
  "class " ++ p.name ++ options.suffix ++
    (if options.conformToProtocol then ": " ++ p.name else "") ++ " \x7b"

/-- The method that records its arguments and returns the stored value, if it returns one. -/
def method (r : Requirement) : List PageStep :=
  [.openBlock (r.signature ++ " \x7b"), .line (r.recordName ++ " = " ++ r.recordValue)] ++
    (if r.returnsValue then [.line ("return " ++ r.stubName)] else []) ++
    [.closeBlock "\x7d"]

/-- The groups of members; none of them is empty. -/
def groups (p : ProtocolDecl) : List (List PageStep) :=
  let stubs := (p.requirements.filter Requirement.returnsValue).map (.line ·.stubProperty)
  let records := p.requirements.map (.line ·.recordProperty)
  [stubs, records].filter (!·.isEmpty) ++ p.requirements.map method

/-- The steps that write the class. -/
def steps (options : MockOptions) (p : ProtocolDecl) : List PageStep :=
  .openBlock (header options p) :: [PageStep.blank].intercalate (groups p) ++
    [.closeBlock "\x7d"]

/-- The text of the mock class of one protocol, whatever it conforms to. -/
def render (options : MockOptions) (p : ProtocolDecl) : String :=
  ((Page.empty options.indent).writeAll (steps options p)).text

/-- The protocols that conform to the marker, in order. -/
def selected (options : MockOptions) (ps : List ProtocolDecl) : List ProtocolDecl :=
  ps.filter (·.conformsTo options.marker)

/-- The mock classes of all selected protocols, with an empty line between neighbours. -/
def generate (options : MockOptions) (ps : List ProtocolDecl) : String :=
  "\n".intercalate ((selected options ps).map (render options))

end Mock

end ProtocolMocks
