import Mathlib.Data.List.Forall2
import Mathlib.Data.List.Nodup
import ProtocolMocks.Data.List
import ProtocolMocks.Proofs.MockLayout

/-!
# Stored properties of a mock class

The text of a mock class is that of a class in parts: stored properties with a name and a type, and
methods whose bodies assign properties and give them back. The names of the properties are made from
the names of the functions by two endings. No ending turns two different names into one, and no name
carries both endings at its end, so two properties can only share a name if two functions do.
-/

namespace ProtocolMocks

/-- A type or a value: one text, or a tuple whose slots have a name and a content. -/
inductive Expression where
  | plain (text : String)
  | tuple (slots : List (String × String))
deriving DecidableEq, Repr

/-- The text of an expression. -/
def Expression.text : Expression → String
  | plain text => text
  | tuple slots => "(" ++ ", ".intercalate (slots.map fun slot => slot.1 ++ ": " ++ slot.2) ++ ")"

/-- The names of the slots in order, if there are slots. -/
def Expression.slotNames? : Expression → Option (List String)
  | plain _ => none
  | tuple slots => some (slots.map Prod.fst)

/-- A property that a class declares. -/
structure StoredProperty where
  /-- What stands in front of the name. -/
  introducer : String
  name : String
  type : Expression
  /-- What marks the type as optional. -/
  mark : String
deriving DecidableEq, Repr

/-- The line that declares a property. -/
def StoredProperty.line (q : StoredProperty) : PageLine :=
  ⟨1, q.introducer ++ q.name ++ ": " ++ q.type.text ++ q.mark⟩

/-- A statement in the body of a method. -/
inductive BodyStatement where
  | assign (property : String) (value : Expression)
  | giveBack (property : String)
deriving DecidableEq, Repr

namespace BodyStatement

/-- The line of a statement. -/
def line : BodyStatement → PageLine
  | assign property value => ⟨2, property ++ " = " ++ value.text⟩
  | giveBack property => ⟨2, "return " ++ property⟩

end BodyStatement

/-- A method that a class implements. -/
structure ClassMethod where
  signature : String
  body : List BodyStatement
deriving DecidableEq, Repr

/-- The lines of a method. -/
def ClassMethod.lines (m : ClassMethod) : List PageLine :=
  ⟨1, m.signature ++ " \x7b"⟩ :: m.body.map BodyStatement.line ++ [⟨1, "\x7d"⟩]

/-- A class with two groups of properties, those that are read and those that are written. -/
structure MockClass where
  header : String
  stubs : List StoredProperty
  records : List StoredProperty
  methods : List ClassMethod
deriving DecidableEq, Repr

namespace MockClass

/-- All properties of a class. -/
def properties (c : MockClass) : List StoredProperty := c.stubs ++ c.records

/-- The lines of a class. -/
def lines (c : MockClass) : List PageLine :=
  ⟨0, c.header⟩ :: [PageLine.empty].intercalate
      (Mock.blockOf (c.stubs.map StoredProperty.line) ++
        Mock.blockOf (c.records.map StoredProperty.line) ++ c.methods.map ClassMethod.lines) ++
    [⟨0, "\x7d"⟩]

/-- The properties that carry a name. -/
def named (c : MockClass) (name : String) : List StoredProperty :=
  c.properties.filter (·.name = name)

end MockClass

namespace Requirement

/-- All parameters as one expression: nothing, the one content, or a tuple with the names of the
parameters as the names of its slots. -/
def gathered (r : Requirement) (nothing : String) (content : Parameter → String) : Expression :=
  match r.parameters with
  | [] => .plain nothing
  | [p] => .plain (content p)
  | ps => .tuple (ps.map fun p => (p.name, content p))

/-- The property that holds what the method is to return. -/
def stub (r : Requirement) : StoredProperty := ⟨"var ", r.stubName, .plain r.returnType, "!"⟩

/-- The property that records the latest call. -/
def record (r : Requirement) : StoredProperty :=
  ⟨"private(set) var ", r.recordName, r.gathered "Void" Parameter.typeName, "?"⟩

/-- The method that implements the requirement. -/
def implementation (r : Requirement) : ClassMethod where
  signature := r.signature
  body := .assign r.recordName (r.gathered "()" Parameter.name) ::
    if r.returnType = "Void" then [] else [.giveBack r.stubName]

/-- All parameters as one text: nothing, the one content, or named contents in parentheses. -/
theorem text_gathered (r : Requirement) (nothing : String) (content : Parameter → String) :
    (r.gathered nothing content).text =
      match r.parameters with
      | [] => nothing
      | [p] => content p
      | ps => "(" ++ ", ".intercalate (ps.map fun p => p.name ++ ": " ++ content p) ++ ")" := by
  rw [gathered]
  split
  · rfl
  · rfl
  · rw [Expression.text, List.map_map]
    rfl

/-- The type of a record is the types of all parameters as one. -/
theorem recordType_eq (r : Requirement) :
    r.recordType = (r.gathered "Void" Parameter.typeName).text := by
  rw [text_gathered]
  rfl

/-- The value of a record is the names of all parameters as one. -/
theorem recordValue_eq (r : Requirement) :
    r.recordValue = (r.gathered "()" Parameter.name).text := by
  rw [text_gathered]
  rfl

/-- Two or more parameters fill the slots of a tuple, whatever is said about each of them. -/
theorem slotNames?_gathered {r : Requirement} (h : 2 ≤ r.parameters.length) (nothing : String)
    (content : Parameter → String) :
    (r.gathered nothing content).slotNames? = some (r.parameters.map Parameter.name) := by
  rw [gathered]
  split
  · rename_i hnil
    simp [hnil] at h
  · rename_i hone
    simp [hone] at h
  · rw [Expression.slotNames?, List.map_map]
    rfl

/-- A method assigns all its parameters to the record of its function, and nothing else to
anything. -/
theorem assign_mem_body {r : Requirement} {property : String} {value : Expression} :
    .assign property value ∈ r.implementation.body ↔
      property = r.recordName ∧ value = r.gathered "()" Parameter.name := by
  rw [implementation]
  split <;> simp

/-- A method gives back the property with the result of its function, if there is a result. -/
theorem giveBack_mem_body {r : Requirement} {property : String} :
    .giveBack property ∈ r.implementation.body ↔
      property = r.stubName ∧ r.returnType ≠ "Void" := by
  rw [implementation]
  split <;> simp_all

end Requirement

namespace Mock

/-- The class of a protocol in parts. -/
def classOf (options : MockOptions) (p : ProtocolDecl) : MockClass where
  header := header options p
  stubs := (p.requirements.filter (·.returnType ≠ "Void")).map Requirement.stub
  records := p.requirements.map Requirement.record
  methods := p.requirements.map Requirement.implementation

theorem line_stub (r : Requirement) : r.stub.line = ⟨1, r.stubProperty⟩ := by
  rw [StoredProperty.line, Requirement.stub, Requirement.stubProperty, Expression.text]

theorem line_record (r : Requirement) : r.record.line = ⟨1, r.recordProperty⟩ := by
  unfold Requirement.recordProperty
  rw [StoredProperty.line, Requirement.record, Requirement.recordType_eq]

/-- The lines of a method are those that are generated. -/
theorem lines_implementation (r : Requirement) : r.implementation.lines = methodLines r := by
  rw [ClassMethod.lines, methodLines, Requirement.recordValue_eq, Requirement.implementation]
  split <;> rfl

/-- The lines of a class in parts are those that are generated. -/
theorem lines_classOf (options : MockOptions) (p : ProtocolDecl) :
    (classOf options p).lines = classLines options p := by
  have hstubs : (classOf options p).stubs.map StoredProperty.line = stubLines p := by
    rw [classOf, List.map_map, stubLines]
    exact List.map_congr_left fun r _ => line_stub r
  have hrecords : (classOf options p).records.map StoredProperty.line = recordLines p := by
    rw [classOf, List.map_map, recordLines]
    exact List.map_congr_left fun r _ => line_record r
  have hmethods : (classOf options p).methods.map ClassMethod.lines =
      p.requirements.map methodLines := by
    rw [classOf, List.map_map]
    exact List.map_congr_left fun r _ => lines_implementation r
  rw [MockClass.lines, hstubs, hrecords, hmethods, classLines, blocks]
  rfl

/-- No text ends in both endings. -/
theorem stubName_ne_recordName (r s : Requirement) : r.stubName ≠ s.recordName := by
  intro h
  have hlast : (r.name ++ "ReturnValue").toList.getLast? = (s.name ++ "Invoked").toList.getLast? :=
    congrArg (String.toList · |>.getLast?) h
  rw [String.toList_append, String.toList_append, List.getLast?_append,
    List.getLast?_append] at hlast
  simp at hlast

/-- An ending keeps different names apart. -/
theorem nodup_map_append_iff (ending : String) (rs : List Requirement) :
    (rs.map (·.name ++ ending)).Nodup ↔ (rs.map Requirement.name).Nodup := by
  have hmap : rs.map (·.name ++ ending) = (rs.map Requirement.name).map (· ++ ending) := by
    rw [List.map_map]
    rfl
  rw [hmap, List.nodup_map_iff fun _ _ => (String.append_left_inj ending).1]

/-- The properties of a class, by name: one for each result, then one for each function. -/
theorem map_name_properties (options : MockOptions) (p : ProtocolDecl) :
    (classOf options p).properties.map StoredProperty.name =
      (p.requirements.filter (·.returnType ≠ "Void")).map (·.name ++ "ReturnValue") ++
        p.requirements.map (·.name ++ "Invoked") := by
  rw [MockClass.properties, List.map_append, classOf, List.map_map, List.map_map]
  rfl

/-- The names of the properties differ if those of the functions do, since no result is named like a
record. -/
theorem nodup_properties_iff (options : MockOptions) (p : ProtocolDecl) :
    ((classOf options p).properties.map StoredProperty.name).Nodup ↔
      (p.requirements.map Requirement.name).Nodup := by
  rw [map_name_properties, List.nodup_append, nodup_map_append_iff, nodup_map_append_iff]
  constructor
  · rintro ⟨-, h, -⟩
    exact h
  · intro h
    refine ⟨(List.filter_sublist.map _).nodup h, h, fun stubName hstub recordName hrecord => ?_⟩
    obtain ⟨r, -, rfl⟩ := List.mem_map.1 hstub
    obtain ⟨s, -, rfl⟩ := List.mem_map.1 hrecord
    exact stubName_ne_recordName r s

/-- Overloads share both of their properties. -/
example : (classOf {} ⟨"Store", [⟨"load", [], "Int"⟩, ⟨"load", [⟨none, "key", "Key"⟩], "Int"⟩],
    []⟩).properties.map StoredProperty.name =
      ["loadReturnValue", "loadReturnValue", "loadInvoked", "loadInvoked"] := by decide

/-- A method implements a requirement with properties that the class declares for its function. -/
structure UsesOwnProperties (c : MockClass) (r : Requirement) (m : ClassMethod) : Prop where
  signature : m.signature = r.signature
  assigned : ∀ property value, .assign property value ∈ m.body →
    property = r.name ++ "Invoked" ∧ property ∈ c.records.map StoredProperty.name
  returned : ∀ property, .giveBack property ∈ m.body →
    property = r.name ++ "ReturnValue" ∧ property ∈ c.stubs.map StoredProperty.name
  /-- Every call is recorded. -/
  records : ∃ value, .assign (r.name ++ "Invoked") value ∈ m.body
  gives_back : .giveBack (r.name ++ "ReturnValue") ∈ m.body ↔ r.returnType ≠ "Void"

/-- What a method assigns and gives back is declared once, and as what it is used for. -/
structure FitsDeclarations (c : MockClass) (r : Requirement) (m : ClassMethod) : Prop where
  assigned : ∀ property value, .assign property value ∈ m.body →
    ∃ q, c.named property = [q] ∧
      (2 ≤ r.parameters.length → q.type.slotNames? = some (r.parameters.map Parameter.name) ∧
        value.slotNames? = q.type.slotNames?)
  returned : ∀ property, .giveBack property ∈ m.body →
    ∃ q, c.named property = [q] ∧ q.type = .plain r.returnType

theorem record_mem {p : ProtocolDecl} {r : Requirement} (hr : r ∈ p.requirements)
    (options : MockOptions) : r.record ∈ (classOf options p).records :=
  List.mem_map_of_mem hr

/-- Each function with a result has a property for it in the class. -/
theorem stub_mem {p : ProtocolDecl} {r : Requirement} (hr : r ∈ p.requirements)
    (hreturns : r.returnType ≠ "Void") (options : MockOptions) :
    r.stub ∈ (classOf options p).stubs :=
  List.mem_map_of_mem (List.mem_filter.2 ⟨hr, decide_eq_true hreturns⟩)

/-- A method uses the properties of its own function and no others. -/
theorem usesOwnProperties {p : ProtocolDecl} {r : Requirement} (hr : r ∈ p.requirements)
    (options : MockOptions) : UsesOwnProperties (classOf options p) r r.implementation where
  signature := rfl
  assigned property value hassign := by
    obtain ⟨rfl, -⟩ := Requirement.assign_mem_body.1 hassign
    exact ⟨rfl, List.mem_map_of_mem (record_mem hr options)⟩
  returned property hreturn := by
    obtain ⟨rfl, hreturns⟩ := Requirement.giveBack_mem_body.1 hreturn
    exact ⟨rfl, List.mem_map_of_mem (stub_mem hr hreturns options)⟩
  records := ⟨_, Requirement.assign_mem_body.2 ⟨rfl, rfl⟩⟩
  gives_back := Requirement.giveBack_mem_body.trans (and_iff_right rfl)

/-- If no two functions share a name, a method finds each of its properties declared once, with the
type that it needs. -/
theorem fitsDeclarations {p : ProtocolDecl} {r : Requirement} (hr : r ∈ p.requirements)
    (hnames : (p.requirements.map Requirement.name).Nodup) (options : MockOptions) :
    FitsDeclarations (classOf options p) r r.implementation where
  assigned property value hassign := by
    obtain ⟨rfl, rfl⟩ := Requirement.assign_mem_body.1 hassign
    have hrecord := List.mem_append_right (classOf options p).stubs (record_mem hr options)
    have hdistinct := (nodup_properties_iff options p).2 hnames
    refine ⟨r.record, filter_eq_singleton_of_nodup_map hdistinct hrecord, fun htwo => ?_⟩
    have htype := Requirement.slotNames?_gathered htwo "Void" Parameter.typeName
    exact ⟨htype, (Requirement.slotNames?_gathered htwo "()" Parameter.name).trans htype.symm⟩
  returned property hreturn := by
    obtain ⟨rfl, hreturns⟩ := Requirement.giveBack_mem_body.1 hreturn
    have hstub := List.mem_append_left (classOf options p).records (stub_mem hr hreturns options)
    have hdistinct := (nodup_properties_iff options p).2 hnames
    exact ⟨r.stub, filter_eq_singleton_of_nodup_map hdistinct hstub, rfl⟩

/-- The text of a class is that of its parts. Two of its properties share a name exactly if two
functions do, and every method only uses properties of its own function. If no two functions share a
name, each of them is declared once and with the type that the method needs. -/
theorem properties_collide_only_for_overloads (options : MockOptions) (p : ProtocolDecl) :
    render options p = PageLine.printAll options.indent (classOf options p).lines ∧
    (classOf options p).properties.map StoredProperty.name =
      (p.requirements.filter (·.returnType ≠ "Void")).map (·.name ++ "ReturnValue") ++
        p.requirements.map (·.name ++ "Invoked") ∧
    (((classOf options p).properties.map StoredProperty.name).Nodup ↔
      (p.requirements.map Requirement.name).Nodup) ∧
    List.Forall₂ (UsesOwnProperties (classOf options p)) p.requirements
      (classOf options p).methods ∧
    ((p.requirements.map Requirement.name).Nodup →
      List.Forall₂ (FitsDeclarations (classOf options p)) p.requirements
        (classOf options p).methods) := by
  refine ⟨?text, map_name_properties options p, nodup_properties_iff options p, ?own, ?fits⟩
  case text => rw [lines_classOf, render_eq_printAll]
  case own =>
    rw [classOf, List.forall₂_map_right_iff, List.forall₂_same]
    exact fun r hr => usesOwnProperties hr options
  case fits =>
    intro hnames
    rw [classOf, List.forall₂_map_right_iff, List.forall₂_same]
    exact fun r hr => fitsDeclarations hr hnames options

/-- A function may be named like the record of another one. -/
def counterProtocol : ProtocolDecl :=
  ⟨"Counter", [⟨"add", [⟨none, "amount", "Int"⟩, ⟨some "to", "total", "Int"⟩], "Int"⟩,
    ⟨"addInvoked", [], "Bool"⟩, ⟨"reset", [], "Void"⟩], ["Mocking"]⟩

/-- A function that is named like the record of another one does no harm. -/
theorem counter_properties_distinct :
    ((classOf {} counterProtocol).properties.map StoredProperty.name).Nodup ∧
    List.Forall₂ (FitsDeclarations (classOf {} counterProtocol)) counterProtocol.requirements
      (classOf {} counterProtocol).methods := by
  have hnames : (counterProtocol.requirements.map Requirement.name).Nodup := by decide
  obtain ⟨-, -, hdistinct, -, hfits⟩ := properties_collide_only_for_overloads {} counterProtocol
  exact ⟨hdistinct.2 hnames, hfits hnames⟩

end Mock

end ProtocolMocks
