import ProtocolMocks.Command.Arguments
import ProtocolMocks.Command.Help
import ProtocolMocks.Inspection

/-!
# Invocations of the program

An invocation is what a command line asks for. The verbosity may be given before or after the name
of a command; what stands after it wins.
-/

namespace ProtocolMocks

/-- What to generate mocks from, where to, and with which options. -/
structure GenerateRequest where
  input : String
  /-- The file to write, or nothing for the standard output. -/
  output : Option String
  settingsFile : Option String
  marker : Option String
  suffix : Option String
deriving DecidableEq, Repr

/-- What a command line asks for. -/
inductive Invocation where
  | showHelp (topic : HelpTopic)
  | showVersion
  | listInspections
  | generate (verbosity : Nat) (request : GenerateRequest)
  | printNames (verbosity : Nat) (path : String)
  | inspect (verbosity : Nat) (path : String) (inspection : String)
deriving DecidableEq, Repr

namespace Invocation

/-- The commands that act on a file. -/
inductive Action where
  | generate
  | printNames
  | inspect
deriving DecidableEq, Repr

/-- The names of the commands. -/
def actionNames : List (String × Action) :=
  [("generate-mock", .generate), ("generate_mock", .generate), ("print-names", .printNames),
   ("print_name", .printNames), ("inspect", .inspect)]

/-- The option that raises the verbosity. -/
def verboseOption : OptionSpec := ⟨"verbose", some 'v', .counter⟩

/-- The option that asks for help. -/
def helpOption : OptionSpec := ⟨"help", some 'h', .help⟩

/-- What may stand in front of the name of a command. -/
def programSpec : ArgumentSpec :=
  ⟨[verboseOption, helpOption, ⟨"version", some 'V', .version⟩], 0⟩

/-- What may stand after the name of a command. -/
def Action.spec : Action → ArgumentSpec
  | .generate =>
    ⟨[verboseOption, helpOption, ⟨"config", some 'c', .setting⟩, ⟨"marker", none, .setting⟩,
      ⟨"suffix", none, .setting⟩], 2⟩
  | .printNames => ⟨[verboseOption, helpOption], 1⟩
  | .inspect =>
    ⟨[verboseOption, helpOption, ⟨"transform", some 't', .setting⟩,
      ⟨"list-transforms", none, .switch⟩], 1⟩

/-- The help on a command. -/
def Action.topic : Action → HelpTopic
  | .generate => .generateMock
  | .printNames => .printNames
  | .inspect => .inspect

/-- The inspection that is made unless another is asked for. -/
def defaultInspection : Inspection := .declarations

/-- The invocation that arguments of a command amount to, unless one is missing. -/
def Action.invocation? (action : Action) (outerVerbosity : Nat) (args : Arguments) :
    Option Invocation :=
  let given := args.count verboseOption.long
  let verbosity := if given = 0 then outerVerbosity else given
  match action, args.positionals with
  | .generate, input :: rest =>
    some (.generate verbosity
      ⟨input, rest.head?, args.value? "config", args.value? "marker", args.value? "suffix"⟩)
  | .printNames, path :: _ => some (.printNames verbosity path)
  | .inspect, paths =>
    if args.count "list-transforms" ≠ 0 then some .listInspections
    else paths.head?.map fun path =>
      .inspect verbosity path ((args.value? "transform").getD defaultInspection.name)
  | _, [] => none

/-- Reads the arguments of a command. -/
def ofAction? (action : Action) (outerVerbosity : Nat) (texts : List String) :
    Option Invocation :=
  match Arguments.read action.spec texts with
  | .ok args => action.invocation? outerVerbosity args
  | .error .help => some (.showHelp action.topic)
  | .error .version => some .showVersion
  | .error .misuse => none

/-- Reads the arguments of the command that shows help. -/
def ofHelp? : List String → Option Invocation
  | [] => some (.showHelp .program)
  | ["help"] => some (.showHelp .help)
  | [name] => (actionNames.lookup name).map fun action => .showHelp action.topic
  | _ => none

/-- Reads a command line, given what was read of it so far. -/
def parseFrom? (args : Arguments) : List String → Option Invocation
  | [] => none
  | text :: texts =>
    match if args.onlyPositionals then none else actionNames.lookup text with
    | some action => ofAction? action (args.count verboseOption.long) texts
    | none =>
      if text = "help" ∧ ¬args.onlyPositionals then ofHelp? texts
      else
        match Arguments.add programSpec args text with
        | .ok args => parseFrom? args texts
        | .error .help => some (.showHelp .program)
        | .error .version => some .showVersion
        | .error .misuse => none

/-- The invocation that a command line asks for, if it is a proper one. -/
def parse? (texts : List String) : Option Invocation := parseFrom? {} texts

end Invocation

end ProtocolMocks
