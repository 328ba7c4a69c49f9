/-!
# Help texts

The program and each of its commands have a help text: what it does, how it is called, and what its
arguments and options mean, in aligned columns.
-/

namespace ProtocolMocks

/-- What help can be asked for. -/
inductive HelpTopic where
  | program
  | generateMock
  | printNames
  | inspect
  | help
deriving DecidableEq, Repr

/-- The name and version of the program. -/
def versionText : String := "swiftmock 0.1.0\n"

/-- The lines of a help text. -/
def HelpTopic.lines : HelpTopic → List String
  | .program =>
    ["Generates mock classes for Swift protocols",
     "",
     "Usage: swiftmock [OPTIONS] <COMMAND>",
     "",
     "Commands:",
     "  generate-mock  Generate mocks for every protocol conforming to the marker " ++
       "[alias: generate_mock]",
     "  print-names    Print the classes, structs, enums, extensions and protocols a file " ++
       "declares [alias: print_name]",
     "  inspect        Print an intermediate pipeline stage",
     "  help           Print this message or the help of the given subcommand(s)",
     "",
     "Options:",
     "  -v, --verbose...  Raise log verbosity (-v for info, -vv for debug)",
     "  -h, --help        Print help",
     "  -V, --version     Print version"]
  | .generateMock =>
    ["Generate mocks for every protocol conforming to the marker",
     "",
     "Usage: swiftmock generate-mock [OPTIONS] <input> [output]",
     "",
     "Arguments:",
     "  <input>   Swift source file to read",
     "  [output]  File to write the mocks to (stdout when omitted)",
     "",
     "Options:",
     "  -c, --config <config>  Configuration file layered over the defaults",
     "  -v, --verbose...       Raise log verbosity (-v for info, -vv for debug)",
     "      --marker <marker>  Conformance that selects protocols for mocking",
     "      --suffix <suffix>  Appended to the protocol name to name the mock class",
     "  -h, --help             Print help"]
  | .printNames =>
    ["Print the classes, structs, enums, extensions and protocols a file declares",
     "",
     "Usage: swiftmock print-names [OPTIONS] <path>",
     "",
     "Arguments:",
     "  <path>  Swift source file to read",
     "",
     "Options:",
     "  -v, --verbose...  Raise log verbosity (-v for info, -vv for debug)",
     "  -h, --help        Print help"]
  | .inspect =>
    ["Print an intermediate pipeline stage",
     "",
     "Usage: swiftmock inspect [OPTIONS] [path]",
     "",
     "Arguments:",
     "  [path]  Swift source file to read",
     "",
     "Options:",
     "  -t, --transform <transform>  Transform to apply (see --list-transforms) " ++
       "[default: declarations-json]",
     "  -v, --verbose...             Raise log verbosity (-v for info, -vv for debug)",
     "      --list-transforms        List available transforms",
     "  -h, --help                   Print help"]
  | .help =>
    ["Print this message or the help of the given subcommand(s)",
     "",
     "Usage: swiftmock help [COMMAND]...",
     "",
     "Arguments:",
     "  [COMMAND]...  Print help for the subcommand(s)"]

/-- A help text. -/
def HelpTopic.text (topic : HelpTopic) : String := String.join (topic.lines.map (· ++ "\n"))

end ProtocolMocks
