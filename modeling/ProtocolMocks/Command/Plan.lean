import ProtocolMocks.Command.Invocation
import ProtocolMocks.Command.Report
import ProtocolMocks.FileTree
import ProtocolMocks.Settings
import ProtocolMocks.SourceContext

/-!
# Plans of a run

What an invocation does depends on the content of files. Once they are read it is settled: the run
either ends with a report, or writes one file and ends with a report that depends on the outcome.
-/

namespace ProtocolMocks

/-- What is left to do of a run after its files were read. -/
inductive Plan where
  | finish (report : Report)
  | write (path text : String) (written : Report) (failed : FileError → Report)

namespace Plan

/-- The file with settings that is picked up from the working directory. -/
def projectFile : String := "swiftmock.toml"

/-- The layers of settings that a request asks for. -/
def layers (request : GenerateRequest) : List SettingsLayer :=
  let override (field : String) (value : String) : SettingsLayer :=
    .override (Settings.optionsKey ++ "." ++ field) (.text value)
  [.optionalFile projectFile] ++ (request.settingsFile.map .file).toList ++
    (request.marker.map (override "marker")).toList ++
    (request.suffix.map (override "suffix")).toList

/-- The first line of a failure to read a source. -/
def sourceFailure (path : String) : Notice :=
  .plain ("Could not parse Swift file at " ++ path ++ " path\n")

/-- The run ends because a source cannot be read. -/
def unreadableSource (path : String) (error : FileError) : Plan :=
  finish (.failure [sourceFailure path, .plain ("IO error: " ++ error.message ++ "\n")])

/-- What is logged after a source was read. -/
def loadedEvent (path source : String) : Notice :=
  .event .debug "loaded source"
    [("path", .bare path), ("bytes", .number (byteLength source.toList))]

/-- The run ends because a source leaves the grammar. -/
def grammarFailure (path source : String) (error : GrammarError) : List Notice :=
  [sourceFailure path, .plain (error.sourceMessage ++ "\n"),
    .plain ("\n" ++ (SourceContext.render? source error.span.start).getD "" ++ "\n")]

/-- Generating mocks with the given options from a source. -/
def generateFrom (request : GenerateRequest) (options : MockOptions) (source : String) : Plan :=
  let loaded := loadedEvent request.input source
  match Source.declarations source with
  | .error error => finish (.failure (loaded :: grammarFailure request.input source error))
  | .ok ps =>
    let count := (Mock.selected options ps).length
    let parsed := Notice.event .debug "parsed declarations" [("count", .number ps.length)]
    let warning := Notice.event .warn "no protocol conforms to the marker"
      [("path", .quoted request.input), ("marker", .bare options.marker)]
    let notices := [loaded, parsed] ++ if count = 0 then [warning] else []
    let mocks := Mock.generate options ps
    match request.output with
    | none => finish ⟨0, mocks, notices⟩
    | some path =>
      let wrote := Notice.event .info "wrote mocks"
        [("path", .bare path), ("mocks", .number count)]
      write path mocks ⟨0, "", notices ++ [wrote]⟩ fun error =>
        .failure (notices ++ [.plain ("Could not write output to " ++ path ++ " file\n"),
          .plain (error.message ++ "\n")])

/-- Generating mocks: settings are read first, then the source. -/
def generate (read : FileReader) (request : GenerateRequest) : Plan :=
  match Settings.load read (layers request) with
  | .error error =>
    finish (.failure [.plain ("Configuration error: " ++ error.message ++ "\n")])
  | .ok options =>
    match read.readText request.input with
    | .error error => unreadableSource request.input error
    | .ok source => generateFrom request options source

/-- Listing the types that a source declares. -/
def printNames (read : FileReader) (path : String) : Plan :=
  match read.readText path with
  | .error error => unreadableSource path error
  | .ok source =>
    let tokens := tokenize source
    let names := typeNames tokens
    finish ⟨0, String.join (names.map fun name => name.description ++ "\n"),
      [loadedEvent path source,
        .event .debug "tokenized" [("count", .number tokens.length)],
        .event .info "listed type names"
          [("path", .quoted path), ("count", .number names.length)]]⟩

/-- The names of all inspections, one per line. -/
def inspectionList : String :=
  String.join (Inspection.all.map fun inspection => "  " ++ inspection.name ++ "\n")

/-- Printing what a stage yields for a source. -/
def inspect (read : FileReader) (path name : String) : Plan :=
  match read.readText path with
  | .error error => unreadableSource path error
  | .ok source =>
    let inspecting := Notice.event .info "inspecting"
      [("path", .quoted path), ("transform", .quoted name)]
    match ProtocolMocks.inspect source name with
    | .ok output => finish ⟨0, output ++ "\n", [inspecting]⟩
    | .error error =>
      let listing := match error with
        | .unknownName _ => [Notice.plain ("\nAvailable transforms:\n" ++ inspectionList)]
        | .grammar _ => []
      finish (.failure ([inspecting, .plain (error.message ++ "\n")] ++ listing))

/-- The plan with the notices that appear at a verbosity. -/
def atVerbosity (verbosity : Nat) : Plan → Plan
  | finish report => finish (report.atVerbosity verbosity)
  | write path text written failed =>
    write path text (written.atVerbosity verbosity) fun error =>
      (failed error).atVerbosity verbosity

/-- What an invocation does, given how to read files. -/
def ofInvocation (read : FileReader) : Invocation → Plan
  | .showHelp topic => finish (.success topic.text)
  | .showVersion => finish (.success versionText)
  | .listInspections => finish (.success ("Available transforms:\n\n" ++ inspectionList))
  | .generate verbosity request => (generate read request).atVerbosity verbosity
  | .printNames verbosity path => (printNames read path).atVerbosity verbosity
  | .inspect verbosity path name => (inspect read path name).atVerbosity verbosity

/-- The files that an invocation may read from a working directory. -/
def sources (workingDir : List String) : Invocation → List String
  | .showHelp _ | .showVersion | .listInspections => []
  | .generate _ request =>
    request.input :: (layers request).flatMap (Settings.sources workingDir)
  | .printNames _ path | .inspect _ path _ => [path]

/-- What an invocation does depends on the working directory and on no other files than its
sources. -/
theorem ofInvocation_congr {read other : FileReader} {invocation : Invocation}
    (hdir : read.workingDir = other.workingDir)
    (h : ∀ source ∈ sources read.workingDir invocation, read.view source = other.view source) :
    ofInvocation read invocation = ofInvocation other invocation := by
  cases invocation with
  | showHelp topic => rfl
  | showVersion => rfl
  | listInspections => rfl
  | generate verbosity request =>
    simp only [sources, List.mem_cons, List.mem_flatMap, forall_eq_or_imp] at h
    have loaded : Settings.load read (layers request) = Settings.load other (layers request) :=
      Settings.load_congr hdir fun layer hl source hs => h.2 source ⟨layer, hl, hs⟩
    simp only [ofInvocation, generate, loaded, FileReader.readText, h.1]
  | printNames verbosity path =>
    simp only [ofInvocation, printNames, FileReader.readText, h path (by simp [sources])]
  | inspect verbosity path name =>
    simp only [ofInvocation, inspect, FileReader.readText, h path (by simp [sources])]

/-- The exit code of a command line that is not a proper invocation. -/
def misuseCode : Nat := 2

/-- The end of a run whose command line is not a proper invocation. -/
def misuse : Report :=
  ⟨misuseCode, "", [.plain "The arguments are not understood; see the help for the commands.\n"]⟩

/-- What a command line does, given how to read files. -/
def ofCommandLine (read : FileReader) (texts : List String) : Plan :=
  match Invocation.parse? texts with
  | some invocation => ofInvocation read invocation
  | none => finish misuse

/-- Carries out a plan in a state of a file system. -/
def run {State : Type} (system : FileSystem State) (state : State) : Plan → Report × State
  | finish report => (report, state)
  | write path text written failed =>
    match system.write state path text with
    | .ok after => (written, after)
    | .error error => (failed error, state)

end Plan

/-- Runs a command line in a state of a file system. -/
def FileSystem.runCommand {State : Type} (system : FileSystem State) (state : State)
    (texts : List String) : Report × State :=
  (Plan.ofCommandLine (system.reader state) texts).run system state

/-- Runs a command line in a directory of a tree, the root unless another one is given. -/
def FileTree.runCommand (tree : FileTree) (texts : List String) (workingDir : List String := []) :
    Report × FileTree :=
  (FileTree.system workingDir).runCommand tree texts

end ProtocolMocks
