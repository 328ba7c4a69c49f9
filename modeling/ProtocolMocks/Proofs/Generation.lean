import ProtocolMocks.Command.Plan
import ProtocolMocks.Data.Except
import ProtocolMocks.Proofs.PageText
import ProtocolMocks.Proofs.Writing

/-!
# Generating all or nothing

Whatever can keep a run from generating mocks is looked for on its own here, even if the run would
not come so far. A run without any such fault takes the text of the mocks to the one place that was
asked for; any other run tells of the first fault and leaves all files as they were. Of the file
system no more is asked than that a text which was written is then the content of one file.
-/

namespace ProtocolMocks

/-- The text of a notice that is not a log event. -/
def Notice.plain? : Notice → Option String
  | plain text => some text
  | event _ _ _ => none

/-- Whether the notice is a warning. -/
def Notice.isWarning : Notice → Bool
  | event .warn _ _ => true
  | event .info _ _ | event .debug _ _ | plain _ => false

namespace Report

/-- The plain texts among the notices. -/
def told (report : Report) : List String := report.notices.filterMap (·.plain?)

/-- The warnings among the notices. -/
def warnings (report : Report) : List Notice := report.notices.filter (·.isWarning)

@[simp] theorem told_failure (notices : List Notice) :
    (failure notices).told = notices.filterMap (·.plain?) := rfl

@[simp] theorem warnings_failure (notices : List Notice) :
    (failure notices).warnings = notices.filter (·.isWarning) := rfl

/-- Plain texts appear at every verbosity. -/
@[simp] theorem told_atVerbosity (verbosity : Nat) (report : Report) :
    (report.atVerbosity verbosity).told = report.told := by
  rw [told, told, atVerbosity, List.filterMap_filter]
  refine List.filterMap_congr fun notice _ => ?_
  cases notice with
  | plain text => rfl
  | event level message fields => simp [Notice.plain?]

/-- Warnings appear at every verbosity. -/
@[simp] theorem warnings_atVerbosity (verbosity : Nat) (report : Report) :
    (report.atVerbosity verbosity).warnings = report.warnings := by
  rw [warnings, warnings, atVerbosity, List.filter_filter]
  refine List.filter_congr fun notice _ => ?_
  cases notice with
  | plain text => rfl
  | event level message fields =>
    cases level <;> simp [Notice.isWarning, Notice.appears, LogLevel.threshold]

end Report

/-- What can keep a run from generating mocks. -/
inductive GenerateFault where
  | settings (error : SettingsError)
  | input (error : FileError)
  | grammar (source : String) (error : GrammarError)
  | output (path : String) (error : FileError)

/-- The texts that tell of a fault. -/
def GenerateFault.told (request : GenerateRequest) : GenerateFault → List String
  | settings error => ["Configuration error: " ++ error.message ++ "\n"]
  | input error =>
    ["Could not parse Swift file at " ++ request.input ++ " path\n",
      "IO error: " ++ error.message ++ "\n"]
  | grammar source error =>
    ["Could not parse Swift file at " ++ request.input ++ " path\n", error.sourceMessage ++ "\n",
      "\n" ++ (SourceContext.render? source error.span.start).getD "" ++ "\n"]
  | output path error =>
    ["Could not write output to " ++ path ++ " file\n", error.message ++ "\n"]

/-- The run comes as far as to generate mocks: with these options it makes this text. -/
structure Generates (read : FileReader) (request : GenerateRequest) (options : MockOptions)
    (text : String) : Prop where
  load : Settings.load read (Plan.layers request) = .ok options
  mocks : ∃ source, read.readText request.input = .ok source ∧
    Source.mocks options source = .ok text

/-- A run makes one text, with one set of options. -/
theorem Generates.unique {read : FileReader} {request : GenerateRequest}
    {options other : MockOptions} {text further : String}
    (h : Generates read request options text) (hother : Generates read request other further) :
    options = other ∧ text = further := by
  obtain ⟨hload, source, hread, hmocks⟩ := h
  obtain ⟨hload', source', hread', hmocks'⟩ := hother
  rw [hload, Except.ok.injEq] at hload'
  rw [hread, Except.ok.injEq] at hread'
  subst hload' hread'
  rw [hmocks, Except.ok.injEq] at hmocks'
  exact ⟨rfl, hmocks'⟩

/-- The text that a run makes, if it comes so far. -/
def generated? (read : FileReader) (request : GenerateRequest) : Option String := do
  let options ← (Settings.load read (Plan.layers request)).toOption
  let source ← (read.readText request.input).toOption
  (Source.mocks options source).toOption

/-- The text that a run makes is found wherever the run comes so far. -/
theorem Generates.generated?_eq {read : FileReader} {request : GenerateRequest}
    {options : MockOptions} {text : String} (h : Generates read request options text) :
    generated? read request = some text := by
  obtain ⟨hload, source, hread, hmocks⟩ := h
  rw [generated?, hload, hread]
  exact toOption_eq_some_iff.2 hmocks

/-- A run that has its settings and a source that follows the grammar makes a text. -/
theorem exists_generates {read : FileReader} {request : GenerateRequest}
    (hload : ∃ options, Settings.load read (Plan.layers request) = .ok options)
    (hsource : ∃ source, read.readText request.input = .ok source ∧
      ∃ ps, Source.declarations source = .ok ps) :
    ∃ options text, Generates read request options text := by
  obtain ⟨options, hload⟩ := hload
  obtain ⟨source, hread, ps, hparse⟩ := hsource
  refine ⟨options, Mock.generate options ps, hload, source, hread, ?_⟩
  rw [Source.mocks, hparse]
  rfl

section

variable {State : Type} (system : FileSystem State) (state : State) (request : GenerateRequest)

/-- What is wrong with a request, each fault found on its own: of the settings, of the input, of its
source, and of the output, to which the text that was made is written, or an empty one. -/
def FileSystem.faults : List GenerateFault :=
  let read := system.reader state
  ((error? (Settings.load read (Plan.layers request))).map .settings).toList ++
    ((error? (read.readText request.input)).map .input).toList ++
    ((read.readText request.input).toOption.bind fun source =>
      (error? (Source.declarations source)).map (.grammar source)).toList ++
    (request.output.bind fun path =>
      (error? (system.write state path ((generated? read request).getD ""))).map
        (.output path)).toList

/-- A request has no faults if, and only if, the settings can be loaded, the input is text and
follows the grammar, and the text that is made of it can be written to the output. -/
theorem FileSystem.faults_eq_nil_iff :
    system.faults state request = [] ↔
      (∃ options, Settings.load (system.reader state) (Plan.layers request) = .ok options) ∧
      (∃ source, (system.reader state).readText request.input = .ok source ∧
        ∃ ps, Source.declarations source = .ok ps) ∧
      ∀ path ∈ request.output, ∀ options text,
        Generates (system.reader state) request options text →
          ∃ after, system.write state path text = .ok after := by
  generalize hreader : system.reader state = read
  have hsource : ((error? (read.readText request.input)).map GenerateFault.input = none ∧
      ((read.readText request.input).toOption.bind fun source =>
        (error? (Source.declarations source)).map (GenerateFault.grammar source)) = none) ↔
      ∃ source, read.readText request.input = .ok source ∧
        ∃ ps, Source.declarations source = .ok ps := by
    cases read.readText request.input with
    | error e => simp [error?]
    | ok source => simp [error?, Except.toOption, ← error?_eq_none_iff]
  have hfaults : system.faults state request = [] ↔
      (∃ options, Settings.load read (Plan.layers request) = .ok options) ∧
      (∃ source, read.readText request.input = .ok source ∧
        ∃ ps, Source.declarations source = .ok ps) ∧
      ∀ path ∈ request.output,
        ∃ after, system.write state path ((generated? read request).getD "") = .ok after := by
    simp only [faults, hreader, List.append_eq_nil_iff, Option.toList_eq_nil_iff,
      Option.bind_eq_none_iff (o := request.output), Option.map_eq_none_iff, Option.mem_def,
      error?_eq_none_iff]
    rw [← hsource, Option.map_eq_none_iff, error?_eq_none_iff, and_assoc, and_assoc, and_assoc]
  rw [hfaults]
  refine and_congr_right fun hload => and_congr_right fun hparse => forall₂_congr fun path _ => ?_
  obtain ⟨options, text, hmade⟩ := exists_generates hload hparse
  rw [hmade.generated?_eq, Option.getD_some]
  constructor
  · intro hwrite other further hother
    obtain ⟨-, rfl⟩ := hmade.unique hother
    exact hwrite
  · exact fun h => h options text hmade

end

/-- The warning that a source has no protocol to generate a mock for. -/
def noConformance (path marker : String) : Notice :=
  .event .warn "no protocol conforms to the marker"
    [("path", .quoted path), ("marker", .bare marker)]

/-- The warnings of a run that made a text. -/
def generationWarnings (request : GenerateRequest) (options : MockOptions) (text : String) :
    List Notice :=
  if text = "" then [noConformance request.input options.marker] else []

section

variable {State File : Type} {system : FileSystem State}

/-- The text is in the place that was asked for, and nowhere else. -/
def Delivered (files : system.Files File) (state : State) (output : Option String) (text : String)
    (report : Report) (after : State) : Prop :=
  match output with
  | none => report.output = text ∧ after = state
  | some path => report.output = "" ∧ files.Written state after path text.toUTF8

/-- The ways in which a run can end: before there is a text, when the text cannot be written, or
with the text delivered. -/
inductive GenerateRun (files : system.Files File) (state : State) (request : GenerateRequest)
    (report : Report) (after : State) : Prop
  | stopped {fault : GenerateFault} (first : (system.faults state request).head? = some fault)
      (early : ∀ options text, ¬ Generates (system.reader state) request options text)
      (code : report.code = 1) (output : report.output = "") (same : after = state)
      (told : report.told = fault.told request) (warnings : report.warnings = [])
  | unwritten {fault : GenerateFault} {options : MockOptions} {text : String}
      (first : (system.faults state request).head? = some fault)
      (reached : Generates (system.reader state) request options text)
      (code : report.code = 1) (output : report.output = "") (same : after = state)
      (told : report.told = fault.told request)
      (warnings : report.warnings = generationWarnings request options text)
  | delivered {options : MockOptions} {text : String}
      (faultless : system.faults state request = [])
      (reached : Generates (system.reader state) request options text)
      (code : report.code = 0)
      (delivered : Delivered files state request.output text report after)
      (warnings : report.warnings = generationWarnings request options text)

variable (files : system.Files File) {state : State} {request : GenerateRequest}

/-- A run that fails before there is a text tells of the fault, and of nothing else. -/
theorem GenerateRun.of_failure {fault : GenerateFault} {notices : List Notice}
    (first : (system.faults state request).head? = some fault)
    (early : ∀ options text, ¬ Generates (system.reader state) request options text)
    (told : notices.filterMap (·.plain?) = fault.told request)
    (warnings : notices.filter (·.isWarning) = []) (verbosity : Nat) :
    GenerateRun files state request ((Report.failure notices).atVerbosity verbosity) state := by
  refine .stopped first early rfl rfl rfl ?_ ?_
  · rw [Report.told_atVerbosity, Report.told_failure, told]
  · rw [Report.warnings_atVerbosity, Report.warnings_failure, warnings]

/-- A run without settings stops before it reads the input. -/
theorem generateRun_of_load_error {error : SettingsError}
    (hload : Settings.load (system.reader state) (Plan.layers request) = .error error)
    (verbosity : Nat) :
    GenerateRun files state request
      ((Report.failure [.plain ("Configuration error: " ++ error.message ++ "\n")]).atVerbosity
        verbosity) state := by
  have hfirst : (system.faults state request).head? = some (.settings error) := by
    simp [FileSystem.faults, hload, error?]
  refine .of_failure files hfirst ?_ rfl rfl verbosity
  rintro options text ⟨h, -⟩
  rw [hload] at h
  cases h

/-- A run whose input cannot be read as text stops there. -/
theorem generateRun_of_readText_error {options : MockOptions} {error : FileError}
    (hload : Settings.load (system.reader state) (Plan.layers request) = .ok options)
    (hread : (system.reader state).readText request.input = .error error) (verbosity : Nat) :
    let run := ((Plan.unreadableSource request.input error).atVerbosity verbosity).run system state
    GenerateRun files state request run.1 run.2 := by
  have hfirst : (system.faults state request).head? = some (.input error) := by
    simp [FileSystem.faults, hload, hread, error?]
  refine .of_failure files hfirst ?_ rfl rfl verbosity
  rintro options text ⟨-, source, h, -⟩
  rw [hread] at h
  cases h

/-- A run whose source leaves the grammar stops there. -/
theorem generateRun_of_grammar_error {options : MockOptions} {source : String}
    {error : GrammarError}
    (hload : Settings.load (system.reader state) (Plan.layers request) = .ok options)
    (hread : (system.reader state).readText request.input = .ok source)
    (hparse : Source.declarations source = .error error) (verbosity : Nat) :
    let run := ((Plan.generateFrom request options source).atVerbosity verbosity).run system state
    GenerateRun files state request run.1 run.2 := by
  have hfirst : (system.faults state request).head? = some (.grammar source error) := by
    simp [FileSystem.faults, hload, hread, hparse, error?, Except.toOption]
  rw [Plan.generateFrom, hparse]
  refine .of_failure files hfirst ?_ rfl rfl verbosity
  rintro options text ⟨-, other, h, hmocks⟩
  rw [hread, Except.ok.injEq] at h
  rw [← h, Source.mocks, hparse] at hmocks
  cases hmocks

/-- The plan of a run that makes a text, and which of its notices are plain texts and warnings. -/
theorem exists_generateFrom_eq (request : GenerateRequest) (options : MockOptions)
    {source : String} {ps : List ProtocolDecl}
    (hparse : Source.declarations source = .ok ps) :
    ∃ (notices : List Notice) (wrote : String → Notice),
      notices.filterMap (·.plain?) = [] ∧
      notices.filter (·.isWarning) =
        generationWarnings request options (Mock.generate options ps) ∧
      (∀ path, (wrote path).isWarning = false) ∧
      Plan.generateFrom request options source =
        match request.output with
        | none => .finish ⟨0, Mock.generate options ps, notices⟩
        | some path =>
          .write path (Mock.generate options ps) ⟨0, "", notices ++ [wrote path]⟩ fun error =>
            .failure (notices ++ ((GenerateFault.output path error).told request).map .plain) := by
  have hcount : (Mock.selected options ps).length = 0 ↔ Mock.generate options ps = "" := by
    rw [List.length_eq_zero_iff, Mock.generate_eq_empty_iff]
  rw [Plan.generateFrom, hparse]
  refine ⟨_, _, ?_, ?_, fun path => ?_, rfl⟩
  · simp only [hcount]
    split_ifs <;> rfl
  · simp only [hcount, generationWarnings]
    split_ifs <;> rfl
  · rfl

/-- A run whose source follows the grammar makes a text, and ends with the text delivered unless it
cannot be written. -/
theorem generateRun_of_declarations {options : MockOptions} {source : String}
    {ps : List ProtocolDecl}
    (hload : Settings.load (system.reader state) (Plan.layers request) = .ok options)
    (hread : (system.reader state).readText request.input = .ok source)
    (hparse : Source.declarations source = .ok ps) (verbosity : Nat) :
    let run := ((Plan.generateFrom request options source).atVerbosity verbosity).run system state
    GenerateRun files state request run.1 run.2 := by
  have hreached : Generates (system.reader state) request options (Mock.generate options ps) := by
    refine ⟨hload, source, hread, ?_⟩
    rw [Source.mocks, hparse]
    rfl
  have hfaults : system.faults state request = (request.output.bind fun path =>
      (error? (system.write state path (Mock.generate options ps))).map
        (GenerateFault.output path)).toList := by
    simp [FileSystem.faults, hload, hread, hparse, hreached.generated?_eq, error?, Except.toOption]
  obtain ⟨notices, wrote, hplain, hwarnings, hwrote, hplan⟩ :=
    exists_generateFrom_eq request options hparse
  rw [hplan]
  cases houtput : request.output with
  | none =>
    rw [houtput] at hfaults
    refine .delivered hfaults hreached rfl ?_ ?_
    · rw [houtput]
      exact ⟨rfl, rfl⟩
    · exact (Report.warnings_atVerbosity ..).trans hwarnings
  | some path =>
    rw [houtput, Option.bind_some] at hfaults
    cases hwrite : system.write state path (Mock.generate options ps) with
    | error error =>
      have hfirst : (system.faults state request).head? = some (.output path error) := by
        rw [hfaults, hwrite]
        rfl
      simp only [Plan.atVerbosity, Plan.run, hwrite]
      refine .unwritten hfirst hreached rfl rfl rfl ?_ ?_
      · rw [Report.told_atVerbosity, Report.told_failure, List.filterMap_append, hplain]
        rfl
      · rw [Report.warnings_atVerbosity, Report.warnings_failure, List.filter_append, hwarnings]
        exact List.append_nil _
    | ok after =>
      rw [hwrite] at hfaults
      simp only [Plan.atVerbosity, Plan.run, hwrite]
      refine .delivered hfaults hreached rfl ?_ ?_
      · rw [houtput]
        exact ⟨rfl, files.written_of_write hwrite⟩
      · rw [Report.warnings_atVerbosity, Report.warnings, List.filter_append, hwarnings]
        simp [hwrote]

/-- Every run that is to generate mocks ends in one of these ways. -/
theorem generateRun (state : State) (request : GenerateRequest) (verbosity : Nat) :
    let plan := (Plan.generate (system.reader state) request).atVerbosity verbosity
    let run := plan.run system state
    GenerateRun files state request run.1 run.2 := by
  rw [Plan.generate]
  cases hload : Settings.load (system.reader state) (Plan.layers request) with
  | error error => exact generateRun_of_load_error files hload verbosity
  | ok options =>
    cases hread : (system.reader state).readText request.input with
    | error error => exact generateRun_of_readText_error files hload hread verbosity
    | ok source =>
      cases hparse : Source.declarations source with
      | error error => exact generateRun_of_grammar_error files hload hread hparse verbosity
      | ok ps => exact generateRun_of_declarations files hload hread hparse verbosity

end

namespace Arguments

/-- The arguments that give an option a value, if there is one. -/
def attached (name : String) (value : Option String) : List String :=
  (value.map fun value => "--" ++ name ++ "=" ++ value).toList

/-- An option that was not given yet takes the value that is attached to it. -/
theorem foldlM_attached {spec : ArgumentSpec} {option : OptionSpec} {name : String}
    (hspec : spec.options.find? (·.long == name) = some option) (hrole : option.role = .setting)
    (hname : name.toList.all (· != '=') = true) (hne : name.toList ≠ []) {args : Arguments}
    (hfree : args.onlyPositionals = false) (hwaiting : args.waiting = none)
    (hnew : args.values.lookup name = none) (value : Option String) :
    (attached name value).foldlM (add spec) args =
      .ok { args with values := args.values ++ (value.map fun value => (name, value)).toList } := by
  cases value with
  | none => simp [attached]; rfl
  | some value =>
    have hadd : add spec args ("--" ++ name ++ "=" ++ value) =
        addLong spec (name.toList ++ '=' :: value.toList) args := by
      have htext : ("--" ++ name ++ "=" ++ value).toList =
          '-' :: '-' :: (name.toList ++ '=' :: value.toList) := by simp
      rw [add, if_neg (by simp [hfree]), htext]
      cases h : name.toList with
      | nil => exact absurd h hne
      | cons c cs => rfl
    have hlong : addLong spec (name.toList ++ '=' :: value.toList) args =
        .ok { args with values := args.values ++ [(name, value)] } := by
      have hall := List.all_eq_true.1 hname
      rw [addLong, List.takeWhile_append_of_pos hall, List.dropWhile_append_of_pos hall]
      simp [hspec, hrole, addSetting, addValue, hwaiting, hnew]
    simp only [attached, Option.map_some, Option.toList_some, List.foldlM_cons, List.foldlM_nil,
      hadd, hlong]
    rfl

end Arguments

/-- A command line that asks for mocks. -/
def GenerateRequest.commandLine (request : GenerateRequest) : List String :=
  "generate-mock" :: (Arguments.attached "config" request.settingsFile ++
    Arguments.attached "marker" request.marker ++ Arguments.attached "suffix" request.suffix ++
      "--" :: request.input :: request.output.toList)

/-- The command line of a request asks for what is requested. -/
theorem parse?_commandLine (request : GenerateRequest) :
    Invocation.parse? request.commandLine = some (.generate 0 request) := by
  obtain ⟨input, output, config, marker, suffix⟩ := request
  have hmarker : ((config.map fun value => ("config", value)).toList).lookup "marker" = none := by
    cases config <;> rfl
  have hsuffix : ((config.map fun value => ("config", value)).toList ++
      (marker.map fun value => ("marker", value)).toList).lookup "suffix" = none := by
    cases config <;> cases marker <;> rfl
  have hread : Arguments.read Invocation.Action.generate.spec
      (GenerateRequest.commandLine ⟨input, output, config, marker, suffix⟩).tail =
        .ok {
          values := (config.map fun value => ("config", value)).toList ++
            (marker.map fun value => ("marker", value)).toList ++
            (suffix.map fun value => ("suffix", value)).toList
          positionals := input :: output.toList
          onlyPositionals := true } := by
    rw [Arguments.read, GenerateRequest.commandLine, List.tail_cons, List.foldlM_append,
      List.foldlM_append, List.foldlM_append,
      Arguments.foldlM_attached rfl rfl (by decide) (by decide) rfl rfl rfl]
    simp only [bind, Except.bind]
    rw [Arguments.foldlM_attached rfl rfl (by decide) (by decide) rfl rfl hmarker]
    simp only [List.nil_append]
    rw [Arguments.foldlM_attached rfl rfl (by decide) (by decide) rfl rfl hsuffix]
    cases output <;> rfl
  have hparse : Invocation.parse? (GenerateRequest.commandLine ⟨input, output, config, marker,
      suffix⟩) = Invocation.ofAction? .generate 0
        (GenerateRequest.commandLine ⟨input, output, config, marker, suffix⟩).tail := rfl
  rw [hparse, Invocation.ofAction?, hread]
  cases config <;> cases marker <;> cases suffix <;> cases output <;> rfl

/-- A command line to generate mocks with, in any file system. Its run ends well if, and only if,
the settings can be loaded, the input is text and follows the grammar, and the text of the mocks can
be written to the output. Then the text is where it was asked for, and nothing else has changed.
Otherwise nothing has changed at all, and the first fault is told. Whoever gets an empty text is
warned, and nobody else. -/
theorem generate_all_or_nothing {State File : Type} {system : FileSystem State}
    (files : system.Files File) (state : State) {texts : List String} {verbosity : Nat}
    {request : GenerateRequest}
    (h : Invocation.parse? texts = some (.generate verbosity request)) :
    let read := system.reader state
    let run := system.runCommand state texts
    (run.1.code = 0 ↔
      (∃ options, Settings.load read (Plan.layers request) = .ok options) ∧
      (∃ source, read.readText request.input = .ok source ∧
        ∃ ps, Source.declarations source = .ok ps) ∧
      ∀ path ∈ request.output, ∀ options text, Generates read request options text →
        ∃ after, system.write state path text = .ok after) ∧
    (run.1.code ≠ 0 → run.1.code = 1 ∧ run.1.output = "" ∧ run.2 = state ∧
      ∃ fault, (system.faults state request).head? = some fault ∧
        run.1.told = fault.told request) ∧
    (run.1.code = 0 → ∃ options text, Generates read request options text ∧
      Delivered files state request.output text run.1 run.2) ∧
    (∀ options text, Generates read request options text → run.1.warnings =
      if text = "" then [noConformance request.input options.marker] else []) ∧
    ((∀ options text, ¬ Generates read request options text) → run.1.warnings = []) := by
  intro read run
  have hrun : run = ((Plan.generate read request).atVerbosity verbosity).run system state := by
    simp only [run, read, FileSystem.runCommand, Plan.ofCommandLine, h, Plan.ofInvocation]
  have hcases : GenerateRun files state request run.1 run.2 :=
    hrun ▸ generateRun files state request verbosity
  rw [← system.faults_eq_nil_iff state request]
  have hfault : ∀ fault, (system.faults state request).head? = some fault →
      system.faults state request ≠ [] := by
    intro fault hhead hnil
    rw [hnil] at hhead
    cases hhead
  have hwarnings : ∀ options text, Generates read request options text →
      run.1.warnings = generationWarnings request options text →
      ∀ other further, Generates read request other further →
        run.1.warnings = generationWarnings request other further := by
    intro options text hreached hwarnings other further hother
    obtain ⟨rfl, rfl⟩ := hreached.unique hother
    exact hwarnings
  cases hcases with
  | stopped first early code output same told warnings =>
    refine ⟨?_, fun _ => ⟨code, output, same, _, first, told⟩, ?_, ?_, fun _ => warnings⟩
    · simp [code, hfault _ first]
    · simp [code]
    · exact fun options text hreached => absurd hreached (early options text)
  | unwritten first reached code output same told warnings =>
    refine ⟨?_, fun _ => ⟨code, output, same, _, first, told⟩, ?_, hwarnings _ _ reached warnings,
      fun hnone => absurd reached (hnone _ _)⟩
    · simp [code, hfault _ first]
    · simp [code]
  | delivered faultless reached code delivered warnings =>
    refine ⟨?_, ?_, fun _ => ⟨_, _, reached, delivered⟩, hwarnings _ _ reached warnings,
      fun hnone => absurd reached (hnone _ _)⟩
    · simp [code, faultless]
    · simp [code]

/-- A tree with a source that leaves the grammar, one without protocols, and a directory next to
them. -/
def sampleTree : FileTree where
  files :=
    [(["work", "open.swift"], "protocol P: Mocking \x7b".toUTF8),
      (["work", "plain.swift"], "struct S".toUTF8)]
  dirs := [["out"]]

/-- A run that reads a file by its path from the root and writes one beside the working directory,
and a run that could not write even if the source followed the grammar. -/
theorem sampleTree_all_or_nothing :
    let writing : GenerateRequest :=
      ⟨"/work/plain.swift", some "../new.swift", none, none, some "S"⟩
    let failing : GenerateRequest := ⟨"open.swift", some "/out", none, some "M", none⟩
    let written := (FileTree.system ["work"]).runCommand sampleTree writing.commandLine
    let failed := (FileTree.system ["work"]).runCommand sampleTree failing.commandLine
    (written.1.code = 0 ∧ written.1.output = "" ∧ ∃ text : String,
      (FileTree.allFiles ["work"]).Written sampleTree written.2 "../new.swift" text.toUTF8) ∧
    failed.1.code = 1 ∧ failed.1.output = "" ∧ failed.2 = sampleTree := by
  intro writing failing
  have hcode : ((FileTree.system ["work"]).runCommand sampleTree writing.commandLine).1.code = 0 :=
    by decide +kernel
  obtain ⟨-, -, hsuccess, -⟩ :=
    generate_all_or_nothing (FileTree.allFiles ["work"]) sampleTree (parse?_commandLine writing)
  obtain ⟨-, hfailure, -⟩ :=
    generate_all_or_nothing (FileTree.allFiles ["work"]) sampleTree (parse?_commandLine failing)
  obtain ⟨options, text, -, houtput, htext⟩ := hsuccess hcode
  have hcode' :
      ((FileTree.system ["work"]).runCommand sampleTree failing.commandLine).1.code ≠ 0 := by
    decide +kernel
  obtain ⟨hone, hempty, hsame, -⟩ := hfailure hcode'
  exact ⟨⟨hcode, houtput, text, htext⟩, hone, hempty, hsame⟩

end ProtocolMocks
