import ProtocolMocks.Text.Quoted

/-!
# Reports of a run

A run ends with an exit code, a text for the standard output and notices for the standard error.
Notices are plain texts or log events; events appear from a verbosity on that depends on their
level.
-/

namespace ProtocolMocks

/-- The level of a log event. -/
inductive LogLevel where
  | warn
  | info
  | debug
deriving DecidableEq, Repr

namespace LogLevel

/-- The verbosity from which on events of the level appear. -/
def threshold : LogLevel → Nat
  | warn => 0
  | info => 1
  | debug => 2

/-- The name of the level, in five columns. -/
def column : LogLevel → String
  | warn => " WARN"
  | info => " INFO"
  | debug => "DEBUG"

end LogLevel

/-- A value in a log event. -/
inductive LogValue where
  | quoted (s : String)
  | bare (s : String)
  | number (n : Nat)
deriving DecidableEq, Repr

/-- The text of a value in a log event. -/
def LogValue.text : LogValue → String
  | .quoted s => Text.quoted s
  | .bare s => s
  | .number n => toString n

/-- Something told on the standard error. -/
inductive Notice where
  | event (level : LogLevel) (message : String) (fields : List (String × LogValue))
  | plain (text : String)
deriving DecidableEq, Repr

namespace Notice

/-- Whether the notice appears at a verbosity. -/
def appears (verbosity : Nat) : Notice → Bool
  | event level _ _ => level.threshold ≤ verbosity
  | plain _ => true

/-- The text of a notice; events carry the time. -/
def text (time : String) : Notice → String
  | event level message fields =>
    time ++ " " ++ level.column ++ " " ++ message ++
      String.join (fields.map fun (name, value) => " " ++ name ++ "=" ++ value.text) ++ "\n"
  | plain text => text

end Notice

/-- How a run ends. -/
structure Report where
  code : Nat
  output : String
  notices : List Notice
deriving DecidableEq, Repr

namespace Report

/-- A run that succeeds with an output and no notices. -/
def success (output : String) : Report := ⟨0, output, []⟩

/-- A run that fails with notices and no output. -/
def failure (notices : List Notice) : Report := ⟨1, "", notices⟩

/-- The report without the notices that do not appear at a verbosity. -/
def atVerbosity (verbosity : Nat) (report : Report) : Report :=
  { report with notices := report.notices.filter (·.appears verbosity) }

/-- The text for the standard error. -/
def noticeText (time : String) (report : Report) : String :=
  String.join (report.notices.map (·.text time))

end Report

end ProtocolMocks
