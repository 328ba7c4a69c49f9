import ProtocolMocks.Command.Plan
import Std.Time.Format

/-!
# The program

The program reads the files that its command line may need, carries out the plan, shows the report
and ends with its exit code. What is read beforehand is all that the plan depends on, by
`Plan.ofInvocation_congr`.
-/

namespace ProtocolMocks

/-- Why the system refused a file, by the number of the fault, which may be given negated. -/
def FileError.ofCode (code : UInt32) (details : String) : FileError :=
  match code.toInt32.toInt.natAbs with
  | 2 => .notFound
  | 20 => .notDirectory
  | 21 => .isDirectory
  | 36 => .nameTooLong
  | n => .refused (details.capitalize ++ " (os error " ++ toString n ++ ")")

/-- Why the system refused a file. -/
def FileError.ofSystem : IO.Error → FileError
  | .noFileOrDirectory _ code details
  | .inappropriateType _ code details
  | .invalidArgument _ code details
  | .permissionDenied _ code details
  | .resourceExhausted _ code details
  | .resourceBusy code details
  | .otherError code details => .ofCode code details
  | fault => .refused (toString fault)

/-- The outcome of an access to a file. -/
def access {α : Type} (action : IO α) : IO (Except FileError α) := do
  match ← action.toBaseIO with
  | .ok a => return .ok a
  | .error fault => return .error (.ofSystem fault)

/-- Whether a path leads to a regular file. -/
def leadsToFile (path : String) : IO Bool := do
  let kind : IO IO.FS.FileType := return (← (← IO.FS.realPath path).metadata).type
  match ← kind.toBaseIO with
  | .ok kind => return kind == .file
  | .error _ => return false

/-- Reads all files at the given paths, seen from the given directory. -/
def readFiles (workingDir paths : List String) : IO FileReader := do
  let views ← paths.mapM fun (path : String) => do
    return (path, ⟨← leadsToFile path, ← access (IO.FS.readBinFile path)⟩)
  return .ofList workingDir views

/-- Carries out a plan with the files of the system. -/
def Plan.carryOut : Plan → IO Report
  | finish report => return report
  | write path text written failed => do
    match ← access (IO.FS.writeFile path text) with
    | .ok () => return written
    | .error error => return failed error

/-- The present time in the notation of log events. -/
def timeText : IO String := do
  let now ← Std.Time.Timestamp.now
  return (Std.Time.DateTime.ofTimestampWithZone now .UTC).format
    "uuuu-MM-dd'T'HH:mm:ss.SSSSSS'Z'"

/-- Runs the program on the arguments of its command line and yields its exit code. -/
def execute (args : List String) : IO UInt32 := do
  let workingDir := Path.steps (← IO.currentDir).toString
  let read ← readFiles workingDir ((Invocation.parse? args).elim [] (Plan.sources workingDir))
  let report ← (Plan.ofCommandLine read args).carryOut
  IO.print report.output
  IO.eprint (report.noticeText (← timeText))
  return report.code.toUInt32

end ProtocolMocks

/-- The command line. -/
def main (args : List String) : IO UInt32 := ProtocolMocks.execute args
