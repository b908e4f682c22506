import Std.Time.DateTime.Timestamp
import Synthesis.Command.Work

/-!
The program: reads what a command line asks for, and prints what the command gives.
-/
namespace Synthesis.Program

/-- What stands at a path. -/
def stateAt (path : String) : IO FileState := do
  if path.toList.contains '\x00' then return .badName
  try return .text (Text.ofBytes (← IO.FS.readBinFile path))
  catch
    | .inappropriateType _ code _ => return if code = 20 then .beneathFile else .folder
    | .permissionDenied _ _ _ => return .denied
    | .invalidArgument _ _ _ => return .tooLong
    | _ => return .missing

/-- The states of the paths that a command reads, looked up before it runs. -/
def filesAt (paths : List String) : IO Files := do
  let states ← paths.mapM fun p => do return (p, ← stateAt p)
  return fun p => (states.lookup p).getD .missing

def environmentNow : IO Settings.Environment := do
  let known := Settings.variableTable.map (Settings.variableLead ++ ·.1)
    ++ ["OPENAI_API_KEY", "SYNTH_ENV", "OTEL_TRACES_EXPORTER", "OTEL_METRICS_EXPORTER",
      "OTEL_EXPORTER_OTLP_ENDPOINT"]
  known.filterMapM fun name => do return (← IO.getEnv name).map fun v => (name, Text.ofOutside v)

def surroundings (request : Command.Request) : IO Command.Surroundings := do
  let environment ← environmentNow
  let now := Timestamp.ofUnixNanos (← Std.Time.Timestamp.now).toNanosecondsSinceUnixEpoch.val
  let files ← filesAt (request.firstPaths)
  let files ← filesAt (request.firstPaths ++ request.laterPaths ⟨environment, files, now⟩)
  return ⟨environment, files, now⟩

def outcomeOf (args : List String) : IO Command.Outcome := do
  match Command.Request.parse (args.map Text.ofOutside) with
  | .error e => return .failed (.usage e)
  | .ok request => return request.outcome (← surroundings request)

end Synthesis.Program

def main (args : List String) : IO UInt32 := do
  let outcome ← Synthesis.Program.outcomeOf args
  let complaint := outcome.complaint.elim "" (· ++ "\n")
  (← IO.getStdout).write (Synthesis.Text.bytes outcome.output)
  (← IO.getStderr).write (Synthesis.Text.bytes (outcome.notice ++ complaint))
  return outcome.exitCode.toUInt32
