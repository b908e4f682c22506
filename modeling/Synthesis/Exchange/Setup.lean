import Synthesis.Brief
import Synthesis.Exchange.Reading
import Synthesis.Exchange.Writing
import Synthesis.Telemetry

/-!
Settings, logging and telemetry in the form in which they are exchanged.
-/
namespace Synthesis.Exchange

def slotValue (s : Settings) : Settings.Slot → Json
  | .real get _ => num (get s)
  | slot => Settings.slotJson s slot

def settingsJson (s : Settings) : Json :=
  let fields := fun (fs : List Settings.Field) => fs.map fun f => (f.name, slotValue s f.slot)
  .object (fields Settings.topFields
    ++ Settings.sections.map (fun g => (g.name, .object (fields g.fields)))
    ++ [("timeout_ns", .text (Decimal.intText s.validationTimeout))])

def loggingJson (l : Logging) : Json :=
  .object [("level", .text l.level.name), ("dir", .text l.dir),
    ("service", .text l.service), ("json", .bool l.json)]

def telemetryMembers (t : Telemetry) : List (String × Json) :=
  [("service", .text t.service), ("version", .text t.version),
    ("environment", .text t.environment), ("trace", .text t.traceExporter),
    ("metric", .text t.metricExporter), ("otlp", .text t.endpoint),
    ("insecure", .bool t.insecure)]

/-- Texts by name, in the order of the names. -/
def namedTexts? (f : Fields) (name : String) : Option (List (String × String)) :=
  sub (fun j => do
    let members ← fields? j
    members.mapM fun (k, v) => do return (k, ← text? v)) f name

def logLineJson : LogLine → Json
  | .text line => .text line
  | .json members => .object (members.filter (·.1 ≠ "time"))

def logRecord? (j : Json) : Option LogRecord := do
  let f ← fields? j
  let level := match ← str f "level" with
    | "debug" => LogLevel.debug
    | "warn" => .warn
    | "error" => .error
    | _ => .info
  return ⟨level, ← str f "msg", ← list pair? f "attrs"⟩

/-- How a log is opened. -/
structure LogRequest where
  logging : Logging
  file : LogFile
  scope : LogScope
  records : List LogRecord

def logRequest? (f : Fields) : Option LogRequest := do
  let level := (LogLevel.ofRank? (← int f "level")).getD .info
  let l : Logging := { level, service := ← str f "service", json := ← flag f "json",
                       quiet := ← flag f "quiet" }
  let file ← flag f "file"
  let refused ← flag f "bad_dir"
  let extra := (← namedTexts? f "with").mergeSort fun a b => Text.le a.1 b.1
  let scope := extra.foldl (fun s a => s.withAttributes [a]) l.scope
  return ⟨l,
    if refused then .refused "plain/logs" "create log directory: mkdir plain: not a directory"
      else if file then .written else .none,
    scope.withGroup (← str f "group"), ← list logRecord? f "records"⟩

def LogRequest.answer (r : LogRequest) : List (String × Json) :=
  let records := r.records.map fun record => (r.scope, record)
  let file := r.logging.fileLines r.file records
  [("console", array logLineJson (r.logging.console r.file records)),
    ("file", nullable (array logLineJson) file),
    ("file_name", nullable .text (file.map fun _ => r.logging.fileName))]

end Synthesis.Exchange
