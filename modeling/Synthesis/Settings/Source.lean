import Synthesis.File
import Synthesis.Settings.Check
import Synthesis.Settings.Record
import Synthesis.Yaml.Entry

/-!
Where settings come from: the defaults, then a file in YAML or JSON, then the environment. The
result is checked as a whole.
-/
namespace Synthesis

namespace Settings

open Yaml in
def Slot.enter (slot : Slot) : Node → Settings → Entering Settings :=
  match slot with
  | .int _ set _ => Shape.field Entering.int set
  | .bool _ set => Shape.field Entering.bool set
  | .text _ set _ => Shape.field Entering.text set
  | .real _ set => Shape.field Entering.real set
  | .texts _ set => Shape.field Entering.texts fun v s => set (v.getD []) s

open Yaml in
def shapeFields (fields : List Field) : List (String × (Node → Settings → Entering Settings)) :=
  fields.map fun f => (f.name, f.slot.enter)

/-- A section is a record of a type of its own. -/
def Section.shape (g : Section) : Yaml.Shape Settings :=
  ⟨"config." ++ g.label ++ "Config", shapeFields g.fields⟩

def shape : Yaml.Shape Settings :=
  ⟨"config.Config", shapeFields topFields
    ++ sections.map fun g => (g.name, g.shape.inner id fun inner _ => inner)⟩

/-- The first part of the name of every variable. -/
def variableLead : String := "SYNTH_"

/-- A number in a variable that cannot be read. -/
inductive VariableError where
  | int (name value : String) (cause : Decimal.IntError)
  | real (name value : String) (cause : Decimal.FloatError)

def VariableError.message : VariableError → String
  | .int name value cause =>
    variableLead ++ name ++ ": strconv.Atoi: parsing " ++ Text.quote value ++
      match cause with
      | .malformed => ": invalid syntax"
      | .outOfRange => ": value out of range"
  | .real name value cause =>
    variableLead ++ name ++ ": strconv.ParseFloat: parsing " ++ Text.quote value ++
      match cause with
      | .malformed => ": invalid syntax"
      | .outOfRange => ": value out of range"

inductive SourceError where
  | unread (message : String)
  /-- Neither YAML nor JSON. -/
  | unreadable (fault : Yaml.Fault)
  | environment (errors : List VariableError)
  | invalid (cause : SettingsError)

def SourceError.message : SourceError → String
  | .unread message => "load config file: " ++ message
  | .unreadable fault =>
    "load config file: parse config (tried YAML and JSON): YAML error: " ++ fault.message
      ++ ", JSON error: invalid JSON"
  | .environment errors =>
    "load config from env: " ++ Text.join "\n" (Text.sort (errors.map (·.message)))
  | .invalid cause => "invalid config: " ++ cause.message

/-- Lays a text over the settings, as YAML or else as JSON; what fits of the former is kept. -/
def overlayText (s : Settings) (text : String) : Except SourceError Settings :=
  let (partly, fault) := match shape.load text s with
    | .ok (t, []) => (t, none)
    | .ok (t, notes) => (t, some (Yaml.Fault.mismatches notes))
    | .error fault => (s, some fault)
  match fault with
  | none => .ok partly
  | some fault =>
    match (Json.parse? text).bind partly.overlay? with
    | some t => .ok t
    | none => .error (.unreadable fault)

/-- Lays a file over the settings, unless it is missing. -/
def overlayFile (s : Settings) (path : String) (file : FileState) : Except SourceError Settings :=
  match file with
  | .missing => .ok s
  | file =>
    match file.read path with
    | .ok content => s.overlayText content
    | .error message => .error (.unread message)

/-- How a variable changes the settings. -/
inductive Variable where
  | int (set : Int → Settings → Settings)
  | bool (set : Bool → Settings → Settings)
  | text (set : String → Settings → Settings)
  | real (set : Float → Settings → Settings)

/-- Items between commas, without the blank ones. -/
def splitList (v : String) : List String :=
  ((Text.splitAt ',' v.toList).map fun item => Text.trim (String.ofList item)).filter (· ≠ "")

def variableTable : List (String × Variable) := [
  ("MAX_ITERATIONS", .int fun v s => { s with maxIterations := v }),
  ("MAX_DEPTH", .int fun v s => { s with maxDepth := v }),
  ("MAX_PARALLELISM", .int fun v s => { s with maxParallelism := v }),
  ("MAX_VALIDATION_RETRIES", .int fun v s => { s with maxValidationRetries := v }),
  ("VALIDATION_TIMEOUT_MS", .int fun v s => { s with validationTimeoutMs := v }),
  ("MAX_RETRIES", .int fun v s => { s with maxRetries := v }),
  ("SOLUTION_CACHE_SIZE", .int fun v s =>
    { s with cache := { s.cache with solutionMaxSize := v } }),
  ("STRATEGY_CACHE_SIZE", .int fun v s =>
    { s with cache := { s.cache with strategyMaxSize := v } }),
  ("STRATEGY_CACHE_TTL", .int fun v s =>
    { s with cache := { s.cache with strategyTtlSeconds := v } }),
  ("LEARNER_MAX_HISTORY", .int fun v s => { s with maxHistory := v }),
  ("HISTORY_QUERY_LIMIT", .int fun v s => { s with history := { s.history with queryLimit := v } }),
  ("PARALLEL_SUBPROBLEMS", .bool fun v s => { s with parallelSubproblems := v }),
  ("STOP_ON_FIRST_VALID", .bool fun v s => { s with stopOnFirstValid := v }),
  ("HISTORY_ENABLED", .bool fun v s => { s with history := { s.history with enabled := v } }),
  ("HISTORY_IN_MEMORY", .bool fun v s => { s with history := { s.history with inMemory := v } }),
  ("LOG_JSON", .bool fun v s => { s with log := { s.log with json := v } }),
  ("POLICY_ENABLED", .bool fun v s => { s with policy := { s.policy with enabled := v } }),
  ("ENABLED_STRATEGIES", .text fun v s => { s with enabledStrategies := splitList v }),
  ("HISTORY_PATH", .text fun v s => { s with history := { s.history with path := v } }),
  ("LOG_LEVEL", .text fun v s => { s with log := { s.log with level := Text.lower v } }),
  ("LOG_DIR", .text fun v s => { s with log := { s.log with dir := v } }),
  ("GENERATOR_MODEL", .text fun v s => { s with generator := { s.generator with model := v } }),
  ("GENERATOR_BASE_URL", .text fun v s =>
    { s with generator := { s.generator with baseUrl := v } }),
  ("TRACE_EXPORTER", .text fun v s =>
    { s with telemetry := { s.telemetry with traceExporter := Text.lower v } }),
  ("METRIC_EXPORTER", .text fun v s =>
    { s with telemetry := { s.telemetry with metricExporter := Text.lower v } }),
  ("OTLP_ENDPOINT", .text fun v s =>
    { s with telemetry := { s.telemetry with otlpEndpoint := v } }),
  ("METRICS_ADDR", .text fun v s => { s with telemetry := { s.telemetry with metricsAddr := v } }),
  ("POLICY_MIN_CONFIDENCE", .text fun v s =>
    { s with policy := { s.policy with minConfidence := Text.lower v } }),
  ("GENERATOR_RPS", .real fun v s =>
    { s with generator := { s.generator with requestsPerSecond := v } })]

/-- The values of environment variables; the last one of a name counts. -/
abbrev Environment := List (String × String)

def Environment.value (env : Environment) (name : String) : String :=
  ((env.filter fun (k, _) => k == name).getLast?.map (·.2)).getD ""

/-- Enters the value of a variable. -/
def Variable.enter (v : Variable) (name value : String) (s : Settings) :
    Except VariableError Settings :=
  match v with
  | .int set => match Decimal.int? value with
    | .ok i => .ok (set i s)
    | .error cause => .error (.int name value cause)
  | .real set => match Decimal.float? value with
    | .ok x => .ok (set x s)
    | .error cause => .error (.real name value cause)
  | .bool set => .ok (set (value == "true" || value == "1") s)
  | .text set => .ok (set value s)

/-- Enters one variable after the other; an empty one counts as absent. -/
def enterVariables (env : Environment) :
    List (String × Variable) → Settings → Settings × List VariableError
  | [], s => (s, [])
  | (name, v) :: rest, s =>
    match env.value (variableLead ++ name) with
    | "" => enterVariables env rest s
    | value =>
      match v.enter name value s with
      | .ok t => enterVariables env rest t
      | .error e =>
        let (t, es) := enterVariables env rest s
        (t, e :: es)

def overlayEnvironment (s : Settings) (env : Environment) : Except SourceError Settings :=
  match enterVariables env variableTable s with
  | (t, []) => .ok t
  | (_, errors) => .error (.environment errors)

def checked (s : Settings) : Except SourceError Settings :=
  match s.error? with
  | some e => .error (.invalid e)
  | none => .ok s

/-- The settings out of a file, if there is a path, and the environment. -/
def fromSources (path : String) (files : Files) (env : Environment) :
    Except SourceError Settings := do
  let s ← if path = "" then .ok {} else overlayFile {} path (files path)
  let s ← s.overlayEnvironment env
  s.checked

end Settings

end Synthesis
