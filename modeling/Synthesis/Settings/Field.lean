import Synthesis.Settings.Basic

/-!
The fields of the settings as a table: where a field stands in a document, what kind of value it
takes, how it is entered, and which values are allowed.
-/
namespace Synthesis.Settings

inductive TextRule where
  | any
  | oneOf (choices : List String)
  /-- Empty, or a web address. -/
  | address

/-- A place in the settings for a value of some kind, with the values it allows. -/
inductive Slot where
  | int (get : Settings → Int) (set : Int → Settings → Settings) (least : Option Int)
  | bool (get : Settings → Bool) (set : Bool → Settings → Settings)
  | text (get : Settings → String) (set : String → Settings → Settings) (rule : TextRule)
  /-- A number that must not be negative. -/
  | real (get : Settings → Float) (set : Float → Settings → Settings)
  /-- A list of texts that must not be empty. -/
  | texts (get : Settings → List String) (set : List String → Settings → Settings)

structure Field where
  name : String
  /-- The name in messages about the field. -/
  label : String
  slot : Slot

structure Section where
  name : String
  label : String
  fields : List Field

def topFields : List Field := [
  ⟨"max_iterations", "MaxIterations",
    .int (·.maxIterations) (fun v s => { s with maxIterations := v }) (some 1)⟩,
  ⟨"max_depth", "MaxDepth", .int (·.maxDepth) (fun v s => { s with maxDepth := v }) (some 0)⟩,
  ⟨"parallel_subproblems", "ParallelSubproblems",
    .bool (·.parallelSubproblems) fun v s => { s with parallelSubproblems := v }⟩,
  ⟨"max_parallelism", "MaxParallelism",
    .int (·.maxParallelism) (fun v s => { s with maxParallelism := v }) (some 1)⟩,
  ⟨"stop_on_first_valid", "StopOnFirstValid",
    .bool (·.stopOnFirstValid) fun v s => { s with stopOnFirstValid := v }⟩,
  ⟨"max_validation_retries", "MaxValidationRetries",
    .int (·.maxValidationRetries) (fun v s => { s with maxValidationRetries := v }) (some 0)⟩,
  ⟨"validation_timeout_ms", "ValidationTimeoutMS",
    .int (·.validationTimeoutMs) (fun v s => { s with validationTimeoutMs := v }) (some 0)⟩,
  ⟨"max_retries", "MaxRetries",
    .int (·.maxRetries) (fun v s => { s with maxRetries := v }) (some 0)⟩,
  ⟨"enabled_strategies", "EnabledStrategies",
    .texts (·.enabledStrategies) fun v s => { s with enabledStrategies := v }⟩]

def cacheField (name label : String) (get : CacheSettings → Int)
    (set : Int → CacheSettings → CacheSettings) (least : Int) : Field :=
  ⟨name, label,
    .int (fun s => get s.cache) (fun v s => { s with cache := set v s.cache }) (some least)⟩

def cacheSection : Section := ⟨"cache", "Cache", [
  cacheField "solution_max_size" "SolutionMaxSize" (·.solutionMaxSize)
    (fun v c => { c with solutionMaxSize := v }) 1,
  cacheField "solution_ttl_seconds" "SolutionTTLSeconds" (·.solutionTtlSeconds)
    (fun v c => { c with solutionTtlSeconds := v }) 0,
  cacheField "strategy_max_size" "StrategyMaxSize" (·.strategyMaxSize)
    (fun v c => { c with strategyMaxSize := v }) 1,
  cacheField "strategy_ttl_seconds" "StrategyTTLSeconds" (·.strategyTtlSeconds)
    (fun v c => { c with strategyTtlSeconds := v }) 0,
  cacheField "execution_max_size" "ExecutionMaxSize" (·.executionMaxSize)
    (fun v c => { c with executionMaxSize := v }) 1,
  cacheField "execution_ttl_seconds" "ExecutionTTLSeconds" (·.executionTtlSeconds)
    (fun v c => { c with executionTtlSeconds := v }) 0]⟩

def learnerSection : Section := ⟨"learner", "Learner", [
  ⟨"max_history", "MaxHistory",
    .int (·.maxHistory) (fun v s => { s with maxHistory := v }) (some 1)⟩]⟩

def historySection : Section := ⟨"history", "History", [
  ⟨"enabled", "Enabled",
    .bool (·.history.enabled) fun v s => { s with history := { s.history with enabled := v } }⟩,
  ⟨"path", "Path",
    .text (·.history.path) (fun v s => { s with history := { s.history with path := v } }) .any⟩,
  ⟨"in_memory", "InMemory",
    .bool (·.history.inMemory) fun v s => { s with history := { s.history with inMemory := v } }⟩,
  ⟨"query_limit", "QueryLimit",
    .int (·.history.queryLimit)
      (fun v s => { s with history := { s.history with queryLimit := v } }) (some 1)⟩]⟩

def logSection : Section := ⟨"log", "Log", [
  ⟨"level", "Level",
    .text (·.log.level) (fun v s => { s with log := { s.log with level := v } })
      (.oneOf ["debug", "info", "warn", "warning", "error"])⟩,
  ⟨"json", "JSON", .bool (·.log.json) fun v s => { s with log := { s.log with json := v } }⟩,
  ⟨"dir", "Dir",
    .text (·.log.dir) (fun v s => { s with log := { s.log with dir := v } }) .any⟩]⟩

def generatorSection : Section := ⟨"generator", "Generator", [
  ⟨"model", "Model",
    .text (·.generator.model)
      (fun v s => { s with generator := { s.generator with model := v } }) .any⟩,
  ⟨"base_url", "BaseURL",
    .text (·.generator.baseUrl)
      (fun v s => { s with generator := { s.generator with baseUrl := v } }) .address⟩,
  ⟨"requests_per_second", "RequestsPerSecond",
    .real (·.generator.requestsPerSecond)
      fun v s => { s with generator := { s.generator with requestsPerSecond := v } }⟩]⟩

def telemetrySection : Section := ⟨"telemetry", "Telemetry", [
  ⟨"trace_exporter", "TraceExporter",
    .text (·.telemetry.traceExporter)
      (fun v s => { s with telemetry := { s.telemetry with traceExporter := v } })
      (.oneOf ["none", "stdout", "otlp"])⟩,
  ⟨"metric_exporter", "MetricExporter",
    .text (·.telemetry.metricExporter)
      (fun v s => { s with telemetry := { s.telemetry with metricExporter := v } })
      (.oneOf ["none", "stdout", "prometheus"])⟩,
  ⟨"otlp_endpoint", "OTLPEndpoint",
    .text (·.telemetry.otlpEndpoint)
      (fun v s => { s with telemetry := { s.telemetry with otlpEndpoint := v } }) .any⟩,
  ⟨"metrics_addr", "MetricsAddr",
    .text (·.telemetry.metricsAddr)
      (fun v s => { s with telemetry := { s.telemetry with metricsAddr := v } }) .any⟩]⟩

def policySection : Section := ⟨"policy", "Policy", [
  ⟨"enabled", "Enabled",
    .bool (·.policy.enabled) fun v s => { s with policy := { s.policy with enabled := v } }⟩,
  ⟨"min_confidence", "MinConfidence",
    .text (·.policy.minConfidence)
      (fun v s => { s with policy := { s.policy with minConfidence := v } })
      (.oneOf ["low", "medium", "high"])⟩]⟩

def sections : List Section :=
  [cacheSection, learnerSection, historySection, logSection, generatorSection, telemetrySection,
    policySection]

end Synthesis.Settings
