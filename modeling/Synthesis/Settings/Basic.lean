import Synthesis.Store.Keyed
import Synthesis.Ranking

/-!
The settings of synthesis with their defaults, and the durations they stand for. Durations are
counted in nanoseconds inside the signed sixty-four bit range.
-/
namespace Synthesis

structure CacheSettings where
  solutionMaxSize : Int := SolutionCache.defaultSize
  solutionTtlSeconds : Int := 0
  strategyMaxSize : Int := StrategyCache.defaultSize
  strategyTtlSeconds : Int := 600
  executionMaxSize : Int := ExecutionCache.defaultSize
  executionTtlSeconds : Int := 3600

structure HistorySettings where
  enabled : Bool := false
  path : String := ""
  inMemory : Bool := false
  queryLimit : Int := Router.defaultHistoryLimit

structure LogSettings where
  level : String := "info"
  json : Bool := false
  dir : String := ""

structure GeneratorSettings where
  model : String := "gpt-4o-mini"
  baseUrl : String := ""
  requestsPerSecond : Float := 1

structure TelemetrySettings where
  traceExporter : String := "none"
  metricExporter : String := "none"
  otlpEndpoint : String := ""
  metricsAddr : String := ""

structure PolicySettings where
  enabled : Bool := true
  minConfidence : String := "high"

structure Settings where
  maxIterations : Int := 100
  maxDepth : Int := 5
  parallelSubproblems : Bool := false
  maxParallelism : Int := 4
  stopOnFirstValid : Bool := false
  maxValidationRetries : Int := 2
  validationTimeoutMs : Int := 30000
  maxRetries : Int := 2
  enabledStrategies : List String := []
  cache : CacheSettings := {}
  /-- The size of the window of outcomes. -/
  maxHistory : Int := Experience.defaultLimit
  history : HistorySettings := {}
  log : LogSettings := {}
  generator : GeneratorSettings := {}
  telemetry : TelemetrySettings := {}
  policy : PolicySettings := {}

namespace Settings

def milliseconds (n : Int) : Int := Decimal.wrap64 (n * 1000000)

def seconds (n : Int) : Int := Decimal.wrap64 (n * second)

/-- The time limit of one call to a collaborator. -/
def validationTimeout (s : Settings) : Int := milliseconds s.validationTimeoutMs

def newSolutions (s : Settings) : SolutionCache :=
  .new s.cache.solutionMaxSize (seconds s.cache.solutionTtlSeconds)

def newStrategies (s : Settings) : StrategyCache :=
  .new s.cache.strategyMaxSize (seconds s.cache.strategyTtlSeconds)

def newExecutions (s : Settings) : ExecutionCache :=
  .new s.cache.executionMaxSize (seconds s.cache.executionTtlSeconds)

end Settings

end Synthesis
