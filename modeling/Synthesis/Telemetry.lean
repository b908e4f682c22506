import Synthesis.Log

/-!
Telemetry: which exporters a program starts, and the identifiers of a trace that its log lines
carry.
-/
namespace Synthesis

structure Telemetry where
  service : String := "synth"
  version : String := "0.1.0"
  environment : String := "development"
  traceExporter : String := "none"
  metricExporter : String := "none"
  endpoint : String := "localhost:4317"
  insecure : Bool := true

inductive TelemetryError where
  | noContext
  | unknownTracer (name : String)
  | unknownMeter (name : String)
  deriving Repr, DecidableEq

namespace TelemetryError

def message : TelemetryError → String
  | .noContext => "context must not be nil"
  | .unknownTracer name => "init tracer: unknown exporter type: " ++ name
  | .unknownMeter name => "init meter: unknown exporter type: " ++ name

def isUnknownExporter : TelemetryError → Bool
  | .noContext => false
  | _ => true

end TelemetryError

namespace Telemetry

/-- The defaults, as far as the environment does not change them. -/
def fromEnvironment (env : Settings.Environment) : Telemetry :=
  let value := fun (name absent : String) => match env.value name with
    | "" => absent
    | v => v
  { environment := value "SYNTH_ENV" "development"
    traceExporter := value "OTEL_TRACES_EXPORTER" "none"
    metricExporter := value "OTEL_METRICS_EXPORTER" "none"
    endpoint := value "OTEL_EXPORTER_OTLP_ENDPOINT" "localhost:4317" }

def ofSettings (s : TelemetrySettings) (service : String) (env : Settings.Environment) :
    Telemetry :=
  let t := fromEnvironment env
  { t with
    service
    traceExporter := s.traceExporter
    metricExporter := s.metricExporter
    endpoint := if s.otlpEndpoint = "" then t.endpoint else s.otlpEndpoint }

def isOff (exporter : String) : Bool := exporter == "none" || exporter == ""

/-- Starts the exporters, that of traces first. -/
def start (t : Telemetry) : Except TelemetryError Unit := do
  if !isOff t.traceExporter && !(["otlp", "stdout"].contains t.traceExporter) then
    throw (.unknownTracer t.traceExporter)
  if !isOff t.metricExporter && !(["prometheus", "stdout"].contains t.metricExporter) then
    throw (.unknownMeter t.metricExporter)

end Telemetry

/-- The identifiers of a span and of the trace it belongs to; empty ones are unknown. -/
structure TraceContext where
  trace : String := ""
  span : String := ""

namespace TraceContext

/-- An identifier: so many hexadecimal digits in lower case, not all of them zero. -/
def identifier (width : Nat) (text : String) : String :=
  let cs := text.toList
  if cs.length = width ∧ cs.all (fun c => Text.isAsciiDigit c || ('a' ≤ c && c ≤ 'f'))
      ∧ cs.any (· != '0') then text
  else ""

def ofTexts (trace span : String) : TraceContext := ⟨identifier 32 trace, identifier 16 span⟩

/-- Log lines carry the identifiers only when both are known. -/
def scope (t : TraceContext) (outer : LogScope) : LogScope :=
  if t.trace = "" ∨ t.span = "" then outer
  else outer.withAttributes [("trace_id", t.trace), ("span_id", t.span)]

end TraceContext

end Synthesis
