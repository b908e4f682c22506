import Synthesis.Brief
import Synthesis.Chat.Model
import Synthesis.Command.Help
import Synthesis.Command.Plan
import Synthesis.Engine.Service
import Synthesis.Leaf.Scaffold
import Synthesis.Telemetry

/-!
The work of the commands: the settings are read and overridden by flags, the specification is
read, an engine is opened, and the command ranks, plans or synthesizes. A command gives the text
it prints and, if it fails, why.
-/
namespace Synthesis.Command

/-- What a command finds around it. -/
structure Surroundings where
  environment : Settings.Environment := []
  files : Files
  now : Timestamp

inductive Error where
  | usage (e : UsageError)
  | source (e : Settings.SourceError)
  | unread (message : String)
  | brief (e : Brief.Error)
  | noKey
  | opening (e : OpenError)
  | telemetry (e : TelemetryError)
  | unsolved (kind : String)

namespace Error

def message : Error → String
  | .usage e => e.message
  | .source e => e.message
  | .unread message => "read specification document: " ++ message
  | .brief e => e.message
  | .noKey => "openai generator: " ++ Chat.noKey
  | .opening e => e.message
  | .telemetry e => "telemetry: " ++ e.message
  | .unsolved kind => "synthesis failed: " ++ kind

/-- The work was done, but nothing was found. -/
def isUnsolved : Error → Bool
  | .unsolved _ => true
  | _ => false

/-- The exit code of the program: one without a solution, two for all other errors. -/
def exitCode (e : Error) : Nat := if e.isUnsolved then 1 else 2

end Error

structure Outcome where
  output : String := ""
  /-- What is told beside the output. -/
  notice : String := ""
  error : Option Error := none

namespace Outcome

def failed (e : Error) : Outcome := { error := some e }

def exitCode (o : Outcome) : Nat := (o.error.map (·.exitCode)).getD 0

/-- The line for the error channel; the lack of a solution is told by the exit code alone. -/
def complaint (o : Outcome) : Option String :=
  match o.error with
  | some e => if e.isUnsolved then none else some ("Error: " ++ e.message)
  | none => none

end Outcome

/-- The settings with the flags on top. -/
def Options.settings (o : Options) (around : Surroundings) : Except Error Settings := do
  let s ← (Settings.fromSources o.config around.files around.environment).mapError .source
  let pick := fun (flag value : String) => if flag = "" then value else flag
  let s : Settings := { s with
    log := { s.log with level := pick o.logLevel s.log.level }
    telemetry := { s.telemetry with
      traceExporter := pick o.traceExporter s.telemetry.traceExporter
      metricExporter := pick o.metricExporter s.telemetry.metricExporter }
    parallelSubproblems := s.parallelSubproblems || o.parallel }
  s.checked.mapError .source

/-- The history that settings ask for: a new journal, or none. -/
def history (s : Settings) (files : Files) : Except OpenError (Option HistoryQuery) :=
  if !s.history.enabled then .ok none
  else match files.folderError? s.history.path with
    | some cause =>
      if s.history.inMemory then .ok (some (Journal.asHistory {}))
      else .error (.journal ("create history directory " ++ s.history.path ++ ": " ++ cause))
    | none => .ok (some (Journal.asHistory {}))

/-- An engine with the specification it is to work on. -/
structure Desk where
  brief : Brief
  engine : Engine Unit
  session : Session Unit

/-- No server can be reached from here. -/
def noServer : Chat.Server Unit := fun _ state => (.unreachable "no route to host", state)

/-- The generator of leaves: a chat model, or else one that writes scaffolds. -/
def Options.generator (o : Options) (s : Settings) : Generator Unit :=
  if o.openai then
    (Chat.Model.new (if o.model = "" then s.generator.model else o.model) "" 0 0).generator noServer
  else Scaffold.generator

def Options.desk (o : Options) (around : Surroundings) (path : String) :
    Except Error Desk := do
  let s ← o.settings around
  let text ← ((around.files path).read path).mapError .unread
  let brief ← (Brief.parse text).mapError .brief
  if o.openai ∧ around.environment.value "OPENAI_API_KEY" = "" then throw .noKey
  let collaborators : Collaborators Unit := { generator := o.generator s }
  let (engine, session) ← (Engine.start s .builtin collaborators () none
    (fun _ => around.now.unixNanos) .inOrder).mapError .opening
  let history ← (history s around.files).mapError .opening
  (Telemetry.start (.ofSettings s.telemetry programName around.environment)).mapError .telemetry
  return ⟨brief, { engine with history := history.map fun ask _ _ => ask }, session⟩

namespace Desk

def history (b : Desk) : Option HistoryQuery := b.session.history b.engine

def walks (b : Desk) : Walks := (b.session.walks b.engine).scores

def ranked (b : Desk) : List Match :=
  b.engine.router.rank b.walks b.session.experience b.history b.brief.specification
    b.brief.context

def ranking (b : Desk) : String :=
  b.engine.router.explain b.walks b.session.experience b.history b.brief.specification
    b.brief.context

def plan (b : Desk) : Plan :=
  let choose : Plan.Choice := fun s cache =>
    let (m, updated) := b.engine.router.select b.walks b.session.experience b.history
      (b.session.now b.engine) s b.brief.context (some cache)
    (m, updated.getD cache)
  (Plan.build choose b.brief.context b.engine.settings.maxDepth.toNat b.brief.specification
    b.session.strategies).1

end Desk

/-- The frame of every answer in JSON. -/
def framed (v : Verb) (now : Timestamp) (success : Bool) (data : Json) : String :=
  (Json.object [("api_version", .text "1.0"), ("command", .text v.name),
    ("timestamp", .text now.render), ("duration_ms", .ofNat 0), ("success", .bool success),
    ("data", data)]).renderIndented ++ "\n"

def rankRow (m : Match) (i : Nat) : Json :=
  .object [("rank", .ofNat (i + 1)), ("strategy", .text m.name),
    ("confidence", .ofFloat m.confidence),
    ("signals", .object [("estimate", .ofFloat m.signals.estimate),
      ("history", .ofFloat m.signals.history), ("learned", .ofFloat m.signals.learned),
      ("tfidf", .ofFloat m.signals.text)])]

def artifactRow (a : Artifact) : Json :=
  .object ([("code", .text a.code)]
    ++ Plan.optional (a.confidence != 0) "confidence" (.ofFloat a.confidence)
    ++ Plan.optional (a.producer ≠ "") "producer" (.text a.producer))

def resultRow (r : Result) : Json :=
  let failure := r.failure?
  .object ([("success", .bool r.success)]
    ++ (r.solution?.map fun a => ("solution", artifactRow a)).toList
    ++ (failure.map fun f => ("error", Json.text f.message)).toList
    ++ (failure.map fun f => ("kind", Json.text f.kind.name)).toList
    ++ [("iterations", .ofInt r.iterations)]
    ++ Plan.optional (r.strategy ≠ "") "strategy" (.text r.strategy)
    ++ Plan.optional r.cached "cached" (.bool true)
    ++ [("depth", .ofInt r.depth)]
    ++ Plan.optional (!r.phases.isEmpty) "states" (.texts (r.phases.map (·.name)))
    ++ [("duration", .ofNat 0)])

def cacheRow {α : Type} (c : Cache α) : Json :=
  .object [("size", .ofNat c.size), ("hits", .ofNat c.hits), ("misses", .ofNat c.misses),
    ("hit_rate", .ofFloat c.hitRate), ("evictions", .ofNat c.evictions)]

def experienceRow (e : Experience) : Json :=
  .object [("total_outcomes", .ofNat e.size), ("max_history", .ofNat e.limit),
    ("strategies", .object (e.tally.sorted.map fun (name, t) => (name, .object [
      ("attempts", .ofNat t.attempts), ("successes", .ofNat t.successes),
      ("success_rate", .ofFloat t.successRate),
      ("avg_iterations", .ofFloat t.averageIterations)])))]

def statsRow (s : Session Unit) : Json :=
  .object [("Solutions", cacheRow s.solutions), ("Strategies", cacheRow s.strategies),
    ("Executions", cacheRow s.results), ("Learner", experienceRow s.experience)]

/-- The result of a run as text, with numbers on request. -/
def resultText (r : Result) (stats : Option (Session Unit)) : String :=
  (match r.failure? with
    | none => "strategy:   " ++ r.strategy ++ "\n"
    | some f => "failed:     " ++ f.kind.name ++ "\nerror:      " ++ f.message ++ "\n")
    ++ "iterations: " ++ Decimal.intText r.iterations ++ "\n"
    ++ "cached:     " ++ (if r.cached then "true" else "false") ++ "\n"
    ++ "duration:   " ++ Duration.text 0 ++ "\n"
    ++ (match stats with
      | none => ""
      | some s =>
        "solutions:  " ++ Decimal.natText s.solutions.size ++ " cached, "
          ++ Decimal.natText s.solutions.hits ++ " hits, "
          ++ Decimal.natText s.solutions.misses ++ " misses\n"
          ++ "learner:    " ++ Decimal.natText s.experience.size ++ " outcomes\n")
    ++ (match r.solution? with
      | none => ""
      | some a => "\n" ++ Text.dropLastNewlines a.code ++ "\n")

def rankOutcome (o : Options) (now : Timestamp) (b : Desk) : Outcome :=
  if o.json then
    let ms := b.ranked
    { output := framed .rank now (!ms.isEmpty) (.array (ms.zipIdx.map fun (m, i) => rankRow m i)) }
  else { output := b.ranking }

def planOutcome (o : Options) (now : Timestamp) (b : Desk) : Outcome :=
  let p := b.plan
  { output := if o.json then framed .plan now (p.entry.error = "") p.json else p.render "" }

def runOutcome (o : Options) (now : Timestamp) (b : Desk) : Outcome :=
  let (r, session) := b.engine.synthesize b.brief.specification b.brief.context b.session
  let stats := if o.stats then some session else none
  { output :=
      if o.json then
        framed .run now r.success (.object (("result", resultRow r)
          :: (stats.map fun s => ("stats", statsRow s)).toList))
      else resultText r stats
    error := r.failure?.map fun f => .unsolved f.kind.name }

def Request.outcome (around : Surroundings) : Request → Outcome
  | .help about => { output := about.helpText }
  | .unknownHelp words => { notice := unknownTopicText words }
  | .completions _ => {}
  | .work v o path =>
    match o.desk around path with
    | .error e => .failed e
    | .ok b =>
      match v with
      | .rank => rankOutcome o around.now b
      | .plan => planOutcome o around.now b
      | .run => runOutcome o around.now b

/-- The paths that a command reads at first. -/
def Request.firstPaths : Request → List String
  | .work _ o path => [o.config, path]
  | _ => []

/-- The paths that a command looks at later on, which its settings tell. -/
def Request.laterPaths (around : Surroundings) : Request → List String
  | .work _ o _ =>
    match o.settings around with
    | .ok s => Files.stages s.history.path
    | .error _ => []
  | _ => []

/-- Runs a whole command line. -/
def outcome (around : Surroundings) (args : List String) : Outcome :=
  match Request.parse args with
  | .error e => .failed (.usage e)
  | .ok r => r.outcome around

end Synthesis.Command
