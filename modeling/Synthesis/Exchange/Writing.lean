import Synthesis.Engine.Result
import Synthesis.Ranking
import Synthesis.Leaf.Validation
import Synthesis.Leak
import Synthesis.Json.Writer

/-!
Writing the library's values as JSON, for callers outside. Computed numbers are written as texts
with six decimals, so that a last bit does not show.
-/
namespace Synthesis.Exchange

/-- Six decimals, and no sign in front of a zero. -/
def num (x : Float) : Json :=
  if x.isNaN then .text "nan"
  else if x.isInf then .text (if x < 0 then "-inf" else "inf")
  else
    let s := Decimal.fixed 6 x
    .text (if s = "-0.000000" then "0.000000" else s)

def nat (n : Nat) : Json := .ofNat n

def nullable {α : Type} (f : α → Json) : Option α → Json
  | none => .null
  | some a => f a

def array {α : Type} (f : α → Json) (xs : List α) : Json := .array (xs.map f)

def listing {α : Type} (f : α → Json) (xs : Option (List α)) : Json := nullable (array f) xs

/-- The entries as one object if every key is a text, else as pairs in the order of the keys'
JSON texts. -/
def entriesJson (entries : List (Value × (Json × Json))) : Json :=
  let named := entries.filterMap fun (k, _, v) => match k with
    | .text s => some (s, v)
    | _ => none
  if named.length = entries.length then
    .object [("map", .object (Table.sortedPairs named))]
  else
    let sorted := (entries.map (·.2)).mergeSort fun a b => Text.le a.1.render b.1.render
    .object [("pairs", .array (sorted.map fun (k, v) => .array [k, v]))]

mutual

/-- A value with the types that JSON does not tell apart. -/
def valueJson : Value → Json
  | .null => .null
  | .bool b => .bool b
  | .int i => .object [("int", .text (Decimal.intText i))]
  | .float x => .object [("float", .text (Value.floatText x))]
  | .text s => .text s
  | .time t => .object [("time", .text t.render)]
  | .list items => .array (valuesJson items)
  | .map entries => entriesJson (entryJsons entries)

def valuesJson : List Value → List Json
  | [] => []
  | v :: vs => valueJson v :: valuesJson vs

def entryJsons : List (Value × Value) → List (Value × (Json × Json))
  | [] => []
  | (k, v) :: rest => (k, valueJson k, valueJson v) :: entryJsons rest

end

def exampleJson (e : Example) : Json :=
  .object [("input", valueJson e.input), ("output", valueJson e.output)]

def testJson (t : TestCase) : Json :=
  .object [("name", .text t.name), ("source", .text t.source),
    ("calls", listing .text t.calls), ("input", valueJson t.input),
    ("expected", valueJson t.expected)]

def specJson (s : Specification) : Json :=
  .object [("description", .text s.description), ("type_signature", .text s.typeSignature),
    ("examples", listing exampleJson s.examples), ("constraints", listing .text s.constraints),
    ("tests", listing testJson s.tests)]

def artifactJson (a : Artifact) : Json :=
  .object [("code", .text a.code), ("confidence", num a.confidence),
    ("producer", .text a.producer)]

def subproblemJson (p : Subproblem) : Json :=
  .object [("spec", specJson p.specification), ("deps", array .ofInt p.dependencies),
    ("priority", .ofInt p.priority), ("slot", .text p.slot), ("condition", .text p.condition)]

def resultMembers (r : Result) : List (String × Json) :=
  [("success", .bool r.success), ("solution", nullable artifactJson r.solution?),
    ("error", .text r.errorText), ("kind", .text r.kindText),
    ("iterations", .ofInt r.iterations), ("strategy", .text r.strategy),
    ("cached", .bool r.cached), ("depth", .ofInt r.depth),
    ("states", if r.phases.isEmpty then .null
      else array (fun (p : Phase) => .text p.name) r.phases)]

def cacheJson {α : Type} (c : Cache α) : Json :=
  .object [("size", nat c.size), ("hits", nat c.hits), ("misses", nat c.misses),
    ("hit_rate", num c.hitRate), ("evictions", nat c.evictions)]

def featuresJson (fs : Features) : Json := .object (fs.sorted.map fun (k, l) => (k, num l.toFloat))

def outcomeMembers (o : Outcome) : List (String × Json) :=
  [("features", featuresJson o.features), ("strategy", .text o.strategy),
    ("success", .bool o.success), ("iterations", .ofInt o.iterations),
    ("summary", .text o.summary)]

def experienceJson (e : Experience) : Json :=
  .object [("total", nat e.size), ("max_history", nat e.limit),
    ("strategies", .object (e.tally.sorted.map fun (k, r) => (k, .object
      [("attempts", nat r.attempts), ("successes", nat r.successes),
       ("success_rate", num r.successRate), ("avg_iterations", num r.averageIterations)])))]

def matchMembers (m : Match) : List (String × Json) :=
  [("name", .text m.name), ("confidence", num m.confidence),
    ("signals", .object [("tfidf", num m.signals.text), ("estimate", num m.signals.estimate),
      ("history", num m.signals.history), ("learned", num m.signals.learned)]),
    ("cached", .bool m.cached)]

def recordMembers (r : HistoryRecord) : List (String × Json) :=
  [("query", .text r.query), ("strategy", .text r.strategy),
    ("outcome", .text r.outcome), ("iterations", .ofInt r.iterations)]

def candidateMembers (c : Candidate) : List (String × Json) :=
  [("success", .bool c.success), ("code", .text c.code), ("confidence", num c.confidence)]

def reportJson (r : Report) : Json :=
  .object [("passed", .bool r.passed), ("issues", Json.texts r.issues)]

def hitJson (h : ScoredAbstraction) : Json :=
  .array [.text h.abstraction.name, .text h.abstraction.description, num h.score]

def findingJson (f : Finding) : Json :=
  .object [("line", nat f.line), ("matched", .text f.matched),
    ("class", .text f.classification), ("id", .text f.rule.id),
    ("description", .text f.rule.description),
    ("confidence", .text f.rule.confidence.name), ("rank", nat f.rule.confidence.rank)]

def metadataJson (m : Metadata) : Json :=
  .object [("name", .text m.name), ("description", .text m.description),
    ("keywords", Json.texts m.keywords), ("atomic", .bool m.atomic),
    ("document", .text m.document), ("tokens", Json.texts (Tokens.ofText m.document))]

def snapshotMembers (s : Snapshot) : List (String × Json) :=
  [("version", .ofInt s.version), ("max_history", .ofInt s.limit),
    ("outcomes", array (fun o => .object (outcomeMembers o)) (s.outcomes.getD [])),
    ("null", .bool s.outcomes.isNone)]

end Synthesis.Exchange
