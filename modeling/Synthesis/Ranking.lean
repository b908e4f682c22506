import Synthesis.Strategy.Builtin
import Synthesis.Similarity.Corpus
import Synthesis.Experience.Snapshot
import Synthesis.Store.Keyed
import Synthesis.Decimal.Fixed
import Synthesis.Text.Columns

/-!
Ranking strategies. Every strategy that can handle a specification gets four signals between
zero and one: the similarity of its document to the specification, its own estimate, the share
of successes in the history of past runs, and its score by experience. Their weighted sum is
the confidence; the strategies are ranked by it, equal ones in the order of registration. The
walks of a ranking, or of looking at a remembered choice again, are those of its similarities.
-/
namespace Synthesis

/-- A past run as the history keeps it. -/
structure HistoryRecord where
  id : String := ""
  query : String := ""
  strategy : String := ""
  outcome : String := ""
  iterations : Int := 0
  recordedAt : Timestamp := ⟨0, 0, 0⟩

namespace HistoryRecord

def success : String := "success"

def failure : String := "failure"

end HistoryRecord

/-- What a history answers to a query text, a limit and the name of a strategy. -/
abbrev HistoryQuery := String → Int → String → Except Failure (List HistoryRecord)

structure Signals where
  text : Float
  estimate : Float
  history : Float
  learned : Float

namespace Signals

def textWeight : Float := 0.30

def estimateWeight : Float := 0.30

def historyWeight : Float := 0.20

def learnedWeight : Float := 0.20

def confidence (s : Signals) : Float :=
  clampUnit (textWeight * s.text + estimateWeight * s.estimate + historyWeight * s.history
    + learnedWeight * s.learned)

end Signals

structure Match where
  strategy : Strategy
  confidence : Float
  signals : Signals
  /-- The choice was remembered from an earlier time. -/
  cached : Bool := false

namespace Match

def name (m : Match) : String := m.strategy.name

end Match

/-- The strategies to rank and what they are ranked by. The strategies are fixed when the router
is made; the registry is where a remembered choice is looked up. -/
structure Router where
  registry : Registry
  strategies : List Strategy
  corpus : Corpus
  historyLimit : Int

namespace Router

def defaultHistoryLimit : Int := 20

def new (registry : Registry) (historyLimit : Int) (walks : Walks) : Router :=
  { registry
    strategies := registry.strategies
    corpus := .ofDocuments walks (registry.strategies.map fun s => ⟨s.name, s.metadata.document⟩)
    historyLimit := if historyLimit ≤ 0 then defaultHistoryLimit else historyLimit }

def neutralHistory : Float := 0.5

/-- The share of successes among the first `limit` records of a strategy, or the neutral signal
without any. -/
def successShare (limit : Int) (name : String) (records : List HistoryRecord) : Float :=
  let own := (records.filter (·.strategy == name)).take limit.toNat
  if own.isEmpty then neutralHistory
  else (own.countP (·.outcome == HistoryRecord.success)).toFloat / own.length.toFloat

def historySignal (r : Router) (history : Option HistoryQuery) (query name : String) : Float :=
  match history with
  | none => neutralHistory
  | some ask =>
    match ask query r.historyLimit name with
    | .error _ => neutralHistory
    | .ok records => successShare r.historyLimit name records

def assess (r : Router) (e : Experience) (history : Option HistoryQuery) (s : Specification)
    (c : Context) (strategy : Strategy) (similarity : Float) : Match :=
  let signals : Signals :=
    { text := clampUnit similarity
      estimate := clampUnit (strategy.estimate s c)
      history := clampUnit (r.historySignal history s.query strategy.name)
      learned := clampUnit (e.score s strategy.name) }
  { strategy, confidence := signals.confidence, signals }

/-- The strategies that can handle the specification, most confident first. -/
def rank (r : Router) (walks : Walks) (e : Experience) (history : Option HistoryQuery)
    (s : Specification) (c : Context) : List Match :=
  let scored := r.strategies.zip (r.corpus.scores walks s.query)
  let candidates := scored.filter fun (t, _) => t.canHandle s c
  (candidates.map fun (t, similarity) => r.assess e history s c t similarity).mergeSort
    fun a b => !(a.confidence < b.confidence)

section Similarity

variable {α : Type} [Zero α] [Add α] [Mul α] [Div α] [NatCast α] [BEq α]

/-- The similarity of the strategy with that name. -/
def similarityIn (A : Scoring α) (r : Router) (walks : Walks) (s : Specification)
    (name : String) : α :=
  match r.strategies.findIdx? fun t => t.name == name with
  | some i => r.corpus.similarityIn A walks s.query i
  | none => 0

end Similarity

def similarityOf (r : Router) (walks : Walks) (s : Specification) (name : String) : Float :=
  r.similarityIn Corpus.doubles walks s name

def noStrategy (r : Router) (s : Specification) : Failure :=
  .noStrategy s.summary r.strategies.length

/-- The remembered choice, as long as it still names a strategy that can handle the
specification; a choice that does not is forgotten. -/
def remembered (r : Router) (walks : Walks) (e : Experience) (history : Option HistoryQuery)
    (now : Int) (s : Specification) (c : Context) (cache : StrategyCache) :
    Option Match × StrategyCache :=
  match cache.get now (strategyKey s) with
  | (none, cache) => (none, cache)
  | (some name, cache) =>
    match (r.registry.get? name).filter fun t => t.canHandle s c with
    | some t =>
      (some { r.assess e history s c t (r.similarityOf walks s name) with cached := true }, cache)
    | none => (none, cache.erase (strategyKey s))

/-- Chooses a strategy: the remembered one, or else the best ranked one, which is remembered. -/
def select (r : Router) (walks : Walks) (e : Experience) (history : Option HistoryQuery)
    (now : Int) (s : Specification) (c : Context) (cache : Option StrategyCache) :
    Except Failure Match × Option StrategyCache :=
  let (remembered, cache) := match cache with
    | none => (none, none)
    | some cache =>
      let (m, cache) := r.remembered walks e history now s c cache
      (m, some cache)
  match remembered with
  | some m => (.ok m, cache)
  | none =>
    match r.rank walks e history s c with
    | [] => (.error (r.noStrategy s), cache)
    | best :: _ => (.ok best, cache.map fun k => k.set now (strategyKey s) best.name)

/-- A failed choice is not kept. -/
def forgetFailed (s : Specification) (success : Bool) (cache : StrategyCache) : StrategyCache :=
  if success then cache else cache.erase (strategyKey s)

def historyEntry (s : Specification) (name : String) (success : Bool) (iterations : Int) :
    HistoryRecord :=
  { query := s.query
    strategy := name
    outcome := if success then HistoryRecord.success else HistoryRecord.failure
    iterations }

/-- Rows as text in columns. A tab inside of a cell divides it. -/
def tabulate (rows : List (List String)) : String :=
  Text.inColumns (String.join (rows.map fun row => Text.join "\t" row ++ "\n"))

def explainRow (m : Match) (i : Nat) : List String :=
  let places := Decimal.fixed 3
  [Decimal.natText (i + 1), m.name, places m.confidence, places m.signals.text,
    places m.signals.estimate, places m.signals.history, places m.signals.learned]

/-- The ranking as a table. -/
def explain (r : Router) (walks : Walks) (e : Experience) (history : Option HistoryQuery)
    (s : Specification) (c : Context) : String :=
  match r.rank walks e history s c with
  | [] => "no strategy can handle " ++ Text.quote s.summary ++ "\n"
  | ms =>
    tabulate (["RANK", "STRATEGY", "CONFIDENCE", "TFIDF", "ESTIMATE", "HISTORY", "LEARNED"]
      :: ms.zipIdx.map fun (m, i) => explainRow m i)

end Router

end Synthesis
