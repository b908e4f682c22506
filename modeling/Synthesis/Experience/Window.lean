import Synthesis.Experience.Features

/-!
Experience: a window of the newest outcomes. From it a strategy gets a score for a
specification, the share of successes among its outcomes weighted by how similar their
specifications were.
-/
namespace Synthesis

structure Outcome where
  features : Features
  strategy : String
  success : Bool
  iterations : Int
  summary : String
  recordedAt : Timestamp

/-- The newest `n` members of a list that has its oldest member first. -/
def newest {α : Type} (n : Nat) (xs : List α) : List α := xs.drop (xs.length - n)

structure Experience where
  limit : Nat
  window : List Outcome := []

namespace Experience

def defaultLimit : Nat := 1000

/-- An empty window of the given size; a size below one means the default one. -/
def new (limit : Int) : Experience := { limit := if limit ≤ 0 then defaultLimit else limit.toNat }

def size (e : Experience) : Nat := e.window.length

def push (e : Experience) (o : Outcome) : Experience :=
  { e with window := newest e.limit (e.window ++ [o]) }

/-- Takes over a list of outcomes, oldest first, in place of the window. -/
def replace (e : Experience) (outcomes : List Outcome) : Experience :=
  { e with window := newest e.limit outcomes }

def record (e : Experience) (now : Timestamp) (s : Specification) (strategy : String)
    (success : Bool) (iterations : Int) : Experience :=
  e.push ⟨.ofSpecification s, strategy, success, iterations, s.summary, now⟩

section Score

variable {α : Type} [Zero α] [Add α] [Div α] [LE α] [DecidableLE α] [BEq α]

/-- Adds a similarity to the weight of the successes and to the whole weight; a similarity of
zero or less says nothing. -/
def weigh (acc : α × α) (evidence : α × Bool) : α × α :=
  let (similarity, success) := evidence
  if similarity ≤ 0 then acc
  else (if success then acc.1 + similarity else acc.1, acc.2 + similarity)

/-- The share of successes, weighted by similarity; without evidence the neutral score. -/
def weightedShare (neutral : α) (evidence : List (α × Bool)) : α :=
  let (successes, total) := evidence.foldl weigh (0, 0)
  if total == 0 then neutral else successes / total

/-- The outcomes of a strategy as evidence, by any measure of similarity. -/
def evidence (measure : Features → Features → α) (window : List Outcome) (f : Features)
    (strategy : String) : List (α × Bool) :=
  (window.filter (·.strategy == strategy)).map fun o => (measure f o.features, o.success)

/-- The score of a strategy by any measure of similarity. -/
def scoreBy (neutral : α) (measure : Features → Features → α) (e : Experience) (f : Features)
    (strategy : String) : α :=
  weightedShare neutral (evidence measure e.window f strategy)

end Score

def neutralScore : Float := 0.5

def scoreOf (e : Experience) (f : Features) (strategy : String) : Float :=
  e.scoreBy neutralScore Features.similarity f strategy

def score (e : Experience) (s : Specification) (strategy : String) : Float :=
  e.scoreOf (.ofSpecification s) strategy

/-- The strategies met so far with their scores, best first and then by name. -/
def recommend (e : Experience) (s : Specification) : List (String × Float) :=
  let f := Features.ofSpecification s
  let names := Text.distinct (e.window.map (·.strategy))
  (names.map fun n => (n, e.scoreOf f n)).mergeSort fun a b =>
    if a.2 == b.2 then Text.le a.1 b.1 else b.2 < a.2

/-- The outcomes of similar specifications, most similar first and newest among equals. -/
def similar (e : Experience) (s : Specification) (limit : Int) : List (Outcome × Float) :=
  let f := Features.ofSpecification s
  let found := (e.window.reverse.map fun o => (o, f.similarity o.features)).filter (0 < ·.2)
  let sorted := found.mergeSort fun a b => !(a.2 < b.2)
  if 0 < limit then sorted.take limit.toNat else sorted

structure StrategyRecord where
  attempts : Nat := 0
  successes : Nat := 0
  iterations : Int := 0

namespace StrategyRecord

def successRate (r : StrategyRecord) : Float := r.successes.toFloat / r.attempts.toFloat

def averageIterations (r : StrategyRecord) : Float :=
  Float.ofInt r.iterations / r.attempts.toFloat

def add (r : StrategyRecord) (o : Outcome) : StrategyRecord :=
  { attempts := r.attempts + 1
    successes := r.successes + (if o.success then 1 else 0)
    iterations := Decimal.wrap64 (r.iterations + o.iterations) }

end StrategyRecord

/-- Attempts, successes and iterations of each strategy in the window. -/
def tally (e : Experience) : Table StrategyRecord :=
  e.window.foldl (fun t o => t.insert o.strategy (((t.get? o.strategy).getD {}).add o)) {}

end Experience

end Synthesis
