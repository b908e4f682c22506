import Synthesis.Json.Writer
import Synthesis.Ranking

/-!
Plans: how a specification would be decomposed, level by level, without generating anything. A
node names the strategy that was chosen for it; a leaf is solved at once.
-/
namespace Synthesis

structure PlanEntry where
  description : String
  slot : String := ""
  condition : String := ""
  dependencies : List Int := []
  /-- The chosen strategy and how sure the choice is. -/
  choice : Option (String × Float) := none
  leaf : Bool := false
  waves : List (List Nat) := []
  error : String := ""

inductive Plan where
  | node (entry : PlanEntry) (children : List Plan)

namespace Plan

def entry : Plan → PlanEntry
  | .node e _ => e

/-- The plan of a subproblem, with its place among the others. -/
def placed (p : Subproblem) (index : Nat) : Plan → Plan
  | .node e children =>
    .node { e with
      slot := p.slotName index, condition := p.condition, dependencies := p.dependencies } children

/-- Chooses a strategy, and remembers the choice. -/
abbrev Choice := Specification → StrategyCache → Except Failure Match × StrategyCache

/-- The plans of subproblems, one after the other. -/
def buildAll (build : Specification → StrategyCache → Plan × StrategyCache) :
    Nat → List Subproblem → StrategyCache → List Plan × StrategyCache
  | _, [], cache => ([], cache)
  | i, p :: ps, cache =>
    let (plan, cache) := build p.specification cache
    let (plans, cache) := buildAll build (i + 1) ps cache
    (plan.placed p i :: plans, cache)

/-- The plan of a specification that may be decomposed over so many levels. -/
def build (choose : Choice) (c : Context) :
    Nat → Specification → StrategyCache → Plan × StrategyCache
  | levels, s, cache =>
    let e : PlanEntry := { description := s.summary }
    match choose s cache with
    | (.error f, cache) => (.node { e with error := f.message } [], cache)
    | (.ok m, cache) =>
      let e := { e with choice := some (m.name, m.confidence) }
      match levels with
      | 0 => (.node { e with leaf := true } [], cache)
      | levels + 1 =>
        if m.strategy.metadata.atomic then (.node { e with leaf := true } [], cache)
        else match m.strategy.decompose s c with
          | .error f => (.node { e with error := f.message } [], cache)
          | .ok [] => (.node { e with leaf := true } [], cache)
          | .ok subs =>
            match Decomposition.fault? subs with
            | some fault => (.node { e with error := fault.failure.message } [], cache)
            | none =>
              let (children, cache) := buildAll (build choose c levels) 0 subs cache
              (.node { e with waves := Decomposition.waves subs } children, cache)

def listText (xs : List String) : String := "[" ++ Text.join " " xs ++ "]"

/-- The lines of a single node. -/
def entryText (margin : String) (e : PlanEntry) : String :=
  let choice := match e.choice with
    | some (name, confidence) => if name = "" then ""
      else "  [" ++ name ++ " " ++ Decimal.fixed 3 confidence ++ "]"
    | none => ""
  let line (label text : String) : String :=
    if text = "" then "" else margin ++ "  " ++ label ++ ": " ++ text ++ "\n"
  margin ++ (if e.slot = "" then "" else e.slot ++ ": ") ++ e.description ++ choice
    ++ (if e.leaf then " leaf" else "") ++ "\n"
    ++ line "after" (if e.dependencies.isEmpty then ""
      else listText (e.dependencies.map Decimal.intText))
    ++ line "when" e.condition
    ++ line "waves" (if e.waves.isEmpty then ""
      else listText (e.waves.map fun w => listText (w.map Decimal.natText)))
    ++ line "error" e.error

mutual

/-- The plan as text, each level indented further. -/
def render (margin : String) : Plan → String
  | .node e children => entryText margin e ++ renderAll (margin ++ "  ") children

def renderAll (margin : String) : List Plan → String
  | [] => ""
  | p :: ps => render margin p ++ renderAll margin ps

end

/-- A member that is left out without content. -/
def optional (present : Bool) (name : String) (value : Json) : List (String × Json) :=
  if present then [(name, value)] else []

def entryMembers (e : PlanEntry) : List (String × Json) :=
  let (strategy, confidence) := e.choice.getD ("", 0)
  [("description", .text e.description)]
    ++ optional (e.slot ≠ "") "slot" (.text e.slot)
    ++ optional (e.condition ≠ "") "condition" (.text e.condition)
    ++ optional (!e.dependencies.isEmpty) "dependencies" (.array (e.dependencies.map .ofInt))
    ++ optional (strategy ≠ "") "strategy" (.text strategy)
    ++ optional (confidence != 0) "confidence" (.ofFloat confidence)
    ++ optional e.leaf "leaf" (.bool true)
    ++ optional (!e.waves.isEmpty) "waves"
      (.array (e.waves.map fun w => .array (w.map .ofNat)))

mutual

def json : Plan → Json
  | .node e children => .object (entryMembers e
      ++ optional (!children.isEmpty) "children" (.array (jsonAll children))
      ++ optional (e.error ≠ "") "error" (.text e.error))

def jsonAll : List Plan → List Json
  | [] => []
  | p :: ps => json p :: jsonAll ps

end

end Plan

end Synthesis
