import Synthesis.Strategy.Basic
import Synthesis.TestView

/-!
Splitting by tests: tests of one category, or of one primary operation, form a cluster, and each
cluster becomes a subproblem. A cluster that holds every test would restate the problem and is
left out; with fewer than two clusters nothing is split.
-/
namespace Synthesis.Strategy.Clusters

/-- Categories in the order of their subproblems. -/
def categories : List Category := [.happyPath, .validation, .errorHandling, .edgeCase]

def label : Category → String
  | .happyPath => "happy path behavior"
  | .validation => "input validation"
  | .errorHandling => "error handling"
  | .edgeCase => "edge cases"
  | .general => ""

def condition : Category → String
  | .validation => "input is invalid"
  | .errorHandling => "an error occurs"
  | .edgeCase => "input is empty or missing"
  | _ => ""

/-- A test with its view. -/
structure Viewed where
  test : TestCase
  view : TestView

def viewed (s : Specification) : List Viewed :=
  s.testList.zipIdx.map fun (t, i) => ⟨t, .ofTest t i⟩

structure Cluster where
  slot : String
  label : String
  condition : String
  chained : Bool
  members : List Viewed

def categoryClusters (tests : List Viewed) : List Cluster :=
  (categories.map fun c =>
    { slot := c.name, label := label c, condition := condition c, chained := true
      members := tests.filter (·.view.category = c) : Cluster }).filter fun k =>
    !k.members.isEmpty && k.members.length != tests.length

/-- The primary operations in the order in which they first occur. -/
def operations (tests : List Viewed) : List String :=
  Text.distinct (tests.filterMap (·.view.primary?))

def operationClusters (tests : List Viewed) : List Cluster :=
  ((operations tests).map fun op =>
    { slot := "op:" ++ op, label := "operation " ++ op, condition := "", chained := false
      members := tests.filter (·.view.primary? == some op) : Cluster }).filter fun k =>
    2 ≤ k.members.length && k.members.length != tests.length

def clusters (tests : List Viewed) : List Cluster :=
  categoryClusters tests ++ operationClusters tests

/-- At most this many test names stand in a description. -/
def nameLimit : Nat := 5

def describe (s : Specification) (k : Cluster) : String :=
  s.description ++ ": " ++ k.label ++ " (tests: "
    ++ Text.join ", " ((k.members.map (·.view.name)).take nameLimit) ++ ")"

/-- The subproblem of a cluster; those of categories depend on all earlier ones. -/
def subproblem (s : Specification) (k : Cluster) (i : Nat) : Subproblem :=
  { specification := s.derive (describe s k) (k.members.map (·.test))
    dependencies := if k.chained then (List.range i).map Int.ofNat else []
    priority := i
    slot := k.slot
    condition := k.condition }

def decompose (s : Specification) : List Subproblem :=
  let ks := clusters (viewed s)
  if ks.length < 2 then [] else ks.zipIdx.map fun (k, i) => subproblem s k i

/-- Points for tests, for their number, and for distinct categories and operations. -/
def estimate (s : Specification) : Float :=
  let tests := viewed s
  if tests.isEmpty then 0
  else
    let kinds := categories.filter fun c => tests.any (·.view.category = c)
    let score := 0.3 + 0.2 * ratio tests.length 10
    clampScore
      (score + (0.1 * ratio kinds.length 3 + 0.1 * ratio (operations tests).length 3))

end Synthesis.Strategy.Clusters

namespace Synthesis

def Strategy.clusters : Strategy where
  metadata :=
    { name := "test_driven"
      description := "Decompose by clustering tests into happy path, validation, error handling "
        ++ "and edge case behavior"
      keywords := ["test", "tests", "assert", "case", "cases", "edge", "error", "validation",
        "happy", "expected"] }
  canHandle s _ := !s.testList.isEmpty
  decompose s _ := .ok (Clusters.decompose s)
  estimate s _ := Clusters.estimate s

end Synthesis
