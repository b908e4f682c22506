import Synthesis.Strategy.Basic
import Synthesis.Text.AsciiCase

/-!
Splitting by recognised steps: the words of a description name stages of a pipeline, each of
which depends on the one before it, and record operations, which are independent. A step's own
description names no other step, so it is not split this way again.
-/
namespace Synthesis.Strategy.Stages

structure Step where
  name : String
  keywords : List String
  description : String
  condition : String := ""

/-- The stages of a pipeline in their order. -/
def pipeline : List Step :=
  [{ name := "parse", keywords := ["parse", "decode", "deserialize", "load", "tokenize"]
     description := "parse step: decode the raw input" },
   { name := "validate", keywords := ["validate", "check", "verify", "sanitize"]
     description := "validate step: check the input is well-formed" },
   { name := "filter", keywords := ["filter", "select", "even", "odd", "exclude", "where"]
     description := "filter step: keep only the matching elements" },
   { name := "transform"
     keywords := ["map", "transform", "convert", "square", "double", "format", "normalize"]
     description := "transform step: map each element to its new form" },
   { name := "sort", keywords := ["sort", "sorted", "order", "rank"]
     description := "sort step: order the elements" },
   { name := "aggregate"
     keywords := ["sum", "count", "total", "aggregate", "reduce", "average", "max", "min"]
     description := "aggregate step: reduce the elements to a single result" }]

def recordOperations : List Step :=
  [{ name := "create", keywords := ["create", "insert", "add"]
     description := "create operation: add a new record", condition := "operation is create" },
   { name := "read", keywords := ["read", "get", "fetch", "lookup"]
     description := "read operation: fetch an existing record", condition := "operation is read" },
   { name := "update", keywords := ["update", "modify", "edit"]
     description := "update operation: modify an existing record"
     condition := "operation is update" },
   { name := "delete", keywords := ["delete", "remove"]
     description := "delete operation: remove an existing record"
     condition := "operation is delete" }]

def isStepChar (c : Char) : Bool := Text.isAsciiLower c || Text.isAsciiDigit c || c == '_'

/-- The words of a description among which keywords are looked for. -/
def stepWords (text : String) : List String :=
  (Text.runs isStepChar (Text.lower text).toList).map String.ofList

def recognised (steps : List Step) (words : List String) : List Step :=
  steps.filter fun p => p.keywords.any words.contains

def stages (description : String) : List Step := recognised pipeline (stepWords description)

def operations (description : String) : List Step :=
  recognised recordOperations (stepWords description)

def part (s : Specification) (p : Step) : Specification :=
  let child := s.derive p.description []
  { child with typeSignature := "" }.constrain ("part of: " ++ s.description)

def stageSubproblem (s : Specification) (p : Step) (i : Nat) : Subproblem :=
  { specification := part s p
    dependencies := if i = 0 then [] else [(i : Int) - 1]
    priority := i
    slot := "stage:" ++ p.name }

def operationSubproblem (s : Specification) (p : Step) (i : Nat) : Subproblem :=
  { specification := part s p, priority := i, slot := "op:" ++ p.name, condition := p.condition }

def decompose (s : Specification) : List Subproblem :=
  let ss := stages s.description
  let ops := operations s.description
  if ss.length + ops.length < 2 then []
  else (ss.zipIdx.map fun (p, i) => stageSubproblem s p i)
    ++ ops.zipIdx.map fun (p, i) => operationSubproblem s p (ss.length + i)

/-- Points for two or more steps, for their number, and for each of the two kinds. -/
def estimate (s : Specification) : Float :=
  let ss := (stages s.description).length
  let ops := (operations s.description).length
  if ss + ops < 2 then 0
  else
    let score := 0.3 + 0.2 * ratio (ss + ops) 4
    clampScore (score + (0.1 * ratio ss 3 + 0.1 * ratio ops 2))

end Synthesis.Strategy.Stages

namespace Synthesis

def Strategy.stages : Strategy where
  metadata :=
    { name := "pattern_based"
      description := "Decompose recognized data processing patterns into pipeline stages and "
        ++ "CRUD operations"
      keywords := ["map", "filter", "reduce", "sort", "parse", "aggregate", "transform",
        "pipeline", "sum", "even", "create", "update", "delete", "crud", "records", "list"] }
  canHandle s _ :=
    2 ≤ (Stages.stages s.description).length + (Stages.operations s.description).length
  decompose s _ := .ok (Stages.decompose s)
  estimate s _ := Stages.estimate s

end Synthesis
