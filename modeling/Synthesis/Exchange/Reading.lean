import Synthesis.Composition
import Synthesis.Leaf.Candidate
import Synthesis.Json.Fields

/-!
Reading the library's values from JSON, for callers outside. Every field may be absent; null
stands for an absent field everywhere, and a field of another type makes the whole text
unreadable. An absent list stays apart from an empty one where the value keeps them apart.
-/
namespace Synthesis.Exchange

abbrev Fields := List (String × Json)

def fields? : Json → Option Fields
  | .null => some []
  | .object ms => some ms
  | _ => none

def str (f : Fields) (name : String) : Option String := Json.readField f name "" Json.string?

def strOpt (f : Fields) (name : String) : Option (Option String) :=
  Json.readField f name none fun j => (Json.string? j).map some

def flag (f : Fields) (name : String) : Option Bool := Json.readField f name false Json.bool?

def int (f : Fields) (name : String) : Option Int := Json.readField f name 0 Json.int?

def intOpt (f : Fields) (name : String) : Option (Option Int) :=
  Json.readField f name none fun j => (Json.int? j).map some

def float (f : Fields) (name : String) : Option Float := Json.readField f name 0 Json.float?

def listOpt {α : Type} (read : Json → Option α) (f : Fields) (name : String) :
    Option (Option (List α)) :=
  Json.readField f name none fun j => do some (← (← Json.array? j).mapM read)

def list {α : Type} (read : Json → Option α) (f : Fields) (name : String) : Option (List α) :=
  (listOpt read f name).map fun xs => xs.getD []

def text? : Json → Option String
  | .null => some ""
  | j => Json.string? j

def integer? : Json → Option Int
  | .null => some 0
  | j => Json.int? j

def texts (f : Fields) (name : String) : Option (List String) := list text? f name

/-- A field that is always read, from null if it is absent. -/
def sub {α : Type} (read : Json → Option α) (f : Fields) (name : String) : Option α :=
  read ((Json.field? f name).getD .null)

def subOpt {α : Type} (read : Json → Option α) (f : Fields) (name : String) : Option (Option α) :=
  match Json.field? f name with
  | none => some none
  | some j => (read j).map some

mutual

/-- Every number inside is in the range of doubles. -/
def finite : Json → Bool
  | .number literal => !(Json.floatOf literal).isInf
  | .array items => finiteItems items
  | .object ms => finiteMembers ms
  | _ => true

def finiteItems : List Json → Bool
  | [] => true
  | j :: js => finite j && finiteItems js

def finiteMembers : List (String × Json) → Bool
  | [] => true
  | (_, j) :: ms => finite j && finiteMembers ms

end

def value? (j : Json) : Option Value := if finite j then some (.ofJson j) else none

def example? (j : Json) : Option Example := do
  let f ← fields? j
  return { input := ← sub value? f "input", output := ← sub value? f "output" }

def test? : Json → Option TestCase
  | .null => some {}
  | .string literal => (Json.literalText? literal).map .ofSource
  | .object f => do
    return { name := ← str f "name", source := ← str f "source", calls := ← listOpt text? f "calls",
             input := ← sub value? f "input", expected := ← sub value? f "expected" }
  | _ => none

def spec? (j : Json) : Option Specification := do
  let f ← fields? j
  return { description := ← str f "description", typeSignature := ← str f "type_signature",
           examples := ← listOpt example? f "examples",
           constraints := ← listOpt text? f "constraints", tests := ← listOpt test? f "tests" }

def artifact? (j : Json) : Option Artifact := do
  let f ← fields? j
  return { code := ← str f "code", confidence := ← float f "confidence",
           producer := ← str f "producer" }

def subproblem? (j : Json) : Option Subproblem := do
  let f ← fields? j
  return { specification := ← sub spec? f "specification",
           dependencies := ← list integer? f "dependencies", priority := ← int f "priority",
           slot := ← str f "slot", condition := ← str f "condition" }

def contents? (j : Json) : Option Contents := do
  let f ← fields? j
  let bare ← flag f "bare"
  let primitives ← texts f "primitives"
  let library ← (← sub fields? f "library").mapM fun (k, v) => (value? v).map fun v => (k, v)
  let solved ← (← sub fields? f "solved").mapM fun (k, v) => (artifact? v).map fun v => (k, v)
  if bare then return {}
  return { Contents.fresh with
    primitives := some (Text.distinct primitives), library := some (.ofList library)
    solved := some (.ofList solved) }

def context? : Json → Option Context
  | .null => some {}
  | j => (contents? j).map fun contents => ⟨some contents⟩

/-- Two texts in a list; a missing one is empty. -/
def pair? (j : Json) : Option (String × String) := do
  match ← Json.array? j with
  | [] => some ("", "")
  | [a] => return (← text? a, "")
  | a :: b :: _ => return (← text? a, ← text? b)

def hints? (j : Json) : Option Hints := do
  let f ← fields? j
  let named ← list pair? f "abstractions"
  return { issues := ← texts f "issues",
           abstractions := named.map fun (name, description) => ⟨{ name, description }, 0⟩,
           attempt := ← int f "attempt", depth := ← int f "depth" }

/-- A failure described by its type and its fields, or no failure at all; causes are nested at
most so deep. -/
def failureUpTo : Nat → Json → Option (Option Failure)
  | 0, _ => none
  | depth + 1, j => do
    let f ← fields? j
    if f.isEmpty then return none
    let message ← str f "message"
    let cause ← sub (failureUpTo depth) f "err"
    let causes ← list (failureUpTo depth) f "errs"
    let slot ← str f "slot"
    let reason ← str f "reason"
    let known ← match ← str f "type" with
      | "plain" => some (Failure.plain message)
      | "wrap" => match cause with
        | some c => some (.wrapped message c)
        | none => some (.plain (message ++ ": %!w(<nil>)"))
      | "join" => some (.joined (causes.filterMap id))
      | "no_strategy" => return some (.noStrategy (← str f "summary") (← int f "considered"))
      | "decomposition" => return some (.decomposition (← str f "strategy") reason)
      | "composition" => some (.composition slot reason cause)
      | "validation" => return some (.validation (← texts f "issues"))
      | "budget" => return some (.budgetExceeded (← str f "budget") (← int f "limit"))
      | "generation" => cause.map .generation
      | "retryable" => cause.map .retryable
      | "canceled" => some (.interrupted .cancelled)
      | "deadline" => some (.interrupted .deadline)
      | _ => none
    return match known with
      | .joined [] => none
      | f => some f

def failure? (j : Json) : Option (Option Failure) := failureUpTo Json.maxNesting j

end Synthesis.Exchange
