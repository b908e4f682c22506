import Synthesis.Key.Basic
import Synthesis.Text.Cut

/-!
Specifications: what is to be synthesized. A specification has a description, and optionally a
type signature, examples, constraints and tests. A list that was not given is kept apart from an
empty one, since the content key tells them apart.
-/
namespace Synthesis

structure Example where
  input : Value := .null
  output : Value := .null

/-- A test as source text, or as a record of a name, calls, input and expected output. -/
structure TestCase where
  name : String := ""
  source : String := ""
  calls : Option (List String) := none
  input : Value := .null
  expected : Value := .null
  deriving Inhabited

structure Specification where
  description : String := ""
  typeSignature : String := ""
  examples : Option (List Example) := none
  constraints : Option (List String) := none
  tests : Option (List TestCase) := none
  deriving Inhabited

namespace Example

def cbor (e : Example) : Cbor :=
  .fields [("input", .ofValue e.input), ("output", .ofValue e.output)]

end Example

namespace TestCase

def ofSource (source : String) : TestCase := { source }

def callList (t : TestCase) : List String := t.calls.getD []

/-- Fields without content are left out. -/
def cbor (t : TestCase) : Cbor :=
  .fields (
    (if t.name = "" then [] else [("name", .text t.name)])
    ++ (if t.source = "" then [] else [("source", .text t.source)])
    ++ (if t.callList.isEmpty then [] else [("calls", Cbor.texts t.callList)])
    ++ (if t.input.isNull then [] else [("input", .ofValue t.input)])
    ++ (if t.expected.isNull then [] else [("expected", .ofValue t.expected)]))

end TestCase

namespace Specification

def exampleList (s : Specification) : List Example := s.examples.getD []

def constraintList (s : Specification) : List String := s.constraints.getD []

def testList (s : Specification) : List TestCase := s.tests.getD []

def hasTypeSignature (s : Specification) : Bool := Text.trim s.typeSignature != ""

/-- A longer description is shortened to this many characters, an ellipsis included. -/
def summaryLimit : Nat := 100

def shortened (words : String) : String :=
  let cs := words.toList
  if summaryLimit < cs.length then String.ofList (cs.take (summaryLimit - 3)) ++ "..." else words

/-- The description on one line, shortened, with the type signature behind it. -/
def summary (s : Specification) : String :=
  let d := shortened (Text.join " " (Text.words s.description))
  if s.hasTypeSignature then d ++ " :: " ++ Text.trim s.typeSignature else d

/-- The text by which strategies and helpers are searched. -/
def query (s : Specification) : String :=
  Text.join " "
    (s.description :: (if s.hasTypeSignature then [s.typeSignature] else []) ++ s.constraintList)

def optionalList {α : Type} (f : α → Cbor) (xs : Option (List α)) : Cbor :=
  .optional (xs.map (·.map f))

/-- The key of everything a specification says. -/
def contentKey (s : Specification) : String :=
  Key.ofParts [.text s.description, .text s.typeSignature, optionalList Example.cbor s.examples,
    optionalList .text s.constraints, optionalList TestCase.cbor s.tests]

/-- The specification as one record, fields without content left out. -/
def cbor (s : Specification) : Cbor :=
  .fields (
    [("description", .text s.description)]
    ++ (if s.typeSignature = "" then [] else [("type_signature", .text s.typeSignature)])
    ++ (if s.exampleList.isEmpty then [] else [("examples", .array (s.exampleList.map (·.cbor)))])
    ++ (if s.constraintList.isEmpty then [] else [("constraints", Cbor.texts s.constraintList)])
    ++ (if s.testList.isEmpty then [] else [("tests", .array (s.testList.map (·.cbor)))]))

def nonEmpty {α : Type} (xs : List α) : Option (List α) := if xs.isEmpty then none else some xs

/-- A part of the specification: it keeps the type signature and the constraints, and takes
over the given tests. -/
def derive (s : Specification) (description : String) (tests : List TestCase) : Specification :=
  { description
    typeSignature := s.typeSignature
    constraints := nonEmpty s.constraintList
    tests := nonEmpty tests }

theorem testList_derive (s : Specification) (description : String) (tests : List TestCase) :
    (s.derive description tests).testList = tests := by
  cases tests with
  | nil => rfl
  | cons t ts => rfl

def constrain (s : Specification) (constraint : String) : Specification :=
  { s with constraints := some (s.constraintList ++ [constraint]) }

end Specification

end Synthesis
