import Synthesis.Context
import Synthesis.Yaml.Entry

/-!
Briefs, the documents that ask for a synthesis: a specification with the primitives that its
solution may use, written in YAML. A test is written as a text, its source, or as a mapping.
-/
namespace Synthesis

open Yaml in
def TestCase.shape : Shape TestCase := ⟨"spec.testCaseFields", [
  ("name", Shape.field Entering.text fun v t => { t with name := v }),
  ("source", Shape.field Entering.text fun v t => { t with source := v }),
  ("calls", Shape.field Entering.texts fun v t => { t with calls := v }),
  ("input", Shape.field Entering.value fun v t => { t with input := v }),
  ("expected", Shape.field Entering.value fun v t => { t with expected := v })]⟩

open Yaml in
def TestCase.enter (n : Node) : Entering (Option TestCase) :=
  Entering.through n fun
    | .scalar tag text line =>
      if tag = Tag.null then TestCase.shape.item {} (.scalar tag text line)
      else return some (.ofSource text)
    | n => Entering.apart (TestCase.shape.item {} n)

open Yaml in
def Example.shape : Shape Example := ⟨"spec.Example", [
  ("input", Shape.field Entering.value fun v e => { e with input := v }),
  ("output", Shape.field Entering.value fun v e => { e with output := v })]⟩

structure Brief where
  specification : Specification := {}
  primitives : Option (List String) := none

namespace Brief

inductive Error where
  | unreadable (fault : Yaml.Fault)
  | undescribed
  deriving Repr, DecidableEq

def Error.message : Error → String
  | .unreadable fault => "parse specification document: " ++ fault.message
  | .undescribed => "specification document has no description"

open Yaml in
def specificationField {α : Type} (read : Node → Entering (Option α))
    (set : α → Specification → Specification) : Node → Brief → Entering Brief :=
  Shape.field read fun v d => { d with specification := set v d.specification }

open Yaml in
def shape : Shape Brief := ⟨"spec.Document", [
  ("description", specificationField Entering.text fun v s => { s with description := v }),
  ("type_signature", specificationField Entering.text fun v s => { s with typeSignature := v }),
  ("examples", specificationField (Entering.list "[]spec.Example" (Example.shape.item {}))
    fun v s => { s with examples := v }),
  ("constraints", specificationField Entering.texts fun v s => { s with constraints := v }),
  ("tests", specificationField (Entering.list "[]spec.TestCase" TestCase.enter)
    fun v s => { s with tests := v }),
  ("primitives", Shape.field Entering.texts fun v d => { d with primitives := v })]⟩

/-- The document of a text, which must describe something. -/
def parse (text : String) : Except Error Brief :=
  match shape.read text {} with
  | .error fault => .error (.unreadable fault)
  | .ok d =>
    if Text.isAllBlank d.specification.description then .error .undescribed else .ok d

def context (d : Brief) : Context := .ofPrimitives (d.primitives.getD [])

end Brief

end Synthesis
