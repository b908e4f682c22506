import Synthesis.Leak
import Synthesis.Yaml.Entry

/-!
Leak policies written in YAML: a list of classifications, each with its patterns. A pattern may
leave its confidence out, but must not name an unknown one.
-/
namespace Synthesis

open Yaml in
def Confidence.enter (n : Node) : Entering (Option Confidence) :=
  Entering.through n fun n => do
    match ← Entering.apart (Entering.text n) with
    | none => return none
    | some name =>
      match Confidence.ofName? name with
      | some c => return some c
      | none => throw (.refused ("invalid confidence " ++ Text.quote name))

open Yaml in
def LeakRule.shape : Shape LeakRule := ⟨"policy.Pattern", [
  ("id", Shape.field Entering.text fun v r => { r with id := v }),
  ("description", Shape.field Entering.text fun v r => { r with description := v }),
  ("regex", Shape.field Entering.text fun v r => { r with regex := v }),
  ("confidence", Shape.field Confidence.enter fun v r => { r with confidence := v })]⟩

open Yaml in
def Classification.shape : Shape (Classification LeakRule) := ⟨"policy.Classification", [
  ("name", Shape.field Entering.text fun v c => { c with name := v }),
  ("description", Shape.field Entering.text fun v c => { c with description := v }),
  ("priority", Shape.field Entering.int fun v c => { c with priority := v }),
  ("patterns", Shape.field (Entering.list "[]policy.Pattern" (LeakRule.shape.item {}))
    fun v c => { c with patterns := v.getD [] })]⟩

namespace LeakPolicy

open Yaml in
def rulesShape : Shape (List (Classification LeakRule)) := ⟨"policy.patternFile", [
  ("classifications", Shape.field
    (Entering.list "[]policy.Classification" (Classification.shape.item {}))
    fun v _ => v.getD [])]⟩

inductive DocumentError where
  | unreadable (fault : Yaml.Fault)
  | uncompiled (cause : Error)
  deriving Repr, DecidableEq

def DocumentError.message : DocumentError → String
  | .unreadable fault => "parse pattern file: " ++ fault.message
  | .uncompiled cause => cause.message

/-- The policy that a text describes. -/
def parse (text : String) : Except DocumentError LeakPolicy :=
  match rulesShape.read text [] with
  | .error fault => .error (.unreadable fault)
  | .ok rules =>
    match compile rules with
    | .error cause => .error (.uncompiled cause)
    | .ok p => .ok p

end LeakPolicy

end Synthesis
