import Synthesis.Leaf.Abstractions
import Synthesis.Failure

/-!
Leaves are solved by collaborators: a generator proposes candidates and a validator reports on
them. A collaborator is called under circumstances it has to respect, and answers with an
outcome and its next state. Its caller may be stopped while it works.
-/
namespace Synthesis

/-- What a generator is told besides the specification and the context. -/
structure Hints where
  /-- What was wrong with the previous candidate. -/
  issues : List String := []
  abstractions : List ScoredAbstraction := []
  attempt : Int := 0
  depth : Int := 0

structure Candidate where
  success : Bool := false
  code : String := ""
  confidence : Float := 0

structure Report where
  passed : Bool := true
  issues : List String := []

/-- The circumstances of a call. -/
structure Call where
  /-- Why the caller has been stopped, if it has. -/
  stopped : Option Interruption := none
  /-- The call may take only so long. -/
  limited : Bool := false

structure Reply (σ α : Type) where
  outcome : Except Failure α
  /-- Why the caller has been stopped by the end of the call, if it has. -/
  stopped : Option Interruption
  state : σ

/-- Something to ask of a collaborator with state `σ`. -/
abbrev Request (σ α : Type) := Call → σ → Reply σ α

namespace Request

variable {σ α : Type}

def answer (a : α) : Request σ α := fun call state => ⟨.ok a, call.stopped, state⟩

def fail (f : Failure) : Request σ α := fun call state => ⟨.error f, call.stopped, state⟩

end Request

abbrev Generator (σ : Type) := Specification → Context → Hints → Request σ Candidate

abbrev Validator (σ : Type) := Specification → Artifact → Request σ Report

abbrev TestRunner (σ : Type) := TestCase → String → Request σ Bool

end Synthesis
