import Synthesis.Leaf.Candidate
import Synthesis.Store.Keyed

/-!
Validators. One asks for code that is not blank; one runs the tests of the specification and
remembers their results; several together report the issues of all that did not pass.
-/
namespace Synthesis

/-- Where candidates are validated: the remembered test results, if they are remembered, and the
state of the collaborators. -/
structure Bench (ω : Type) where
  results : Option ExecutionCache
  world : ω

namespace Validator

variable {σ ω : Type}

def nonBlank : Validator σ := fun _ a =>
  Request.answer (if Text.isAllBlank a.code then ⟨false, ["solution is empty"]⟩ else ⟨true, []⟩)

/-- The name of a test, or its number. -/
def testLabel (t : TestCase) (index : Nat) : String :=
  if t.name = "" then "#" ++ Decimal.natText index else t.name

/-- A test's result: the remembered one, or the one of running the test, which is remembered
unless the run failed. The clock is that of the collaborators, who may let time pass. -/
def runTest (runner : TestRunner ω) (runtime : String) (clock : ω → Int) (t : TestCase)
    (code : String) : Request (Bench ω) Bool := fun call bench =>
  let key := executionKey runtime t code
  let (remembered, results) := match bench.results with
    | none => (none, none)
    | some cache =>
      let (r, cache) := cache.get (clock bench.world) key
      (r, some cache)
  match remembered with
  | some passed => ⟨.ok passed, call.stopped, ⟨results, bench.world⟩⟩
  | none =>
    let r := runner t code call bench.world
    match r.outcome with
    | .error f => ⟨.error f, r.stopped, ⟨results, r.state⟩⟩
    | .ok passed =>
      ⟨.ok passed, r.stopped, ⟨results.map (·.set (clock r.state) key passed), r.state⟩⟩

/-- Runs the tests from the given number on and collects an issue for each that failed. -/
def runTests (runner : TestRunner ω) (runtime : String) (clock : ω → Int) (code : String) :
    Nat → List TestCase → Request (Bench ω) (List String)
  | _, [] => Request.answer []
  | i, t :: rest => fun call bench =>
    let r := runTest runner runtime clock t code call bench
    match r.outcome with
    | .error f =>
      ⟨.error (.wrapped ("run test " ++ Decimal.natText i) f), r.stopped, r.state⟩
    | .ok passed =>
      let later :=
        runTests runner runtime clock code (i + 1) rest { call with stopped := r.stopped } r.state
      { later with
        outcome := later.outcome.map fun issues =>
          if passed then issues else ("test " ++ testLabel t i ++ " failed") :: issues }

/-- Runs every test of the specification. -/
def tests (runner : TestRunner ω) (runtime : String) (clock : ω → Int) : Validator (Bench ω) :=
  fun s a call bench =>
    let r := runTests runner runtime clock a.code 0 s.testList call bench
    { r with outcome := r.outcome.map fun issues => ⟨issues.isEmpty, issues⟩ }

/-- Joins the reports of two validators; a report that passed brings no issues. -/
def joinReports (a b : Report) : Report :=
  ⟨a.passed && b.passed, (if a.passed then [] else a.issues) ++ (if b.passed then [] else b.issues)⟩

/-- Every validator reports, unless one fails to. -/
def all : List (Validator σ) → Validator σ
  | [] => fun _ _ => Request.answer {}
  | v :: vs => fun s a call state =>
    let r := v s a call state
    match r.outcome with
    | .error f => ⟨.error f, r.stopped, r.state⟩
    | .ok first =>
      let later := all vs s a { call with stopped := r.stopped } r.state
      { later with outcome := later.outcome.map (joinReports first) }

/-- A validator that only needs the collaborators' state. -/
def onWorld (v : Validator ω) : Validator (Bench ω) := fun s a call bench =>
  let r := v s a call bench.world
  ⟨r.outcome, r.stopped, ⟨bench.results, r.state⟩⟩

end Validator

end Synthesis
