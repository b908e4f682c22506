import Synthesis.Rehearsal.Script

/-!
Rules for scripted generators, validators and test runners. Besides giving an answer, a rule can
stop the caller, wait until the call is interrupted, or fail.
-/
namespace Synthesis.Rehearsal

open Synthesis.Exchange

structure Rule where
  description : String
  codeHas : String
  test : Option String
  attempt : Option Int
  /-- The number of the call, counted from one, or zero for any. -/
  call : Int
  /-- The last call to which the rule applies, or zero for any. -/
  until_ : Int
  cancel : Bool
  hang : Bool
  failure : Option Failure
  unsuccessful : Bool
  out : String
  confidence : Float
  passed : Bool
  issues : List String

def rule? (j : Json) : Option Rule := do
  let f ← fields? j
  return { description := ← str f "spec", codeHas := ← str f "code_has", test := ← strOpt f "test",
           attempt := ← intOpt f "attempt", call := ← int f "call", until_ := ← int f "until",
           cancel := ← flag f "cancel", hang := ← flag f "hang", failure := ← sub failure? f "err",
           unsuccessful := ← flag f "unsuccessful", out := ← str f "out",
           confidence := ← float f "confidence", passed := ← flag f "passed",
           issues := ← texts f "issues" }

/-- A list of rules. -/
def rules? (j : Json) : Option (List Rule) := do (← Json.array? j).mapM rule?

/-- What a rule is matched against. -/
structure Scene where
  description : String := ""
  code : String := ""
  test : String := ""
  attempt : Int := 0
  call : Nat

def Rule.holds (r : Rule) (s : Scene) : Bool :=
  Text.contains s.description r.description && Text.contains s.code r.codeHas
    && (r.test.all (· == s.test)) && (r.attempt.all (· == s.attempt))
    && (r.call == 0 || r.call == s.call) && (r.until_ == 0 || (s.call : Int) ≤ r.until_)

/-- What becomes of a call under a rule, and why the caller is stopped by then, if it is. -/
def Rule.act {α : Type} (r : Rule) (call : Call) (answer : α) :
    Except Failure α × Option Interruption :=
  let stopped := call.stopped.or (if r.cancel then some .cancelled else none)
  if r.hang then
    (.error (match stopped with
      | some why => .interrupted why
      | none => if call.limited then .interrupted .deadline else .plain "would hang"), stopped)
  else match r.failure with
    | some f => (.error f, stopped)
    | none => (.ok answer, stopped)

structure Generated where
  description : String
  hints : Hints
  solved : List String

/-- What the scripted collaborators have been asked so far. -/
structure Diary where
  generated : List Generated := []
  runs : List (String × String) := []
  /-- Calls of each validator. -/
  validated : List Nat := []

/-- The name of a test, or its source. -/
def testName (t : TestCase) : String := if t.name = "" then t.source else t.name

def generator (rules : List Rule) : Generator Diary := fun s c hints call d =>
  let d := { d with generated := d.generated ++ [⟨s.description, hints, c.solved.sortedNames⟩] }
  let scene : Scene :=
    { description := s.description, attempt := hints.attempt, call := d.generated.length }
  match rules.find? (·.holds scene) with
  | none => Scaffold.generator s c hints call d
  | some r =>
    let code := replaceAll attemptMark (Decimal.intText hints.attempt)
      (replaceAll descriptionMark s.description r.out)
    let (outcome, stopped) := r.act call ⟨!r.unsuccessful, code, r.confidence⟩
    ⟨outcome, stopped, d⟩

/-- The scripted validator with the given number. -/
def validator (rules : List Rule) (number : Nat) : Validator Diary := fun s a call d =>
  let count := d.validated.getD number 0 + 1
  let d := { d with validated := d.validated.set number count }
  match rules.find? (·.holds { description := s.description, code := a.code, call := count }) with
  | none => ⟨.ok {}, call.stopped, d⟩
  | some r =>
    let (outcome, stopped) := r.act call ⟨r.passed, r.issues⟩
    ⟨outcome, stopped, d⟩

def runner (rules : List Rule) : TestRunner Diary := fun t code call d =>
  let d := { d with runs := d.runs ++ [(testName t, code)] }
  match rules.find? (·.holds { code, test := testName t, call := d.runs.length }) with
  | none => ⟨.ok true, call.stopped, d⟩
  | some r =>
    let (outcome, stopped) := r.act call r.passed
    ⟨outcome, stopped, d⟩

/-- The scripted validators, each counting its own calls. -/
def validators (scripts : List (List Rule)) : List (Validator Diary) :=
  scripts.zipIdx.map fun (rules, i) => validator rules i

end Synthesis.Rehearsal
