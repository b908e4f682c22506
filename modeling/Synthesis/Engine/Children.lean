import Synthesis.Engine.Basic
import Synthesis.Composition

/-!
Solving the subproblems of a decomposition, one after the other or in waves. A subproblem is
solved in the context of its parent with the solutions of the subproblems before it; in waves,
with those of the earlier waves. One after the other, the first failure ends it; a wave is
always finished, and then a failure ends it.
-/
namespace Synthesis.Engine

variable {ω : Type}

/-- Solves a specification in a context. -/
abbrev Solver (ω : Type) := Specification → Context → Session ω → Result × Session ω

/-- The parts of a decomposition as far as they are solved. -/
structure Children where
  parts : List Part
  iterations : Int := 0
  /-- In the order in which they were entered. -/
  failures : List Failure := []

namespace Children

/-- The first failure is the one that counts. -/
def failure (cs : Children) : Option Failure := cs.failures.head?

def start (subs : List Subproblem) : Children :=
  { parts := subs.zipIdx.map fun (p, i) => { index := i, subproblem := p } }

/-- Enters the result of the subproblem at an index. -/
def enter (cs : Children) (i : Nat) (r : Result) : Children :=
  { parts := cs.parts.modify i fun p =>
      { p with solution := r.solution?, failure := r.failure? }
    iterations := cs.iterations + r.iterations
    failures := cs.failures ++ r.failure?.toList }

def enterAll (cs : Children) (results : List (Nat × Result)) : Children :=
  results.foldl (fun cs x => cs.enter x.1 x.2) cs

end Children

/-- Solves the listed subproblems in that order. -/
def solveInOrder (solve : Solver ω) (subs : List Subproblem) :
    List Nat → Context → Children → Session ω → Children × Session ω
  | [], _, children, session => (children, session)
  | i :: rest, c, children, session =>
    match subs[i]? with
    | none => (children, session)
    | some p =>
      let (r, session) := solve p.specification c session
      let children := children.enter i r
      match r.outcome with
      | .error _ => (children, session)
      | .ok a =>
        solveInOrder solve subs rest (c.withSolved p.specification.description a) children session

/-- Solves all members of a wave in the same context. They are taken one after the other: how many
may be worked on at once, and how the steps of several may interleave, is not part of this. -/
def solveWave (solve : Solver ω) (subs : List Subproblem) (c : Context) :
    List Nat → Session ω → List (Nat × Result) × Session ω
  | [], session => ([], session)
  | i :: rest, session =>
    match subs[i]? with
    | none => solveWave solve subs c rest session
    | some p =>
      let (r, session) := solve p.specification c session
      let (later, session) := solveWave solve subs c rest session
      ((i, r) :: later, session)

/-- The solutions of a wave by the descriptions of its members. -/
def solvedEntries (subs : List Subproblem) (results : List (Nat × Result)) :
    List (String × Artifact) :=
  results.filterMap fun (i, r) =>
    match subs[i]?, r.solution? with
    | some p, some a => some (p.specification.description, a)
    | _, _ => none

def inIndexOrder (results : List (Nat × Result)) : List (Nat × Result) :=
  results.mergeSort fun a b => a.1 ≤ b.1

/-- Solves wave after wave; what a wave brings is entered in the order of the indices. -/
def solveWaves (solve : Solver ω) (subs : List Subproblem) :
    List (List Nat) → Context → Children → Session ω → Children × Session ω
  | [], _, children, session => (children, session)
  | wave :: rest, c, children, session =>
    let (results, session) := solveWave solve subs c wave session
    let results := inIndexOrder results
    let children := children.enterAll results
    match children.failure with
    | some _ => (children, session)
    | none =>
      let c := c.withSolvedAll (solvedEntries subs results)
      solveWaves solve subs rest c children session

/-- Solves the subproblems as the settings say. -/
def solveChildren (e : Engine ω) (solve : Solver ω) (subs : List Subproblem) (c : Context)
    (session : Session ω) : Children × Session ω :=
  if e.settings.parallelSubproblems then
    solveWaves solve subs (Decomposition.waves subs) c (.start subs) session
  else solveInOrder solve subs (Decomposition.executionOrder subs) c (.start subs) session

end Synthesis.Engine
