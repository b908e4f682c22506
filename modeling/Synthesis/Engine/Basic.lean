import Synthesis.Engine.Result
import Synthesis.Leaf.Retry
import Synthesis.Leaf.Validation
import Synthesis.Leak
import Synthesis.Settings.Basic

/-!
The engine of synthesis: what stays the same during a call, and the session that a call changes.
A session holds what is remembered from call to call, the state of the world outside, and what the
current call has done so far: the number of its visits and its actions one by one. The clock and the
history are read off the session, so that time may pass, and records may arrive, while it runs.
-/
namespace Synthesis

structure Collaborators (ω : Type) where
  generator : Generator ω
  runner : Option (TestRunner ω) := none
  validators : List (Validator ω) := []
  /-- The version of the runtime that runs tests. -/
  runtime : String := ""

/-- What an engine does in the course of a call. -/
inductive Action where
  /-- A visit after the caller has been stopped. -/
  | turnedAway
  /-- A visit beyond the greatest number of visits. -/
  | refused
  | admitted (depth : Int)
  /-- Strategies are ranked, or a remembered choice is looked at again. -/
  | ranked (s : Specification)
  | decomposed (s : Specification) (strategy : String)
  | proposed (s : Specification) (hints : Hints)
  | inspected (s : Specification) (a : Artifact)
  /-- Subproblems came to an end, with these failures. -/
  | gathered (failures : List Failure)
  | recorded (s : Specification) (strategy : String) (success : Bool)

structure Engine (ω : Type) where
  settings : Settings
  router : Router
  collaborators : Collaborators ω
  policy : LeakPolicy := .builtin
  /-- What the history answers, if there is one, by the state of the world and the records that were
  noted for it and that it may have taken over by now. -/
  history : Option (ω → List HistoryRecord → HistoryQuery) := none
  /-- The time in nanoseconds, by the state of the world. -/
  clock : ω → Int
  /-- The walks of the next scores, by what the call has done so far. -/
  walks : List Action → SearchWalks := fun _ => .inOrder

structure Session (ω : Type) where
  solutions : SolutionCache
  strategies : StrategyCache
  results : ExecutionCache
  experience : Experience
  abstractions : Option Abstractions := none
  /-- Records that the history has not taken over yet. -/
  pending : List HistoryRecord := []
  world : ω
  /-- Why the caller has been stopped, if it has. -/
  stopped : Option Interruption := none
  /-- Visits of the current call, refused ones included. -/
  visits : Nat := 0
  /-- What the current call has done, the newest first. -/
  actions : List Action := []

namespace Engine

variable {ω : Type}

def retryPolicy (e : Engine ω) : RetryPolicy :=
  { timeout := e.settings.validationTimeout, maxRetries := e.settings.maxRetries }

def generator (e : Engine ω) : Generator ω := e.collaborators.generator.retrying e.retryPolicy

/-- Code must not be blank, must pass the tests, must not leak anything, and must please the
validators of the caller. -/
def checks (e : Engine ω) : List (Validator (Bench ω)) :=
  [Validator.nonBlank]
    ++ (e.collaborators.runner.map fun r =>
        Validator.tests r e.collaborators.runtime e.clock).toList
    ++ (if e.settings.policy.enabled then
        [e.policy.validator (LeakPolicy.threshold e.settings.policy.minConfidence)] else [])
    ++ e.collaborators.validators.map .onWorld

def validator (e : Engine ω) : Validator (Bench ω) :=
  (Validator.all e.checks).retrying e.retryPolicy

end Engine

namespace Session

variable {ω : Type}

/-- What the history answers now, if there is one. -/
def history (e : Engine ω) (session : Session ω) : Option HistoryQuery :=
  e.history.map fun ask => ask session.world session.pending

def now (e : Engine ω) (session : Session ω) : Int := e.clock session.world

/-- The walks of the next scores. -/
def walks (e : Engine ω) (session : Session ω) : SearchWalks := e.walks session.actions

def mark (a : Action) (session : Session ω) : Session ω :=
  { session with actions := a :: session.actions }

/-- Counts a visit. -/
def enter (a : Action) (session : Session ω) : Session ω :=
  { session with visits := session.visits + 1 }.mark a

/-- Asks the generator for a candidate. -/
def propose (e : Engine ω) (s : Specification) (c : Context) (hints : Hints) (session : Session ω) :
    Except Failure Candidate × Session ω :=
  let r := e.generator s c hints { stopped := session.stopped } session.world
  (r.outcome,
    { session with world := r.state, stopped := r.stopped }.mark (.proposed s hints))

/-- Asks the validators for their report. -/
def inspect (e : Engine ω) (s : Specification) (a : Artifact) (session : Session ω) :
    Except Failure Report × Session ω :=
  let r := e.validator s a { stopped := session.stopped } ⟨some session.results, session.world⟩
  (r.outcome,
    { session with
      results := r.state.results.getD session.results
      world := r.state.world
      stopped := r.stopped }.mark (.inspected s a))

/-- The abstractions that fit the specification, at most so many. -/
def findAbstractions (e : Engine ω) (s : Specification) (c : Context) (limit : Int)
    (session : Session ω) : List ScoredAbstraction × Session ω :=
  match session.abstractions with
  | none => ([], session)
  | some library =>
    let (hits, library) := library.search (session.walks e) s c limit
    (hits, { session with abstractions := some library })

/-- Counts a use of each abstraction; those that were not learned do not count. -/
def countUses (hits : List ScoredAbstraction) (success : Bool) (session : Session ω) : Session ω :=
  let use (library : Abstractions) (hit : ScoredAbstraction) : Abstractions :=
    match library.recordUse hit.abstraction.name success with
    | .ok library => library
    | .error _ => library
  { session with abstractions := session.abstractions.map fun library => hits.foldl use library }

/-- Notes how an attempt ended: as experience, in the choice of strategies, which forgets a
failed one, and for the history. -/
def note (e : Engine ω) (s : Specification) (strategy : String) (success : Bool)
    (iterations : Int) (session : Session ω) : Session ω :=
  { session with
    experience :=
      session.experience.record (.ofUnixNanos (session.now e)) s strategy success iterations
    strategies := Router.forgetFailed s success session.strategies
    pending := session.pending
      ++ (if e.history.isSome then [Router.historyEntry s strategy success iterations] else [])
  }.mark (.recorded s strategy success)

/-- Looks for a remembered solution. -/
def retrieve (e : Engine ω) (s : Specification) (c : Context) (session : Session ω) :
    Option Artifact × Session ω :=
  let (remembered, solutions) := session.solutions.get (session.now e) (solutionKey s c.contentKey)
  (remembered, { session with solutions })

/-- Remembers a solution. -/
def remember (e : Engine ω) (s : Specification) (c : Context) (a : Artifact)
    (session : Session ω) : Session ω :=
  { session with solutions := session.solutions.set (session.now e) (solutionKey s c.contentKey) a }

/-- Chooses the strategy to begin with. -/
def choose (e : Engine ω) (s : Specification) (c : Context) (session : Session ω) :
    Except Failure Match × Session ω :=
  let (selected, strategies) :=
    e.router.select (session.walks e).scores session.experience (session.history e)
      (session.now e) s c (some session.strategies)
  (selected,
    { session with strategies := strategies.getD session.strategies }.mark (.ranked s))

end Session

end Synthesis
