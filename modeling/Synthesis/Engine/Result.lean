import Synthesis.Context
import Synthesis.Failure

/-!
Results of synthesis: a solution or a failure, with the number of iterations it took and the
phases passed on the way.
-/
namespace Synthesis

/-- The phases of solving one specification. -/
inductive Phase where
  | start
  | cacheCheck
  | cached
  | route
  | decompose
  | atomic
  | generate
  | subproblems
  | recurse
  | compose
  | cacheStore
  | recordOutcome
  | done
  | failed
  deriving Repr, DecidableEq

def Phase.name : Phase → String
  | .start => "START"
  | .cacheCheck => "CACHE_CHECK"
  | .cached => "CACHED"
  | .route => "ROUTE"
  | .decompose => "DECOMPOSE"
  | .atomic => "ATOMIC"
  | .generate => "GENERATE"
  | .subproblems => "SUBPROBLEMS"
  | .recurse => "RECURSE"
  | .compose => "COMPOSE"
  | .cacheStore => "CACHE_STORE"
  | .recordOutcome => "RECORD_OUTCOME"
  | .done => "DONE"
  | .failed => "FAILED"

structure Result where
  outcome : Except Failure Artifact
  iterations : Int
  /-- The strategy of the last attempt, if there was one. -/
  strategy : String := ""
  cached : Bool := false
  depth : Int := 0
  phases : List Phase := []

namespace Result

def failed (f : Failure) (iterations : Int) : Result := { outcome := .error f, iterations }

def solved (a : Artifact) (iterations : Int) : Result := { outcome := .ok a, iterations }

def success (r : Result) : Bool :=
  match r.outcome with
  | .ok _ => true
  | .error _ => false

def solution? (r : Result) : Option Artifact :=
  match r.outcome with
  | .ok a => some a
  | .error _ => none

def failure? (r : Result) : Option Failure :=
  match r.outcome with
  | .ok _ => none
  | .error f => some f

/-- The text of the failure, empty without one. -/
def errorText (r : Result) : String := (r.failure?.map (·.message)).getD ""

/-- The name of the failure's kind, empty without one. -/
def kindText (r : Result) : String := (r.failure?.map (·.kind.name)).getD ""

end Result

end Synthesis
