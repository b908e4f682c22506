import Synthesis.Engine.Leaf
import Synthesis.Engine.Children

/-!
Solving a specification. A visit looks for a remembered solution, chooses a strategy, splits the
specification by it, solves the subproblems or, if there are none, the leaf, and composes the
solutions. If that fails in a way that another strategy may mend, the next ranked one is tried.
Subproblems are visited one level deeper, down to the greatest depth, where nothing is split;
the number of visits of a call is bounded.
-/
namespace Synthesis

namespace Failure

mutual

/-- The strategy and the reason of the first failed decomposition on the way to the causes. -/
def decomposition? : Failure → Option (String × String)
  | .decomposition strategy reason => some (strategy, reason)
  | .wrapped _ cause => decomposition? cause
  | .joined causes => firstDecomposition? causes
  | .composition _ _ cause => causeDecomposition? cause
  | .generation cause => decomposition? cause
  | .retryable cause => decomposition? cause
  | _ => none

def firstDecomposition? : List Failure → Option (String × String)
  | [] => none
  | f :: fs => (decomposition? f).or (firstDecomposition? fs)

def causeDecomposition? : Option Failure → Option (String × String)
  | none => none
  | some f => decomposition? f

end

/-- A strategy that fails to split anything has failed to decompose it, for the same reason. -/
def asDecomposition (name : String) (f : Failure) : Failure :=
  match f.decomposition? with
  | some (strategy, reason) => .decomposition (if strategy = "" then name else strategy) reason
  | none => .decomposition name f.message

/-- The whole call has to end. -/
def endsCall (f : Failure) : Bool := f.kind == .budgetExceeded || f.kind == .cancelled

end Failure

namespace Engine

variable {ω : Type}

/-- The well-formed subproblems by a strategy. -/
def decompose (s : Specification) (c : Context) (strategy : Strategy) :
    Except Failure (List Subproblem) :=
  if strategy.metadata.atomic then .ok []
  else match strategy.decompose s c with
    | .error f => .error (f.asDecomposition strategy.name)
    | .ok subs =>
      match Decomposition.fault? subs with
      | some fault => .error (.decomposition strategy.name fault.message)
      | none => .ok subs

/-- An attempt by one strategy: how it ended, the iterations below it, and its phases. -/
structure Attempt where
  outcome : Except Failure Artifact
  iterations : Int := 0
  phases : List Phase

/-- Composes the solved parts, unless a failure below ends the call. -/
def composeParts (s : Specification) (subs : List Subproblem) (children : Children) :
    Except Failure Artifact :=
  let composed := ((Composer.select subs).compose children.parts s).mapError (·.failure)
  match children.failure with
  | some f => if f.endsCall then .error f else composed
  | none => composed

/-- Solves the specification in one piece. -/
def leafAttempt (e : Engine ω) (depth : Int) (s : Specification) (c : Context)
    (session : Session ω) : Attempt × Session ω :=
  let (outcome, session) := e.leaf depth s c session
  ({ outcome, phases := [.decompose, .atomic, .generate, .compose] }, session)

/-- Solves the specification by its subproblems. -/
def splitAttempt (e : Engine ω) (solve : Solver ω) (s : Specification) (c : Context)
    (subs : List Subproblem) (session : Session ω) : Attempt × Session ω :=
  let (children, session) := e.solveChildren solve subs c session
  ({ outcome := composeParts s subs children
     iterations := children.iterations
     phases := [.decompose, .subproblems, .recurse, .compose] },
    session.mark (.gathered children.failures))

/-- Solves the specification by a strategy. Without a solver for subproblems nothing is split. -/
def attempt (e : Engine ω) (below : Option (Solver ω)) (depth : Int) (s : Specification)
    (c : Context) (strategy : Strategy) (session : Session ω) : Attempt × Session ω :=
  let session := session.mark (.decomposed s strategy.name)
  match below with
  | none => e.leafAttempt depth s c session
  | some solve =>
    match decompose s c strategy with
    | .error f => ({ outcome := .error f, phases := [.decompose, .compose] }, session)
    | .ok [] => e.leafAttempt depth s c session
    | .ok subs => e.splitAttempt solve s c subs session

/-- The best ranked strategy that has not been tried. -/
def nextStrategy? (e : Engine ω) (s : Specification) (c : Context) (tried : List String)
    (session : Session ω) : Option Match :=
  (e.router.rank (session.walks e).scores session.experience (session.history e) s c).find?
    fun m => !tried.contains m.name

/-- The phases passed when the attempt is over, after those before it. -/
def Attempt.passed (a : Attempt) (phases : List Phase) : List Phase :=
  phases ++ a.phases ++ [.cacheStore, .recordOutcome]

/-- A result without any attempt. -/
def early (depth : Int) (phases : List Phase) (r : Result) : Result := { r with depth, phases }

/-- A result of attempts, the last of them by the strategy of a match. -/
def late (m : Match) (depth : Int) (phases : List Phase) (r : Result) : Result :=
  { r with strategy := m.name, depth, phases }

/-- Attempts with one strategy after the other, while that may help and at most so many more.
`iterations` and `phases` are those so far. -/
def attempts (e : Engine ω) (below : Option (Solver ω)) (depth : Int) (s : Specification)
    (c : Context) :
    Nat → List String → Match → Int → List Phase → Session ω → Result × Session ω
  | retries, tried, m, iterations, phases, session =>
    let (a, session) := e.attempt below depth s c m.strategy session
    let iterations := iterations + a.iterations
    let phases := a.passed phases
    match a.outcome with
    | .ok artifact =>
      (late m depth (phases ++ [.done]) (.solved artifact iterations),
        (session.remember e s c artifact).note e s m.name true iterations)
    | .error f =>
      let session := session.note e s m.name false iterations
      let failed := late m depth (phases ++ [.failed]) (.failed f iterations)
      match retries with
      | 0 => (failed, session)
      | n + 1 =>
        if e.settings.stopOnFirstValid || !f.kind.isRetryable || session.stopped.isSome then
          (failed, session)
        else
          let session := session.mark (.ranked s)
          match e.nextStrategy? s c tried session with
          | none => (failed, session)
          | some next =>
            attempts e below depth s c n (tried ++ [next.name]) next iterations
              (phases ++ [.route]) session

def overBudget (e : Engine ω) : Failure := .budgetExceeded "iterations" e.settings.maxIterations

/-- Visits a specification at some depth. -/
def visit (e : Engine ω) (below : Option (Solver ω)) (depth : Int) : Solver ω :=
  fun s c session =>
    match session.stopped with
    | some why =>
      (early depth [.start, .failed] (.failed (.interrupted why) 0), session.mark .turnedAway)
    | none =>
      if e.settings.maxIterations < session.visits + 1 then
        (early depth [.start, .failed] (.failed e.overBudget 1), session.enter .refused)
      else
        let (remembered, session) := (session.enter (.admitted depth)).retrieve e s c
        match remembered with
        | some artifact =>
          (early depth [.start, .cacheCheck, .cached, .done]
            { Result.solved artifact 1 with cached := true }, session)
        | none =>
          let (selected, session) := session.choose e s c
          match selected with
          | .error f =>
            (early depth [.start, .cacheCheck, .route, .failed] (.failed f 1), session)
          | .ok m =>
            attempts e below depth s c e.settings.maxValidationRetries.toNat [m.name] m 1
              [.start, .cacheCheck, .route] session

/-- Solves with so many levels of subproblems below. -/
def solve (e : Engine ω) : Nat → Int → Solver ω
  | 0, depth => e.visit none depth
  | n + 1, depth => e.visit (some (solve e n (depth + 1))) depth

/-- A whole call. Its iterations are its visits, refused ones included. -/
def synthesize (e : Engine ω) (s : Specification) (c : Context) (session : Session ω) :
    Result × Session ω :=
  let (r, session) :=
    e.solve e.settings.maxDepth.toNat 0 s c { session with visits := 0, actions := [] }
  ({ r with iterations := session.visits }, session)

end Engine

end Synthesis
