import Synthesis.Engine.Basic

/-!
Solving a leaf: candidates are asked for until one passes all checks, each with the issues of
the one before. A collaborator that fails ends it, and so does a caller that has been stopped.
-/
namespace Synthesis.Engine

variable {ω : Type}

/-- At most this many abstractions are offered for a leaf. -/
def maxAbstractions : Int := 3

/-- A failed collaborator, unless the caller has been stopped meanwhile. -/
def leafFailure (stopped : Option Interruption) (f : Failure) : Failure :=
  match stopped with
  | some why => .interrupted why
  | none => .generation f

/-- Up to the given number of candidates, from the given attempt on. -/
def leafTries (e : Engine ω) (s : Specification) (c : Context) (hints : Hints) :
    Nat → Int → List String → Session ω → Except Failure Artifact × Session ω
  | 0, _, issues, session => (.error (.validation issues), session)
  | n + 1, attempt, issues, session =>
    let (proposed, session) := session.propose e s c { hints with attempt, issues }
    match proposed with
    | .error f => (.error (leafFailure session.stopped f), session)
    | .ok candidate =>
      if !candidate.success || Text.isAllBlank candidate.code then
        leafTries e s c hints n (attempt + 1) ["generator produced no solution"] session
      else
        let artifact : Artifact := ⟨candidate.code, candidate.confidence, "generate"⟩
        let (inspected, session) := session.inspect e s artifact
        match inspected with
        | .error f => (.error (leafFailure session.stopped (.wrapped "validate" f)), session)
        | .ok report =>
          let session := session.countUses hints.abstractions report.passed
          if report.passed then (.ok artifact, session)
          else leafTries e s c hints n (attempt + 1) report.issues session

def leaf (e : Engine ω) (depth : Int) (s : Specification) (c : Context) (session : Session ω) :
    Except Failure Artifact × Session ω :=
  let (abstractions, session) := session.findAbstractions e s c maxAbstractions
  leafTries e s c { abstractions, depth } (e.settings.maxValidationRetries + 1).toNat 0 [] session

end Synthesis.Engine
