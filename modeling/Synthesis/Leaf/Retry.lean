import Synthesis.Leaf.Candidate
import Synthesis.Duration

/-!
Retrying a collaborator. A call is repeated while it fails in a way that another try may mend,
up to a bound, each try with a time limit of its own. A stopped caller ends it at once.
-/
namespace Synthesis

structure RetryPolicy where
  /-- Nanoseconds for one try; zero or less means no limit. -/
  timeout : Int := 0
  /-- Tries after the first one. -/
  maxRetries : Int := 0

namespace RetryPolicy

def attempts (p : RetryPolicy) : Nat := max 1 (Decimal.wrap64 (p.maxRetries + 1)).toNat

def isLimited (p : RetryPolicy) : Bool := 0 < p.timeout

/-- A try that ran out of time may be repeated. -/
def classify (p : RetryPolicy) (operation : String) (f : Failure) : Failure :=
  if f.anyCause Failure.isDeadline then
    .retryable (.wrapped (operation ++ " timed out after " ++ Duration.text p.timeout) f)
  else f

def exhausted (p : RetryPolicy) (operation : String) (last : Failure) : Failure :=
  .wrapped
    (operation ++ " failed after " ++ Decimal.natText p.attempts ++ " attempts") last

variable {σ α : Type}

/-- Up to the given number of tries. -/
def tries (p : RetryPolicy) (operation : String) (ask : Request σ α) :
    Nat → Failure → Option Interruption → σ → Reply σ α
  | 0, last, stopped, state => ⟨.error (p.exhausted operation last), stopped, state⟩
  | n + 1, _, stopped, state =>
    match stopped with
    | some why => ⟨.error (.interrupted why), some why, state⟩
    | none =>
      let r := ask { limited := p.isLimited } state
      match r.outcome with
      | .ok a => ⟨.ok a, r.stopped, r.state⟩
      | .error f =>
        match r.stopped with
        | some why => ⟨.error (.interrupted why), some why, r.state⟩
        | none =>
          let f := p.classify operation f
          if f.isRetryable then tries p operation ask n f none r.state
          else ⟨.error f, none, r.state⟩

def run (p : RetryPolicy) (operation : String) (ask : Request σ α)
    (stopped : Option Interruption) (state : σ) : Reply σ α :=
  tries p operation ask p.attempts (.plain "") stopped state

end RetryPolicy

def Generator.retrying {σ : Type} (p : RetryPolicy) (g : Generator σ) : Generator σ :=
  fun s c hints call state => p.run "generate" (g s c hints) call.stopped state

def Validator.retrying {σ : Type} (p : RetryPolicy) (v : Validator σ) : Validator σ :=
  fun s a call state => p.run "validate" (v s a) call.stopped state

end Synthesis
