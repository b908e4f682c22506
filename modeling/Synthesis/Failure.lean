import Synthesis.Subproblem
import Synthesis.Text.Quoted

/-!
Failures of synthesis. A failure may wrap the one that caused it, or join several. Its kind is
that of the first failure of the taxonomy met on the way from the outside to the causes; an
interruption without such a kind counts as cancelled, and anything else as a failure of an
outside collaborator, that is of generation.
-/
namespace Synthesis

/-- Why a running call has to stop. -/
inductive Interruption where
  | cancelled
  | deadline
  deriving Repr, DecidableEq

def Interruption.message : Interruption → String
  | .cancelled => "context canceled"
  | .deadline => "context deadline exceeded"

inductive Failure where
  | plain (message : String)
  | wrapped (message : String) (cause : Failure)
  | joined (causes : List Failure)
  | noStrategy (summary : String) (considered : Int)
  | decomposition (strategy reason : String)
  | composition (slot reason : String) (cause : Option Failure)
  | validation (issues : List String)
  | budgetExceeded (budget : String) (limit : Int)
  | generation (cause : Failure)
  /-- Another try may succeed. -/
  | retryable (cause : Failure)
  | interrupted (why : Interruption)
  deriving Inhabited

inductive FailureKind where
  | noStrategy
  | decomposition
  | composition
  | validation
  | generation
  | budgetExceeded
  | cancelled
  deriving Repr, DecidableEq

namespace FailureKind

def name : FailureKind → String
  | .noStrategy => "no_strategy"
  | .decomposition => "decomposition"
  | .composition => "composition"
  | .validation => "validation"
  | .generation => "generation"
  | .budgetExceeded => "budget_exceeded"
  | .cancelled => "cancelled"

/-- The next strategy may do better. -/
def isRetryable : FailureKind → Bool
  | .composition | .validation | .decomposition | .generation => true
  | _ => false

end FailureKind

namespace Failure

def after (message : String) (rest : String) : String := message ++ ": " ++ rest

mutual

def message : Failure → String
  | .plain m => m
  | .wrapped m cause => after m (message cause)
  | .joined causes => Text.join "\n" (messages causes)
  | .noStrategy summary considered =>
    "no strategy can handle " ++ Text.quote summary ++ " (" ++ Decimal.intText considered
      ++ " considered)"
  | .decomposition strategy reason =>
    if strategy = "" then "decomposition failed: " ++ reason
    else "decomposition by " ++ strategy ++ " failed: " ++ reason
  | .composition slot reason cause =>
    let place := if slot = "" then "" else " at slot " ++ slot
    "composition failed" ++ place ++ ": " ++ reason ++ causeText cause
  | .validation issues =>
    if issues.isEmpty then "validation failed"
    else "validation failed: " ++ Text.join "; " issues
  | .budgetExceeded budget limit =>
    budget ++ " budget exceeded (limit " ++ Decimal.intText limit ++ ")"
  | .generation cause => "generation failed: " ++ message cause
  | .retryable cause => "retryable: " ++ message cause
  | .interrupted why => why.message

def messages : List Failure → List String
  | [] => []
  | f :: fs => message f :: messages fs

def causeText : Option Failure → String
  | none => ""
  | some f => ": " ++ message f

end

mutual

/-- The kind of the outermost failure of the taxonomy. -/
def ownKind? : Failure → Option FailureKind
  | .plain _ => none
  | .wrapped _ cause => ownKind? cause
  | .joined causes => firstKind? causes
  | .noStrategy _ _ => some .noStrategy
  | .decomposition _ _ => some .decomposition
  | .composition _ _ _ => some .composition
  | .validation _ => some .validation
  | .budgetExceeded _ _ => some .budgetExceeded
  | .generation _ => some .generation
  | .retryable cause => ownKind? cause
  | .interrupted _ => none

def firstKind? : List Failure → Option FailureKind
  | [] => none
  | f :: fs => (ownKind? f).or (firstKind? fs)

end

mutual

/-- Some failure from the outside to the causes satisfies `p`. -/
def anyCause (p : Failure → Bool) : Failure → Bool
  | .wrapped m cause => p (.wrapped m cause) || anyCause p cause
  | .joined causes => p (.joined causes) || anyOf p causes
  | .composition slot reason cause =>
    p (.composition slot reason cause) || anyOptional p cause
  | .generation cause => p (.generation cause) || anyCause p cause
  | .retryable cause => p (.retryable cause) || anyCause p cause
  | f => p f

def anyOf (p : Failure → Bool) : List Failure → Bool
  | [] => false
  | f :: fs => anyCause p f || anyOf p fs

def anyOptional (p : Failure → Bool) : Option Failure → Bool
  | none => false
  | some f => anyCause p f

end

def isInterruption : Failure → Bool
  | .interrupted _ => true
  | _ => false

def isDeadline : Failure → Bool
  | .interrupted .deadline => true
  | _ => false

def isMarkedRetryable : Failure → Bool
  | .retryable _ => true
  | _ => false

def kind (f : Failure) : FailureKind :=
  match ownKind? f with
  | some k => k
  | none => if f.anyCause isInterruption then .cancelled else .generation

/-- The failure, or one of its causes, says that another try may succeed. -/
def isRetryable (f : Failure) : Bool := f.anyCause isMarkedRetryable

end Failure

/-- A decomposition with this fault has failed, whatever strategy it comes from. -/
def DependencyFault.failure (fault : DependencyFault) : Failure := .decomposition "" fault.message

end Synthesis
