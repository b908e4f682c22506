import Synthesis.Context
import Synthesis.Failure

/-!
Strategies: ways to split a specification into subproblems. A strategy says which
specifications it can handle, how it splits them and how much it trusts itself; no subproblems
at all means that the specification is solved in one piece. A registry holds strategies with
distinct names in the order of their registration.
-/
namespace Synthesis

structure Metadata where
  name : String
  description : String
  keywords : List String
  /-- The strategy never splits anything. -/
  atomic : Bool := false
  deriving Inhabited

/-- The text under which a strategy is found. -/
def Metadata.document (m : Metadata) : String :=
  m.description ++ " " ++ Text.join " " m.keywords

structure Strategy where
  metadata : Metadata
  canHandle : Specification → Context → Bool
  decompose : Specification → Context → Except Failure (List Subproblem)
  estimate : Specification → Context → Float

namespace Strategy

def name (s : Strategy) : String := s.metadata.name

/-- `n` out of `full`, at most one. -/
def ratio (n full : Nat) : Float :=
  if full = 0 then 0
  else
    let r := n.toFloat / full.toFloat
    if r < 1 then r else 1

/-- The nearest score between zero and one. -/
def clampScore (x : Float) : Float :=
  if x < 0 then 0 else if 1 < x then 1 else x

end Strategy

structure Registry where
  strategies : List Strategy := []

inductive RegistryError where
  | unnamed
  | taken (name : String)
  | unknown (name : String)
  deriving Repr, DecidableEq

def RegistryError.message : RegistryError → String
  | .unnamed => "strategy has no name"
  | .taken name => "strategy " ++ Text.quote name ++ " already registered"
  | .unknown name => "unknown strategy " ++ Text.quote name

namespace Registry

def names (r : Registry) : List String := r.strategies.map (·.name)

def size (r : Registry) : Nat := r.strategies.length

def get? (r : Registry) (name : String) : Option Strategy :=
  r.strategies.find? (·.name == name)

def register (r : Registry) (s : Strategy) : Except RegistryError Registry :=
  if s.name = "" then .error .unnamed
  else if r.names.contains s.name then .error (.taken s.name)
  else .ok ⟨r.strategies ++ [s]⟩

def ofList (ss : List Strategy) : Except RegistryError Registry :=
  ss.foldlM register {}

/-- The enabled strategies in the order of registration; no names at all enable every one. -/
def filter (r : Registry) (enabled : List String) : Except RegistryError Registry :=
  if enabled.isEmpty then .ok r
  else match enabled.find? fun n => !r.names.contains n with
    | some n => .error (.unknown n)
    | none => .ok ⟨r.strategies.filter fun s => enabled.contains s.name⟩

end Registry

end Synthesis
