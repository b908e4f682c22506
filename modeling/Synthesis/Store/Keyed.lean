import Synthesis.Store.Cache
import Synthesis.Context

/-!
The three caches of synthesis and their keys. Solutions are kept by what is to be solved and the
context it is solved in, strategy choices by what is to be solved, and test results by the test,
the code and the version of the runtime.
-/
namespace Synthesis

def second : Int := 1000000000

/-- The parts of a solution key; an absent list of constraints counts as empty. -/
def solutionParts (s : Specification) (contextKey : String) : List Cbor :=
  [.text "solution", .text s.description, .text s.typeSignature, Cbor.texts s.constraintList,
    .text contextKey]

def solutionKey (s : Specification) (contextKey : String) : String :=
  Key.ofParts (solutionParts s contextKey)

def strategyParts (s : Specification) : List Cbor :=
  [.text "strategy", .text s.description, .text s.typeSignature, Cbor.texts s.constraintList]

def strategyKey (s : Specification) : String := Key.ofParts (strategyParts s)

def executionKey (runtime : String) (t : TestCase) (code : String) : String :=
  Key.ofParts [.text "execution", t.cbor, .text code, .text runtime]

def sizeOr (default : Nat) (size : Int) : Int := if size ≤ 0 then default else size

def lifetimeOr (default lifetime : Int) : Int := if lifetime = 0 then default else lifetime

abbrev SolutionCache := Cache Artifact

namespace SolutionCache

def defaultSize : Nat := 1000

def new (size lifetime : Int) : SolutionCache := Cache.new (sizeOr defaultSize size) lifetime

end SolutionCache

abbrev StrategyCache := Cache String

namespace StrategyCache

def defaultSize : Nat := 500

/-- Short, since what the key leaves out also decides which strategy is best. -/
def defaultLifetime : Int := 600 * second

def new (size lifetime : Int) : StrategyCache :=
  Cache.new (sizeOr defaultSize size) (lifetimeOr defaultLifetime lifetime)

end StrategyCache

abbrev ExecutionCache := Cache Bool

namespace ExecutionCache

def defaultSize : Nat := 10000

def defaultLifetime : Int := 3600 * second

def new (size lifetime : Int) : ExecutionCache :=
  Cache.new (sizeOr defaultSize size) (lifetimeOr defaultLifetime lifetime)

end ExecutionCache

end Synthesis
