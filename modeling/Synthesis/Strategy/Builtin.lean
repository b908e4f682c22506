import Synthesis.Strategy.Parameters
import Synthesis.Strategy.Clusters
import Synthesis.Strategy.Stages

/-!
The strategies that are always there. The last of them handles everything and splits nothing,
so that every specification can at least be solved in one piece.
-/
namespace Synthesis

/-- Below the estimate of any other strategy that applies. -/
def Strategy.wholeEstimate : Float := 0.1

def Strategy.whole : Strategy where
  metadata :=
    { name := "atomic"
      description := "Treat the whole specification as a single leaf and generate it directly"
      keywords := ["simple", "single", "atomic", "leaf", "direct", "small"]
      atomic := true }
  canHandle _ _ := true
  decompose _ _ := .ok []
  estimate _ _ := wholeEstimate

def Strategy.builtin : List Strategy :=
  [Strategy.parameters, Strategy.clusters, Strategy.stages, Strategy.whole]

def Registry.builtin : Registry := ⟨Strategy.builtin⟩

end Synthesis
