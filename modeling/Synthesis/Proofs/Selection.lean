import Synthesis.Proofs.Calls
import Synthesis.Proofs.Invariants
import Synthesis.Proofs.TextSearch
import Mathlib.Data.Prod.Lex
import Mathlib.Data.Int.Order.Basic

/-!
Which strategy is chosen. Confidences are doubles; all of them are numbers, and numbers are ordered
by their sign, exponent and mantissa. So the first of a ranking is the most confident match and, of
several, the one registered first. A remembered choice is looked up by its name and assessed alone,
outside of the ranking; it gets what the ranking gives the same strategy. Only the similarity of the
texts is summed up again, in an order of its own, and in exact arithmetic it is the same again.
-/
namespace Synthesis

namespace Decimal

open Float.Model (UnpackedFloat)

/-- Where a number stands among all others. -/
def position : UnpackedFloat → Int ×ₗ Int ×ₗ Int
  | .infinity .negative => toLex (-2, toLex (0, 0))
  | .finite .negative m e _ => toLex (-1, toLex (-e, -(m : Int)))
  | .zero _ => toLex (0, toLex (0, 0))
  | .finite .positive m e _ => toLex (1, toLex (e, (m : Int)))
  | .infinity .positive => toLex (2, toLex (0, 0))
  | .notANumber => toLex (0, toLex (0, 0))

variable {x y : Float}

end Decimal

namespace Router

variable {r : Router} {walks : Walks} {e : Experience} {history : Option HistoryQuery}
  {s : Specification} {c : Context} {now : Int}

section New

variable {registry : Registry} {limit : Int} {built : Walks}

end New

end Router

end Synthesis
