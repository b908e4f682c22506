import Synthesis.Decimal.Shortest
import Synthesis.Decimal.Literal

/-!
JSON values. Numbers and strings keep the text of their literal, a string without its quotes, so
that no digit and no spelling of a character is lost between reading and writing; objects keep
their members in order, repeated names included.
-/
namespace Synthesis

inductive Json where
  | null
  | bool (b : Bool)
  | number (literal : String)
  | string (literal : String)
  | array (items : List Json)
  | object (members : List (String × Json))
  deriving Inhabited

namespace Json

/-- Numbers are positional from `10 ^ -6` up to, and not including, `10 ^ 21`. -/
def numberLayout : Decimal.Layout :=
  ⟨-6, 21, 1, "null", "null", "null"⟩

def ofFloat (x : Float) : Json := .number (numberLayout.render x)

def ofInt (i : Int) : Json := .number (Decimal.intText i)

def ofNat (n : Nat) : Json := .number (Decimal.natText n)

/-- The last member of that name, as a repeated name overrides the earlier ones. -/
def member? (name : String) : List (String × Json) → Option Json
  | [] => none
  | (k, v) :: rest => (member? name rest).or (if k = name then some v else none)

/-- The member of that name; absent and null are alike. -/
def get? (j : Json) (name : String) : Option Json :=
  match j with
  | .object ms => match member? name ms with
    | some .null => none
    | found => found
  | _ => none

/-- The double nearest to a number's literal. -/
def floatOf (literal : String) : Float :=
  let (neg, body) := Decimal.splitSign literal.toList
  match Decimal.parts? Text.isAsciiDigit ['e', 'E'] body with
  | some p => Decimal.signed neg p.decimal
  | none => 0

end Json

end Synthesis
