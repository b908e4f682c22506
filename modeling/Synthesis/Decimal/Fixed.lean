import Synthesis.Decimal.Binary

/-!
Numbers with a fixed number of decimal places. The exact binary value is rounded to the nearest
decimal of that many places, a half going to the even neighbour.
-/
namespace Synthesis.Decimal

/-- `n` units of `10 ^ -places`, written with exactly that many places. -/
def placed (places n : Nat) : String :=
  let whole := natText (n / Nat.pow 10 places)
  if places = 0 then whole
  else
    let part := digits (n % Nat.pow 10 places)
    whole ++ "." ++ String.ofList (List.replicate (places - part.length) '0' ++ part)

def fixed (places : Nat) (x : Float) : String :=
  match read x with
  | .nan => "NaN"
  | .infinite neg => if neg then "-Inf" else "+Inf"
  | .finite neg m e =>
    let (num, den) := quotient m e
    (if neg then "-" else "") ++ placed places (roundQuotient (num * Nat.pow 10 places) den)

end Synthesis.Decimal
