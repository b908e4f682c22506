import Synthesis.Decimal.Shortest

/-!
Durations in nanoseconds and their text: hours, minutes and seconds, or below one second the
largest unit that leaves a whole part.
-/
namespace Synthesis.Duration

/-- `n` units of `10 ^ -places`, with the fraction's last zeros dropped. -/
def fractional (places n : Nat) : String :=
  let fraction := n % Nat.pow 10 places
  let ds := Decimal.digits fraction
  let padded := Decimal.zeros (places - ds.length) ++ ds
  let kept := (padded.reverse.dropWhile (· == '0')).reverse
  Decimal.natText (n / Nat.pow 10 places)
    ++ (if fraction = 0 then "" else "." ++ String.ofList kept)

def magnitudeText (n : Nat) : String :=
  if n = 0 then "0s"
  else if n < 1000 then Decimal.natText n ++ "ns"
  else if n < 1000000 then fractional 3 n ++ "µs"
  else if n < 1000000000 then fractional 6 n ++ "ms"
  else
    let minutes := n / 60000000000
    let seconds := fractional 9 (n % 60000000000) ++ "s"
    if minutes = 0 then seconds
    else if minutes < 60 then Decimal.natText minutes ++ "m" ++ seconds
    else Decimal.natText (minutes / 60) ++ "h" ++ Decimal.natText (minutes % 60) ++ "m" ++ seconds

def text (nanos : Int) : String :=
  if nanos < 0 then "-" ++ magnitudeText nanos.natAbs else magnitudeText nanos.natAbs

end Synthesis.Duration
