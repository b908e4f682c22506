import Synthesis.Decimal.Binary

/-!
The shortest decimal that reads back as a given double. Of the decimals with the fewest digits
that round to the double, the one nearest to it is taken; a tie goes to the even last digit.
How the digits are laid out is a `Layout`, which each output format chooses for itself.
-/
namespace Synthesis.Decimal

/-- The decimal `coefficient · 10 ^ scale`. -/
structure Scaled where
  coefficient : Nat
  scale : Int
  deriving Repr, DecidableEq

/-- The positive reals that round to `m · 2 ^ e`, in quarter units `2 ^ (e - 2)`. The ends
belong to the interval when `m` is even. -/
structure Rounding where
  low : Nat
  high : Nat
  closed : Bool

def Rounding.around (m : Nat) (e : Int) : Rounding :=
  { low := if m = Nat.pow 2 fractionBits ∧ leastExponent < e then 4 * m - 1 else 4 * m - 2
    high := 4 * m + 2
    closed := m % 2 == 0 }

/-- The decimal `c · 10 ^ s` lies in the interval around `m · 2 ^ e`. -/
def Rounding.holds (r : Rounding) (e : Int) (c : Nat) (s : Int) : Bool :=
  let up := if 0 ≤ s then c * Nat.pow 10 s.toNat else c
  let down := if 0 ≤ s then 1 else Nat.pow 10 (-s).toNat
  let (unitNum, unitDen) := quotient 1 (e - 2)
  let v := up * unitDen
  let lo := r.low * unitNum * down
  let hi := r.high * unitNum * down
  if r.closed then lo ≤ v && v ≤ hi else lo < v && v < hi

/-- The least `k` with `value < 10 ^ k`, found from an estimate that is at most one off. -/
def decimalLength (num den : Nat) : Int :=
  let guess : Int := ((num.log2 : Int) - (den.log2 : Int)) * 30103 / 100000
  let reaches (k : Int) : Bool :=
    if 0 ≤ k then den * Nat.pow 10 k.toNat ≤ num else den ≤ num * Nat.pow 10 (-k).toNat
  if reaches (guess + 1) then guess + 2 else if reaches guess then guess + 1 else
    if reaches (guess - 1) then guess else guess - 1

/-- The neighbours of `num / den` on the grid `10 ^ s`, below and above. -/
def gridBelow (num den : Nat) (s : Int) : Nat :=
  if 0 ≤ s then num / (den * Nat.pow 10 s.toNat) else num * Nat.pow 10 (-s).toNat / den

/-- Twice `num / den` compared with `a + (a + 1)` on the grid `10 ^ s`: which neighbour is
nearer. -/
def nearer (num den a : Nat) (s : Int) : Ordering :=
  let (n, d) :=
    if 0 ≤ s then (num, den * Nat.pow 10 s.toNat) else (num * Nat.pow 10 (-s).toNat, den)
  compare (2 * n) ((2 * a + 1) * d)

def onGrid? (r : Rounding) (e : Int) (num den : Nat) (s : Int) : Option Nat :=
  let a := gridBelow num den s
  match r.holds e a s, r.holds e (a + 1) s with
  | true, true =>
    match nearer num den a s with
    | .lt => some a
    | .gt => some (a + 1)
    | .eq => some (if a % 2 = 0 then a else a + 1)
  | true, false => some a
  | false, true => some (a + 1)
  | false, false => none

/-- Tries grids with one more digit each, from the coarsest. -/
def refine (r : Rounding) (e : Int) (num den : Nat) : Nat → Int → Scaled
  | 0, s => ⟨gridBelow num den s, s⟩
  | n + 1, s =>
    match onGrid? r e num den s with
    | some c => ⟨c, s⟩
    | none => refine r e num den n (s - 1)

def dropZeros : Nat → Scaled → Scaled
  | 0, d => d
  | n + 1, d =>
    if d.coefficient % 10 = 0 ∧ d.coefficient ≠ 0 then
      dropZeros n ⟨d.coefficient / 10, d.scale + 1⟩
    else d

/-- The shortest decimal that rounds to `m · 2 ^ e`, without trailing zeros. -/
def shortest (m : Nat) (e : Int) : Scaled :=
  if m = 0 then ⟨0, 0⟩
  else
    let (num, den) := quotient m e
    dropZeros 20 (refine (.around m e) e num den 17 (decimalLength num den - 1))

/-- How a number is laid out: below `10 ^ low` and from `10 ^ high` on with an exponent,
which has at least `exponentWidth` digits. -/
structure Layout where
  low : Int
  high : Int
  exponentWidth : Nat
  nan : String
  infinity : String
  negInfinity : String

def zeros (n : Nat) : List Char := List.replicate n '0'

/-- The digits `ds` with the decimal point after the first `point` of them. -/
def positional (ds : List Char) (point : Int) : List Char :=
  if point ≤ 0 then '0' :: '.' :: (zeros (-point).toNat ++ ds)
  else if (ds.length : Int) ≤ point then ds ++ zeros (point.toNat - ds.length)
  else ds.take point.toNat ++ '.' :: ds.drop point.toNat

def scientific (width : Nat) (ds : List Char) (exponent : Int) : List Char :=
  let lead := match ds with
    | [d] => [d]
    | d :: rest => d :: '.' :: rest
    | [] => []
  let size := digits exponent.natAbs
  lead ++ 'e' :: (if exponent < 0 then '-' else '+') :: (zeros (width - size.length) ++ size)

def Layout.render (l : Layout) (x : Float) : String :=
  match read x with
  | .nan => l.nan
  | .infinite neg => if neg then l.negInfinity else l.infinity
  | .finite neg m e =>
    let d := shortest m e
    let ds := digits d.coefficient
    let point : Int := ds.length + d.scale
    let body :=
      if m ≠ 0 ∧ (point - 1 < l.low ∨ l.high ≤ point - 1) then
        scientific l.exponentWidth ds (point - 1)
      else positional ds point
    (if neg then "-" else "") ++ String.ofList body

end Synthesis.Decimal
