/-!
The exact value of a double. A finite double is a sign, a natural mantissa and a power of two;
all text about numbers is computed from these, in exact arithmetic.
-/
namespace Synthesis.Decimal

/-- A double by its exact value; `finite neg m e` is `± m · 2 ^ e`. -/
inductive Reading where
  | nan
  | infinite (neg : Bool)
  | finite (neg : Bool) (mantissa : Nat) (exponent : Int)
  deriving Repr, DecidableEq

def fractionBits : Nat := 52

/-- The least exponent of a double, that of the subnormal ones. -/
def leastExponent : Int := -1074

def Reading.ofBits (bits : Nat) : Reading :=
  let neg := bits / Nat.pow 2 63 % 2 == 1
  let field : Nat := bits / Nat.pow 2 fractionBits % Nat.pow 2 11
  let fraction : Nat := bits % Nat.pow 2 fractionBits
  if field = Nat.pow 2 11 - 1 then
    if fraction = 0 then .infinite neg else .nan
  else if field = 0 then .finite neg fraction leastExponent
  else .finite neg (Nat.pow 2 fractionBits + fraction) (leastExponent + (field : Int) - 1)

def read (x : Float) : Reading := .ofBits x.toBits.toNat

def isNegative (x : Float) : Bool := x.toBits.toNat / Nat.pow 2 63 % 2 == 1

/-- `± num / den`, the value of a finite double as a quotient of naturals. -/
def quotient (mantissa : Nat) (exponent : Int) : Nat × Nat :=
  if 0 ≤ exponent then (mantissa * Nat.pow 2 exponent.toNat, 1)
  else (mantissa, Nat.pow 2 (-exponent).toNat)

/-- `num / den` to the nearest natural; a half goes to the even neighbour. -/
def roundQuotient (num den : Nat) : Nat :=
  let q := num / den
  let r := num % den
  if 2 * r < den then q
  else if den < 2 * r then q + 1
  else if q % 2 = 0 then q else q + 1

/-- The decimal digits of a natural, most significant first; zero has one digit. -/
def digits (n : Nat) : List Char := Nat.toDigits 10 n

def natText (n : Nat) : String := String.ofList (digits n)

def intText : Int → String
  | .ofNat n => natText n
  | .negSucc n => "-" ++ natText (n + 1)

/-- Sixty-four bit two's complement: the representative in `[-2^63, 2^63)`. -/
def wrap64 (i : Int) : Int := Int.bmod i 18446744073709551616

def maxInt64 : Int := 9223372036854775807

def minInt64 : Int := -9223372036854775808

/-- What sixty-four bits leave of a number, the upper half of it counted from below zero. -/
theorem wrap64_eq (i : Int) :
    wrap64 i =
      if i % 18446744073709551616 ≤ maxInt64 then i % 18446744073709551616
      else i % 18446744073709551616 - 18446744073709551616 := by
  unfold wrap64 maxInt64
  rw [Int.bmod_def]
  split
  · rw [if_pos (by omega)]
    rfl
  · rw [if_neg (by omega)]
    rfl

theorem wrap64_eq_self_iff {i : Int} : wrap64 i = i ↔ minInt64 ≤ i ∧ i ≤ maxInt64 := by
  rw [wrap64_eq]
  unfold minInt64 maxInt64
  split <;> omega

def fitsInt64 (i : Int) : Bool := minInt64 ≤ i && i ≤ maxInt64

/-- The nearest value inside the signed sixty-four bit range. -/
def clamp64 (i : Int) : Int := max minInt64 (min maxInt64 i)

end Synthesis.Decimal
