import Synthesis.Decimal.Binary
import Synthesis.Text.AsciiCase

/-!
Reading numbers. A decimal or hexadecimal literal is split into sign, digits and exponent, and
its exact value is rounded to the nearest double, a half going to the even neighbour.
-/
namespace Synthesis.Decimal

open Synthesis.Text

def digitValue (c : Char) : Nat := c.toNat - '0'.toNat

def natOfDigits (ds : List Char) : Nat := ds.foldl (fun n c => 10 * n + digitValue c) 0

def hexValue? (c : Char) : Option Nat :=
  if isAsciiDigit c then some (digitValue c)
  else if 'a' ≤ c ∧ c ≤ 'f' then some (c.toNat - 'a'.toNat + 10)
  else if 'A' ≤ c ∧ c ≤ 'F' then some (c.toNat - 'A'.toNat + 10)
  else none

def isHexDigit (c : Char) : Bool := (hexValue? c).isSome

def natOfHex (ds : List Char) : Nat := ds.foldl (fun n c => 16 * n + (hexValue? c).getD 0) 0

/-- Digits in front of the point, behind it, and the exponent, of either base. -/
structure Parts where
  whole : List Char
  fraction : List Char
  exponent : Option Int

/-- An exponent: an optional sign and at least one digit. -/
def exponent? (cs : List Char) : Option (Int × List Char) :=
  let (neg, rest) := match cs with
    | '-' :: r => (true, r)
    | '+' :: r => (false, r)
    | r => (false, r)
  let ds := rest.takeWhile isAsciiDigit
  if ds.isEmpty then none
  else
    let n : Int := natOfDigits ds
    some (if neg then -n else n, rest.dropWhile isAsciiDigit)

/-- Splits a whole text into mantissa digits, recognised by `isDigit`, and an exponent that
follows one of `marks`. At least one mantissa digit is needed. -/
def parts? (isDigit : Char → Bool) (marks : List Char) (cs : List Char) : Option Parts :=
  let whole := cs.takeWhile isDigit
  let rest := cs.dropWhile isDigit
  let (fraction, rest) := match rest with
    | '.' :: r => (r.takeWhile isDigit, r.dropWhile isDigit)
    | r => ([], r)
  if whole.isEmpty && fraction.isEmpty then none
  else match rest with
    | [] => some ⟨whole, fraction, none⟩
    | c :: r =>
      if marks.contains c then
        match exponent? r with
        | some (e, []) => some ⟨whole, fraction, some e⟩
        | _ => none
      else none

/-- Exponents beyond these limits give zero or infinity whatever the digits are, as long as
there are fewer than ten thousand of those. -/
def boundedExponent (e : Int) : Int := max (-20000) (min 20000 e)

def exactFloat (m : Nat) (e : Int) : Float :=
  if 0 ≤ e then Float.ofScientific m false e.toNat else Float.ofScientific m true (-e).toNat

def Parts.decimal (p : Parts) : Float :=
  let m := natOfDigits (p.whole ++ p.fraction)
  if m = 0 then 0
  else exactFloat m (boundedExponent (p.exponent.getD 0) - p.fraction.length)

/-- The double nearest to `m · 2 ^ e`. -/
def binaryFloat (m : Nat) (e : Int) : Float :=
  if m = 0 then 0
  else
    let size : Int := m.log2 + 1 + e
    -- The last bit of the result has this weight.
    let unit := max leastExponent (size - 53)
    let n :=
      if unit ≤ e then m * Nat.pow 2 (e - unit).toNat
      else roundQuotient m (Nat.pow 2 (unit - e).toNat)
    if 1025 < size then Float.ofScientific 1 false 400
    else Float.scaleB n.toFloat unit

def Parts.hexadecimal (p : Parts) : Float :=
  binaryFloat (natOfHex (p.whole ++ p.fraction))
    (boundedExponent (p.exponent.getD 0) - 4 * p.fraction.length)

def signed (neg : Bool) (x : Float) : Float := if neg then -x else x

/-- The sign in front of a literal. -/
def splitSign : List Char → Bool × List Char
  | '-' :: r => (true, r)
  | '+' :: r => (false, r)
  | r => (false, r)

/-- Every underscore stands between two digits, where a base mark counts as a digit. -/
def underscoresFit (hex : Bool) : Char → List Char → Bool
  | last, [] => last != '_'
  | last, c :: cs =>
    if isAsciiDigit c || (hex && isHexDigit c) then underscoresFit hex '0' cs
    else if c = '_' then last == '0' && underscoresFit hex '_' cs
    else last != '_' && underscoresFit hex '!' cs

def underscoresOk (cs : List Char) : Bool :=
  let body := (splitSign cs).2
  match body with
  | '0' :: x :: r =>
    if x == 'x' || x == 'X' then underscoresFit true '0' r
    else if x == 'b' || x == 'B' || x == 'o' || x == 'O' then underscoresFit false '0' r
    else underscoresFit false '!' body
  | _ => underscoresFit false '!' body

inductive FloatError where
  | malformed
  | outOfRange
  deriving Repr, DecidableEq

def specialFloat? (cs : List Char) : Option Float :=
  let (neg, r) := splitSign cs
  let word := String.ofList (r.map lowerAscii)
  if word = "inf" ∨ word = "infinity" then some (signed neg (1.0 / 0.0))
  else if word = "nan" ∧ r = cs then some (0.0 / 0.0)
  else none

/-- A floating-point literal: decimal, or hexadecimal with a binary exponent, or a name for
infinity or for "not a number"; underscores may separate digits. -/
def float? (s : String) : Except FloatError Float :=
  let cs := s.toList
  match specialFloat? cs with
  | some x => .ok x
  | none =>
    let (neg, body) := splitSign cs
    let plain := body.filter (· != '_')
    let x? := match plain with
      | '0' :: 'x' :: r | '0' :: 'X' :: r =>
        match parts? isHexDigit ['p', 'P'] r with
        | some p => if p.exponent.isSome then some p.hexadecimal else none
        | none => none
      | r => (parts? isAsciiDigit ['e', 'E'] r).map Parts.decimal
    match x? with
    | none => .error .malformed
    | some x =>
      if body.contains '_' && !underscoresOk cs then .error .malformed
      else if x.isInf then .error .outOfRange
      else .ok (signed neg x)

inductive IntError where
  | malformed
  | outOfRange
  deriving Repr, DecidableEq

/-- A decimal integer with an optional sign, inside the signed sixty-four bit range. -/
def int? (s : String) : Except IntError Int :=
  let (neg, ds) := splitSign s.toList
  if ds.isEmpty || !ds.all isAsciiDigit then .error .malformed
  else
    let n : Int := natOfDigits ds
    let i := if neg then -n else n
    if fitsInt64 i then .ok i else .error .outOfRange

end Synthesis.Decimal
