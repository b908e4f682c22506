import Synthesis.Decimal.Literal
import Synthesis.Text.Cut

/-!
Instants on the calendar. A timestamp is a civil date and time with its offset from universal
time; it is written, and read back, in the internet date and time format with as many digits
after the second as are needed.
-/
namespace Synthesis

/-- Seconds of the local clock since 1970, a fraction in nanoseconds, and the offset of the
local clock from universal time in seconds. -/
structure Timestamp where
  localSeconds : Int
  nanos : Nat
  offset : Int
  deriving Repr, DecidableEq, Inhabited

namespace Calendar

open Synthesis.Text Synthesis.Decimal

structure Date where
  year : Int
  month : Nat
  day : Nat
  deriving Repr, DecidableEq

/-- Days from 1970-01-01; years count from March so that the leap day comes last. -/
def dayNumber (d : Date) : Int :=
  let y := if d.month ≤ 2 then d.year - 1 else d.year
  let era := y.fdiv 400
  let yearOfEra := y - era * 400
  let month : Int := (d.month + 9) % 12
  let dayOfYear := (153 * month + 2) / 5 + d.day - 1
  let dayOfEra := yearOfEra * 365 + yearOfEra / 4 - yearOfEra / 100 + dayOfYear
  era * 146097 + dayOfEra - 719468

def dateOfDay (n : Int) : Date :=
  let z := n + 719468
  let era := z.fdiv 146097
  let dayOfEra := z - era * 146097
  let yearOfEra := (dayOfEra - dayOfEra / 1460 + dayOfEra / 36524 - dayOfEra / 146096) / 365
  let dayOfYear := dayOfEra - (365 * yearOfEra + yearOfEra / 4 - yearOfEra / 100)
  let m := (5 * dayOfYear + 2) / 153
  let day := dayOfYear - (153 * m + 2) / 5 + 1
  let month := if m < 10 then m + 3 else m - 9
  let year := yearOfEra + era * 400
  ⟨if month ≤ 2 then year + 1 else year, month.toNat, day.toNat⟩

def isLeap (y : Int) : Bool := y % 4 == 0 && (y % 100 != 0 || y % 400 == 0)

def daysInMonth (y : Int) (m : Nat) : Nat :=
  if m = 2 then (if isLeap y then 29 else 28)
  else if [4, 6, 9, 11].contains m then 30 else 31

end Calendar

namespace Timestamp

open Calendar Synthesis.Text Synthesis.Decimal

def secondsPerDay : Int := 86400

def unixSeconds (t : Timestamp) : Int := t.localSeconds - t.offset

def unixNanos (t : Timestamp) : Int := t.unixSeconds * 1000000000 + t.nanos

def ofUnixNanos (n : Int) : Timestamp :=
  ⟨n.fdiv 1000000000, (n.fmod 1000000000).toNat, 0⟩

/-- The first instant of the year one, which stands for "no time". -/
def isZero (t : Timestamp) : Bool := t.unixSeconds == -62135596800 && t.nanos == 0

def zeroPad (width n : Nat) : List Char :=
  let ds := digits n
  List.replicate (width - ds.length) '0' ++ ds

def padded (width n : Nat) : String := String.ofList (zeroPad width n)

def two (n : Nat) : String := padded 2 n

/-- The fraction of a second without trailing zeros, after a point, or nothing. -/
def fractionText (nanos : Nat) : String :=
  if nanos = 0 then ""
  else String.ofList ('.' :: dropRightWhile (· == '0') (zeroPad 9 nanos))

/-- The hours and minutes of an offset, with the given text between them. Seconds are left out, and
what is left of an offset below a minute has a plus, whatever its sign was. -/
def zoneText (between : String) (offset : Int) : String :=
  let minutes := offset.natAbs / 60
  (if offset ≤ -60 then "-" else "+") ++ two (minutes / 60) ++ between ++ two (minutes % 60)

def offsetText (offset : Int) : String := if offset = 0 then "Z" else zoneText ":" offset

def yearText (y : Int) : String :=
  if y < 0 then "-" ++ padded 4 y.natAbs else padded 4 y.natAbs

def dateText (t : Timestamp) : String :=
  let d := dateOfDay (t.localSeconds.fdiv secondsPerDay)
  yearText d.year ++ "-" ++ two d.month ++ "-" ++ two d.day

def clockText (t : Timestamp) : String :=
  let s := (t.localSeconds.fmod secondsPerDay).toNat
  two (s / 3600) ++ ":" ++ two (s / 60 % 60) ++ ":" ++ two (s % 60) ++ fractionText t.nanos

/-- The internet date and time format. -/
def render (t : Timestamp) : String :=
  t.dateText ++ "T" ++ t.clockText ++ offsetText t.offset

/-- Why a timestamp has no internet form. -/
inductive FormatError where
  | year
  | zone
  deriving Repr, DecidableEq

def FormatError.message : FormatError → String
  | .year => "year outside of range [0,9999]"
  | .zone => "timezone hour outside of range [0,23]"

/-- The internet format has years of four digits and offsets below a day. -/
def formatError? (t : Timestamp) : Option FormatError :=
  let year := (dateOfDay (t.localSeconds.fdiv secondsPerDay)).year
  if year < 0 ∨ 9999 < year then some .year
  else if secondsPerDay ≤ t.offset.natAbs then some .zone
  else none

/-- The form for people: date, clock, numeric offset and the name of the zone. -/
def describe (t : Timestamp) : String :=
  let zone :=
    if t.offset = 0 then "+0000 UTC" else zoneText "" t.offset ++ " " ++ zoneText "" t.offset
  t.dateText ++ " " ++ t.clockText ++ " " ++ zone

/-- At least one and at most two digits, as a number. -/
def shortNumber? (cs : List Char) : Option (Nat × List Char) :=
  match cs with
  | a :: b :: rest =>
    if isAsciiDigit a then
      if isAsciiDigit b then some (natOfDigits [a, b], rest) else some (digitValue a, b :: rest)
    else none
  | [a] => if isAsciiDigit a then some (digitValue a, []) else none
  | [] => none

def fixedNumber? (width : Nat) (cs : List Char) : Option (Nat × List Char) :=
  let ds := cs.take width
  if ds.length = width ∧ ds.all isAsciiDigit then some (natOfDigits ds, cs.drop width) else none

def literal? (c : Char) : List Char → Option (List Char)
  | d :: rest => if c = d then some rest else none
  | [] => none

/-- Digits after a point or comma: the first nine count. -/
def fraction? (cs : List Char) : Nat × List Char :=
  match cs with
  | p :: d :: rest =>
    if (p = '.' ∨ p = ',') ∧ isAsciiDigit d then
      let ds := (d :: rest).takeWhile isAsciiDigit
      let kept := ds.take 9
      (natOfDigits (kept ++ List.replicate (9 - kept.length) '0'),
        (d :: rest).dropWhile isAsciiDigit)
    else (0, cs)
  | _ => (0, cs)

def offset? : List Char → Option (Int × List Char)
  | 'Z' :: rest => some (0, rest)
  | sign :: rest =>
    if sign = '+' ∨ sign = '-' then do
      let (h, rest) ← fixedNumber? 2 rest
      let rest ← literal? ':' rest
      let (m, rest) ← fixedNumber? 2 rest
      if 24 < h ∨ 60 < m then none
      let s : Int := (h * 60 + m) * 60
      return (if sign = '-' then -s else s, rest)
    else none
  | [] => none

/-- Which spellings of a timestamp are read. The hour may always have a single digit. -/
structure Spelling where
  /-- Month, day, minute and second may have a single digit. -/
  short : Bool
  /-- What stands between the date and the time; a blank may be repeated. -/
  separator : Char
  zoned : Bool

def number? (short : Bool) (cs : List Char) : Option (Nat × List Char) :=
  if short then shortNumber? cs else fixedNumber? 2 cs

def date? (short : Bool) (cs : List Char) : Option (Date × List Char) := do
  let (y, cs) ← fixedNumber? 4 cs
  let cs ← literal? '-' cs
  let (m, cs) ← number? short cs
  let cs ← literal? '-' cs
  let (d, cs) ← number? short cs
  if m = 0 ∨ 12 < m ∨ d = 0 ∨ daysInMonth y m < d then none
  return (⟨y, m, d⟩, cs)

def clock? (short : Bool) (cs : List Char) : Option ((Nat × Nat) × List Char) := do
  let (h, cs) ← shortNumber? cs
  let cs ← literal? ':' cs
  let (m, cs) ← number? short cs
  let cs ← literal? ':' cs
  let (s, cs) ← number? short cs
  if 24 ≤ h ∨ 60 ≤ m ∨ 60 ≤ s then none
  let (nanos, cs) := fraction? cs
  return ((h * 3600 + m * 60 + s, nanos), cs)

def Spelling.parse? (f : Spelling) (text : String) : Option Timestamp := do
  let (d, cs) ← date? f.short text.toList
  let cs ← literal? f.separator cs
  let cs := if f.separator = ' ' then cs.dropWhile (· == ' ') else cs
  let ((seconds, nanos), cs) ← clock? f.short cs
  let (offset, cs) ← if f.zoned then offset? cs else some (0, cs)
  if cs.isEmpty then
    return ⟨dayNumber d * secondsPerDay + seconds, nanos, offset⟩
  else none

def parse? (text : String) : Option Timestamp := Spelling.parse? ⟨false, 'T', true⟩ text

def dateOnly? (short : Bool) (text : String) : Option Timestamp := do
  let (d, cs) ← date? short text.toList
  if cs.isEmpty then return ⟨dayNumber d * secondsPerDay, 0, 0⟩ else none

end Timestamp

end Synthesis
