import Synthesis.Text.Utf8
import Synthesis.Value

/-!
What a scalar means. A plain scalar is null, a truth value, a number, a timestamp or else a text;
a tag asks for one of these. Integers may be binary, octal or hexadecimal, a leading zero alone
marks an octal one, and underscores between digits do not count.
-/
namespace Synthesis.Yaml

namespace Tag

def text : String := "!!str"
def null : String := "!!null"
def bool : String := "!!bool"
def int : String := "!!int"
def float : String := "!!float"
def timestamp : String := "!!timestamp"
def binary : String := "!!binary"
def merge : String := "!!merge"
def sequence : String := "!!seq"
def mapping : String := "!!map"

end Tag

/-- The key whose value holds further entries of a mapping. -/
def mergeKey : String := "<<"

def fixed? (text : String) : Option (String × Value) :=
  if ["", "~", "null", "Null", "NULL"].contains text then some (Tag.null, .null)
  else if ["true", "True", "TRUE"].contains text then some (Tag.bool, .bool true)
  else if ["false", "False", "FALSE"].contains text then some (Tag.bool, .bool false)
  else if [".nan", ".NaN", ".NAN"].contains text then some (Tag.float, .float (0.0 / 0.0))
  else if [".inf", ".Inf", ".INF", "+.inf", "+.Inf", "+.INF"].contains text then
    some (Tag.float, .float (1.0 / 0.0))
  else if ["-.inf", "-.Inf", "-.INF"].contains text then some (Tag.float, .float (-1.0 / 0.0))
  else if text = mergeKey then some (Tag.merge, .text mergeKey)
  else none

/-- Digits of a base up to sixteen. -/
def natOfBase? (base : Nat) (cs : List Char) : Option Nat :=
  cs.foldlM (fun n c =>
    match Decimal.hexValue? c with
    | some d => if d < base then some (base * n + d) else none
    | none => none) 0

/-- The base that the first characters of an unsigned integer tell, and the digits behind
them. -/
def splitBase : List Char → Nat × List Char
  | '0' :: x :: d :: rest =>
    if x = 'x' ∨ x = 'X' then (16, d :: rest)
    else if x = 'o' ∨ x = 'O' then (8, d :: rest)
    else if x = 'b' ∨ x = 'B' then (2, d :: rest)
    else (8, x :: d :: rest)
  | '0' :: rest => (8, rest)
  | cs => (10, cs)

/-- An integer in the signed range, or without a sign in the unsigned range of sixty-four
bits. -/
def inRange? (signed negative : Bool) (n : Nat) : Option Int :=
  let i : Int := if negative then -(n : Int) else n
  if Decimal.fitsInt64 i then some i else if !signed && n < Nat.pow 2 64 then some i else none

def hasSign (cs : List Char) : Bool := cs.head? = some '-' || cs.head? = some '+'

/-- An integer literal whose base its first characters tell. -/
def integer? (cs : List Char) : Option Int := do
  let (negative, body) := Decimal.splitSign cs
  if body.isEmpty then none
  let (base, digits) := splitBase body
  let n ← natOfBase? base digits
  inRange? (hasSign cs) negative n

/-- Digits of a given base, where a sign may stand behind the mark of the base. -/
def baseInteger? (base : Nat) (cs : List Char) : Option Int := do
  let (negative, digits) := Decimal.splitSign cs
  if digits.isEmpty then none
  let n ← natOfBase? base digits
  inRange? (hasSign cs) negative n

/-- A binary or octal integer with a sign behind its mark. -/
def markedInteger? : List Char → Option Int
  | '0' :: 'b' :: rest => baseInteger? 2 rest
  | '0' :: 'o' :: rest => baseInteger? 8 rest
  | '-' :: '0' :: 'b' :: rest => baseInteger? 2 ('-' :: rest)
  | '-' :: '0' :: 'o' :: rest => baseInteger? 8 ('-' :: rest)
  | _ => none

/-- A decimal literal with at least one digit, where digits may be missing on one side of the
point. -/
def decimal? (cs : List Char) : Option Float :=
  match Decimal.parts? Text.isAsciiDigit ['e', 'E'] (Decimal.splitSign cs).2,
      Decimal.float? (String.ofList cs) with
  | some _, .ok x => some x
  | _, _ => none

/-- A date, or a date and a time. -/
def timestamp? (text : String) : Option Timestamp :=
  let zoned := fun separator => Timestamp.Spelling.parse? ⟨true, separator, true⟩ text
  let local? := Timestamp.Spelling.parse? ⟨true, ' ', false⟩ text
  zoned 'T' <|> zoned 't' <|> local? <|> Timestamp.dateOnly? true text

def number? (text : String) : Option (String × Value) :=
  let cs := text.toList.filter (· != '_')
  ((integer? cs).map fun i => (Tag.int, .int i))
    <|> ((decimal? cs).map fun x => (Tag.float, .float x))
    <|> ((markedInteger? cs).map fun i => (Tag.int, .int i))

/-- The meaning of a text under a tag, which may be empty; the first character decides what it
can be. -/
def meaning (tag text : String) : String × Value :=
  if tag = Tag.text ∨ tag = Tag.binary then (Tag.text, .text text)
  else
    let found := match text.toList with
      | [] => fixed? text
      | c :: _ =>
        if c = '.' then fixed? text <|> (match Decimal.float? text with
          | .ok x => some (Tag.float, Value.float x)
          | .error _ => none)
        else if Text.isAsciiDigit c || c == '+' || c == '-' then
          let time? := if tag = "" ∨ tag = Tag.timestamp then timestamp? text else none
          fixed? text <|> (time?.map fun t => (Tag.timestamp, Value.time t)) <|> number? text
        else if "yYnNtTfFoO~<".toList.contains c then fixed? text
        else none
    found.getD (Tag.text, .text text)

def base64Value? (c : Char) : Option Nat :=
  if 'A' ≤ c ∧ c ≤ 'Z' then some (c.toNat - 'A'.toNat)
  else if 'a' ≤ c ∧ c ≤ 'z' then some (c.toNat - 'a'.toNat + 26)
  else if Text.isAsciiDigit c then some (c.toNat - '0'.toNat + 52)
  else if c = '+' then some 62
  else if c = '/' then some 63
  else none

/-- The bytes of base 64 digits, four to three bytes, the last group padded. -/
def base64? : List Char → Option (List Nat)
  | [] => some []
  | [a, b, '=', '='] => do
    let n := 64 * (← base64Value? a) + (← base64Value? b)
    return [n / 16]
  | [a, b, c, '='] => do
    let n := (64 * (← base64Value? a) + (← base64Value? b)) * 64 + (← base64Value? c)
    return [n / 1024, n / 4 % 256]
  | a :: b :: c :: d :: rest => do
    let n := ((64 * (← base64Value? a) + (← base64Value? b)) * 64 + (← base64Value? c)) * 64
      + (← base64Value? d)
    return n / 65536 :: n / 256 % 256 :: n % 256 :: (← base64? rest)
  | _ => none

/-- The tags that ask for a scalar of some kind. -/
def scalarTags : List String :=
  ["", Tag.text, Tag.bool, Tag.int, Tag.float, Tag.null, Tag.timestamp]

/-- The value of a scalar with its tag; nothing when the text does not fit the tag. An integer
is also a number of the other kind, and a tag of another kind leaves the text as it is. -/
def scalar? (tag text : String) : Option Value :=
  if tag = Tag.binary then
    (base64? (text.toList.filter fun c => c != '\n' && c != '\r')).map (.text <| Text.ofUtf8 ·)
  else if !scalarTags.contains tag then some (.text text)
  else
    let (found, v) := meaning tag text
    if tag = "" ∨ tag = found ∨ tag = Tag.text then some v
    else match v with
      | .int i =>
        if tag = Tag.float ∧ Decimal.fitsInt64 i then some (.float (Float.ofInt i)) else none
      | _ => none

end Synthesis.Yaml
