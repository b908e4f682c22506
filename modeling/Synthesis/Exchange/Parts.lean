import Synthesis.Exchange.Reading

/-!
Reading the parts of a content key from JSON. Each part names its type; numbers that JSON could
not carry exactly are given as texts.
-/
namespace Synthesis.Exchange

def hexBytes? : List Char → Option Bytes
  | [] => some []
  | a :: b :: rest => do
    let hi ← Decimal.hexValue? a
    let lo ← Decimal.hexValue? b
    return (hi * 16 + lo).toUInt8 :: (← hexBytes? rest)
  | [_] => none

/-- A decimal integer of any size. -/
def bigInt? (s : String) : Option Int :=
  let (neg, ds) := Decimal.splitSign s.toList
  if ds.isEmpty || !ds.all Text.isAsciiDigit then none
  else
    let n : Int := Decimal.natOfDigits ds
    some (if neg then -n else n)

/-- A part whose lists and maps are nested at most so deep. -/
def partUpTo : Nat → Json → Option Key.Part
  | 0, _ => none
  | depth + 1, j => do
    let f ← fields? j
    let v := (Json.field? f "v").getD .null
    match ← str f "t", v with
    | "null", _ => return .null
    | "string", v => return .text (← text? v)
    | "bool", .null => return .bool false
    | "bool", v => return .bool (← Json.bool? v)
    | "int", v => return .int (← bigInt? (← text? v))
    | "float", v => return .float (← (Decimal.float? (← text? v)).toOption)
    | "bytes", v => return .bytes (← hexBytes? (← text? v).toList)
    | "time", v => return .time (← Timestamp.parse? (← text? v))
    | "strings", .null => return .texts none
    | "strings", v => return .texts (some (← (← Json.array? v).mapM text?))
    | "list", .null => return .list none
    | "list", v => return .list (some (← (← Json.array? v).mapM (partUpTo depth)))
    | "map", .null => return .map []
    | "map", v =>
      return .map (← (← Json.array? v).mapM fun
        | .array [k, v] => do return (← partUpTo depth k, ← partUpTo depth v)
        | _ => none)
    | "test", v => return .record "spec.TestCase" (← test? v).cbor
    | "artifact", v => return .record "spec.Artifact" (← artifact? v).cbor
    | "spec", v => return .record "spec.Specification" (← spec? v).cbor
    | "complex", _ => return .complex (← float f "re") (← float f "im")
    | _, _ => none

def part? (j : Json) : Option Key.Part := partUpTo Json.maxNesting j

end Synthesis.Exchange
