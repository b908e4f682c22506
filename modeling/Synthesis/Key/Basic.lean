import Synthesis.Key.Sha256
import Synthesis.Text.Quoted

/-!
Content keys. The parts of a key are encoded as one deterministic array, and the first sixteen
hexadecimal digits of the array's digest are the key: what a value is decides its key, not where
it is stored. A part without an encoding turns the whole key to a descriptive rendering of its
parts, so every list of parts has a key.
-/
namespace Synthesis.Key

open Synthesis.Decimal

/-- Bytes as lower-case hexadecimal digits. -/
def hex (bs : Bytes) : String :=
  String.ofList (bs.flatMap fun b => Text.hexText 2 b.toNat)

def keyLength : Nat := 16

def ofBytes (bs : Bytes) : String :=
  String.ofList ((hex (Sha256.digest bs)).toList.take keyLength)

/-- The bytes that identify a list of parts. -/
def encoding (parts : List Cbor) : Bytes := (Cbor.array parts).encode

def ofParts (parts : List Cbor) : String := ofBytes (encoding parts)

/-- A part as its type and content, complex numbers included, which have no encoding. -/
inductive Part where
  | null
  | text (s : String)
  | bool (b : Bool)
  | int (i : Int)
  | float (x : Float)
  | bytes (bs : Bytes)
  | time (t : Timestamp)
  | texts (xs : Option (List String))
  | list (items : Option (List Part))
  | map (entries : List (Part × Part))
  | complex (re im : Float)
  /-- A record of the library, already encoded, and the name of its type. -/
  | record (type : String) (content : Cbor)
  deriving Inhabited

namespace Part

mutual

def cbor? : Part → Option Cbor
  | .null => some .null
  | .text s => some (.text s)
  | .bool b => some (.bool b)
  | .int i => some (.int i)
  | .float x => some (.float x)
  | .bytes bs => some (.bytes bs)
  | .time t => some (if t.isZero then .null else .text t.render)
  | .texts none => some .null
  | .texts (some xs) => some (Cbor.texts xs)
  | .list none => some .null
  | .list (some items) => (items? items).map .array
  | .map entries => (entries? entries).map .map
  | .complex _ _ => none
  | .record _ content => some content

def items? : List Part → Option (List Cbor)
  | [] => some []
  | p :: ps => match cbor? p, items? ps with
    | some c, some cs => some (c :: cs)
    | _, _ => none

def entries? : List (Part × Part) → Option (List (Cbor × Cbor))
  | [] => some []
  | (k, v) :: rest => match cbor? k, cbor? v, entries? rest with
    | some k, some v, some rest => some ((k, v) :: rest)
    | _, _, _ => none

end

def typeName : Part → String
  | .null => "%!s(<nil>)"
  | .text _ => "string"
  | .bool _ => "bool"
  | .int i =>
    if fitsInt64 i then "int64"
    else if 0 ≤ i ∧ i.toNat < Nat.pow 2 64 then "uint64"
    else "*big.Int"
  | .float _ => "float64"
  | .bytes _ => "[]uint8"
  | .time _ => "time.Time"
  | .texts _ => "[]string"
  | .list _ => "[]interface \x7b\x7d"
  | .map _ => "map[interface \x7b\x7d]interface \x7b\x7d"
  | .complex _ _ => "complex128"
  | .record type _ => type

def braces (items : List String) : String := "\x7b" ++ Text.join ", " items ++ "\x7d"

/-- The imaginary part always shows its sign. -/
def signedText (x : Float) : String :=
  let s := Value.floatText x
  if Text.startsWith s "-" || Text.startsWith s "+" then s else "+" ++ s

def trimHex (n : Nat) : String := "0x" ++ String.ofList (Nat.toDigits 16 n)

/-- A number in the order of the doubles; both zeros have one place, and NaN the first. -/
def floatPlace (x : Float) : Nat :=
  let bits := x.toBits.toNat
  if x.isNaN then 0
  else if bits < Nat.pow 2 63 then Nat.pow 2 63 + bits
  else Nat.pow 2 64 - bits

/-- The place of a key in the rendering of a map: keys of one type stand by value. -/
def place : Part → List Nat
  | .null => [0]
  | .bool b => [1, b.toNat]
  | .int i => if fitsInt64 i then [2, (i + Nat.pow 2 63).toNat] else [3, i.toNat]
  | .float x => [4, floatPlace x]
  | .text s => 5 :: Text.utf8 s
  | .complex re im => [6, floatPlace re, floatPlace im]
  | _ => [7]

/-- A rendered entry of a map, with the encoding and the place of its key. -/
structure Rendered where
  code : Bytes
  place : List Nat
  text : String

/-- By place, and where that does not decide by encoding. -/
def Rendered.inOrder (entries : List Rendered) : List Rendered :=
  (entries.mergeSort fun a b => Cbor.bytesLe a.code b.code).mergeSort fun a b =>
    lexLe id a.place b.place

/-- Inside a list or a map an absent item shows its type, and bytes are a list of numbers. -/
def inside (p : Part) (text : String) : String :=
  match p with
  | .null => "interface \x7b\x7d(nil)"
  | .bytes bs => "[]uint8" ++ braces (bs.map fun b => trimHex b.toNat)
  | _ => text

mutual

def describe : Part → String
  | .null => "<nil>"
  | .text s => Text.quote s
  | .bool b => if b then "true" else "false"
  | .int i => if fitsInt64 i ∨ i < 0 ∨ Nat.pow 2 64 ≤ i then intText i else trimHex i.toNat
  | .float x => Value.floatText x
  | .bytes bs => "[]byte" ++ braces (bs.map fun b => trimHex b.toNat)
  | .time t => t.describe
  | .texts none => "[]string(nil)"
  | .texts (some xs) => "[]string" ++ braces (xs.map Text.quote)
  | .list none => "[]interface \x7b\x7d(nil)"
  | .list (some items) => "[]interface \x7b\x7d" ++ braces (describeItems items)
  | .map entries =>
    "map[interface \x7b\x7d]interface \x7b\x7d"
      ++ braces ((Rendered.inOrder (describeEntries entries)).map (·.text))
  | .complex re im => "(" ++ Value.floatText re ++ signedText im ++ "i)"
  | .record type _ => type ++ braces []

def describeItems : List Part → List String
  | [] => []
  | p :: ps => inside p (describe p) :: describeItems ps

def describeEntries : List (Part × Part) → List Rendered
  | [] => []
  | (k, v) :: rest =>
    ⟨(k.cbor?.map Cbor.encode).getD [], k.place,
      inside k (describe k) ++ ":" ++ inside v (describe v)⟩ :: describeEntries rest

end

end Part

/-- The bytes of a list of parts: their encoding, or else their rendering. -/
def bytesOf (parts : List Part) : Bytes :=
  match Part.items? parts with
  | some cs => encoding cs
  | none => Cbor.utf8 (String.join (parts.map fun p => p.typeName ++ ":" ++ p.describe ++ "|"))

def ofAnyParts (parts : List Part) : String := ofBytes (bytesOf parts)

end Synthesis.Key
