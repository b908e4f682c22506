import Synthesis.Text.Utf8
import Synthesis.Value

/-!
Deterministic CBOR. Lengths and integers take their shortest form, a double the shortest of the
three widths that keeps its value, and the entries of a map stand in the bytewise order of
their encoded keys, so equal content always has equal bytes.
-/
namespace Synthesis

abbrev Bytes := List UInt8

inductive Cbor where
  | null
  | bool (b : Bool)
  | int (i : Int)
  | float (x : Float)
  | bytes (bs : Bytes)
  | text (s : String)
  | array (items : List Cbor)
  | map (entries : List (Cbor × Cbor))
  deriving Inhabited

namespace Cbor

/-- The lowest `width` bytes of `n`, most significant first. -/
def bigEndian : Nat → Nat → Bytes
  | 0, _ => []
  | width + 1, n => bigEndian width (n / 256) ++ [UInt8.ofNat (n % 256)]

/-- The initial byte of a major type with its argument in the shortest form. -/
def head (major n : Nat) : Bytes :=
  let lead (info : Nat) : UInt8 := UInt8.ofNat (32 * major + info)
  if n < 24 then [lead n]
  else if n < Nat.pow 2 8 then lead 24 :: bigEndian 1 n
  else if n < Nat.pow 2 16 then lead 25 :: bigEndian 2 n
  else if n < Nat.pow 2 32 then lead 26 :: bigEndian 4 n
  else lead 27 :: bigEndian 8 n

/-- The bytes of a natural without leading zero bytes. -/
def magnitude (n : Nat) : Bytes := bigEndian ((n.log2 + 8) / 8) n

def encodeBytes (bs : Bytes) : Bytes := head 2 bs.length ++ bs

def utf8 (s : String) : Bytes := (Text.utf8 s).map UInt8.ofNat

def encodeText (s : String) : Bytes :=
  let bs := utf8 s
  head 3 bs.length ++ bs

/-- Integers of up to sixty-four bits and a sign have their own major types, larger ones are
tagged byte strings. -/
def encodeInt (i : Int) : Bytes :=
  let (major, n) : Nat × Nat := match i with
    | .ofNat n => (0, n)
    | .negSucc n => (1, n)
  if n < Nat.pow 2 64 then head major n else head 6 (2 + major) ++ encodeBytes (magnitude n)

/-- A binary interchange format: digits of the significand, the exponent of the last bit of the
subnormal numbers, the width of the exponent field and the size in bytes. -/
structure Width where
  precision : Nat
  least : Int
  exponentBits : Nat
  size : Nat
  initial : UInt8

def half : Width := ⟨11, -24, 5, 2, 0xF9⟩

def single : Width := ⟨24, -149, 8, 4, 0xFA⟩

def double : Width := ⟨53, -1074, 11, 8, 0xFB⟩

/-- `m · 2 ^ e` with an odd `m`. -/
def oddPart : Nat → Nat → Int → Nat × Int
  | 0, m, e => (m, e)
  | fuel + 1, m, e => if m % 2 = 0 ∧ m ≠ 0 then oddPart fuel (m / 2) (e + 1) else (m, e)

def bitLength (m : Nat) : Nat := if m = 0 then 0 else m.log2 + 1

/-- `m · 2 ^ e`, with `m` odd, has an exact form of that width. -/
def Width.fits (w : Width) (m : Nat) (e : Int) : Bool :=
  bitLength m ≤ w.precision && w.least ≤ e
    && (bitLength m : Int) + e ≤ Nat.pow 2 (w.exponentBits - 1)

def Width.encode (w : Width) (neg : Bool) (m : Nat) (e : Int) : Bytes :=
  let fractionBits := w.precision - 1
  -- In units of the last bit of the subnormal numbers, or shifted to full precision.
  let length : Int := bitLength m + e
  let shift := length - w.least - w.precision
  let (field, fraction) : Nat × Nat :=
    if m ≠ 0 ∧ 0 ≤ shift then
      (shift.toNat + 1, m * Nat.pow 2 (w.precision - bitLength m) % Nat.pow 2 fractionBits)
    else
      let units := m * Nat.pow 2 (e - w.least).toNat
      if units < Nat.pow 2 fractionBits then (0, units)
      else (1, units - Nat.pow 2 fractionBits)
  let sign := if neg then Nat.pow 2 (8 * w.size - 1) else 0
  w.initial :: bigEndian w.size (sign + field * Nat.pow 2 fractionBits + fraction)

def encodeFloat (x : Float) : Bytes :=
  match Decimal.read x with
  | .nan => [0xF9, 0x7E, 0x00]
  | .infinite false => [0xF9, 0x7C, 0x00]
  | .infinite true => [0xF9, 0xFC, 0x00]
  | .finite neg m e =>
    let (m, e) := if m = 0 then (0, 0) else oddPart 60 m e
    let w := if half.fits m e then half else if single.fits m e then single else double
    w.encode neg m e

def bytesLe : Bytes → Bytes → Bool
  | [], _ => true
  | _ :: _, [] => false
  | a :: as, b :: bs => a.toNat < b.toNat || (a.toNat == b.toNat && bytesLe as bs)

/-- Encoded entries in the order of their encoded keys. -/
def sortEntries (entries : List (Bytes × Bytes)) : List (Bytes × Bytes) :=
  entries.mergeSort fun a b => bytesLe a.1 b.1

mutual

def encode : Cbor → Bytes
  | .null => [0xF6]
  | .bool b => [if b then 0xF5 else 0xF4]
  | .int i => encodeInt i
  | .float x => encodeFloat x
  | .bytes bs => encodeBytes bs
  | .text s => encodeText s
  | .array items => head 4 items.length ++ (encodeItems items).flatten
  | .map entries =>
    head 5 entries.length
      ++ (sortEntries (encodeEntries entries)).flatMap fun (k, v) => k ++ v

def encodeItems : List Cbor → List Bytes
  | [] => []
  | c :: cs => encode c :: encodeItems cs

def encodeEntries : List (Cbor × Cbor) → List (Bytes × Bytes)
  | [] => []
  | (k, v) :: rest => (encode k, encode v) :: encodeEntries rest

end

def texts (xs : List String) : Cbor := .array (xs.map .text)

/-- A list that may be absent: absence is null. -/
def optional (xs : Option (List Cbor)) : Cbor :=
  match xs with
  | none => .null
  | some xs => .array xs

/-- A map of named fields. -/
def fields (fs : List (String × Cbor)) : Cbor := .map (fs.map fun (k, v) => (.text k, v))

mutual

def ofValue : Value → Cbor
  | .null => .null
  | .bool b => .bool b
  | .int i => .int i
  | .float x => .float x
  | .text s => .text s
  | .time t => if t.isZero then .null else .text t.render
  | .list items => .array (ofValues items)
  | .map entries => .map (ofEntries entries)

def ofValues : List Value → List Cbor
  | [] => []
  | v :: vs => ofValue v :: ofValues vs

def ofEntries : List (Value × Value) → List (Cbor × Cbor)
  | [] => []
  | (k, v) :: rest => (ofValue k, ofValue v) :: ofEntries rest

end

end Cbor

end Synthesis
