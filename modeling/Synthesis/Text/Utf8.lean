/-!
Texts and their UTF-8 bytes. A byte that is no part of an encoded character is kept as a private
character of its own, which is written as that byte again, so that no byte is lost. The private
characters themselves are kept as their four bytes, so every sequence of bytes has a text of its
own.
-/
namespace Synthesis.Text

/-- The private character that stands for a byte is this far above it. -/
def strayBase : Nat := 0x10F700

def strayByte (b : Nat) : Char := Char.ofNat (strayBase + b)

def strayByte? (c : Char) : Option Nat :=
  if strayBase + 0x80 ≤ c.toNat ∧ c.toNat ≤ strayBase + 0xFF then some (c.toNat - strayBase)
  else none

def charBytes (c : Char) : List Nat :=
  let n := c.toNat
  if n < 0x80 then [n]
  else if n < 0x800 then [0xC0 + n / 64, 0x80 + n % 64]
  else if n < 0x10000 then [0xE0 + n / 4096, 0x80 + n / 64 % 64, 0x80 + n % 64]
  else match strayByte? c with
    | some b => [b]
    | none => [0xF0 + n / 262144, 0x80 + n / 4096 % 64, 0x80 + n / 64 % 64, 0x80 + n % 64]

def utf8 (s : String) : List Nat := s.toList.flatMap charBytes

def isContinuation (b : Nat) : Bool := 0x80 ≤ b && b < 0xC0

/-- The character at the start of the bytes and how many bytes it takes; none when they are not
the shortest encoding of a character. -/
def decodeAny? : List Nat → Option (Char × Nat)
  | [] => none
  | b :: rest =>
    if b < 0x80 then some (Char.ofNat b, 1)
    else
      let size := if b < 0xC0 then 0 else if b < 0xE0 then 1 else if b < 0xF0 then 2
        else if b < 0xF8 then 3 else 0
      let tail := rest.take size
      if size = 0 ∨ tail.length ≠ size ∨ !tail.all isContinuation then none
      else
        let lead := b % Nat.pow 2 (6 - size)
        let n := tail.foldl (fun n b => 64 * n + b % 64) lead
        let least := if size = 1 then 0x80 else if size = 2 then 0x800 else 0x10000
        if n < least ∨ 0x10FFFF < n ∨ (0xD800 ≤ n ∧ n ≤ 0xDFFF) then none
        else some (Char.ofNat n, size + 1)

/-- The character at the start of the bytes, unless it is one that stands for a stray byte. -/
def decodeChar? (bs : List Nat) : Option (Char × Nat) :=
  (decodeAny? bs).filter fun x => (strayByte? x.1).isNone

def decodeFrom : Nat → List Nat → List Char
  | 0, _ => []
  | _, [] => []
  | fuel + 1, bs =>
    match decodeChar? bs with
    | some (c, n) => c :: decodeFrom fuel (bs.drop n)
    | none => strayByte (bs.headD 0) :: decodeFrom fuel (bs.drop 1)

def ofUtf8 (bs : List Nat) : String := String.ofList (decodeFrom bs.length bs)

/-- The bytes as which a text leaves the program. -/
def bytes (s : String) : ByteArray := ⟨((utf8 s).map Nat.toUInt8).toArray⟩

def ofBytes (bs : ByteArray) : String := ofUtf8 (bs.data.toList.map UInt8.toNat)

/-- The text of the first `n` bytes. -/
def takeBytes (n : Nat) (s : String) : String := ofUtf8 ((utf8 s).take n)

/-- A private character as its four bytes, and any other as it is. -/
def keepChar (c : Char) : List Char :=
  if (strayByte? c).isSome then
    [0xF4, 0x8F, 0x80 + c.toNat / 64 % 64, 0x80 + c.toNat % 64].map strayByte
  else [c]

/-- The text of characters from outside, among which private ones stand for themselves. -/
def ofOutside (s : String) : String := String.ofList (s.toList.flatMap keepChar)

/-- The private character that is kept as the four bytes in front. -/
def keptChar? (cs : List Char) : Option Char :=
  match (cs.take 4).mapM strayByte? with
  | some bs => (decodeAny? bs).bind fun x => if (strayByte? x.1).isSome then some x.1 else none
  | none => none

end Synthesis.Text
