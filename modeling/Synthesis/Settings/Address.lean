import Synthesis.Text.Cut
import Synthesis.Text.AsciiCase
import Synthesis.Decimal.Literal

/-!
Web addresses: a scheme, and then an authority with a path, or an opaque part; a query and a
fragment may follow. An address is complete when it says more than its scheme and a path, and for
a file when it has a path.
-/
namespace Synthesis

structure Address where
  scheme : List Char
  opaquePart : List Char := []
  host : List Char := []
  path : List Char := []
  fragment : List Char := []

namespace Address

open Synthesis.Text

def isControl (c : Char) : Bool := c.toNat < 0x20 || c.toNat == 0x7F

def isSchemeChar (c : Char) : Bool :=
  isAsciiLetter c || isAsciiDigit c || c == '+' || c == '-' || c == '.'

/-- The scheme, which starts with a letter, and what follows its colon. -/
def scheme? (cs : List Char) : Option (List Char × List Char) :=
  match cs.dropWhile isSchemeChar with
  | ':' :: rest =>
    if cs.head?.any isAsciiLetter then some (cs.takeWhile isSchemeChar, rest) else none
  | _ => none

/-- Every percent sign has two hexadecimal digits behind it, whose value is allowed. -/
def escapesOk (allowed : Nat → Bool) : List Char → Bool
  | [] => true
  | '%' :: a :: b :: rest =>
    Decimal.isHexDigit a && Decimal.isHexDigit b && allowed (Decimal.natOfHex [a, b])
      && escapesOk allowed rest
  | '%' :: _ => false
  | _ :: rest => escapesOk allowed rest

/-- Characters of a host that stand for themselves. -/
def isPlainHostChar (c : Char) : Bool :=
  isAsciiLetter c || isAsciiDigit c || "-_.~!$&'()*+,;=:[]<>\"".toList.contains c

def isHostChar (c : Char) : Bool := 0x80 ≤ c.toNat || isPlainHostChar c || c == '%'

/-- In a host, escapes stand for bytes outside ASCII or for a percent sign. -/
def hostTextOk (cs : List Char) : Bool :=
  cs.all isHostChar && escapesOk (fun n => 0x80 ≤ n || n == '%'.toNat) cs

/-- In a zone, escapes stand for characters of a host, a blank or a percent sign. -/
def zoneOk (cs : List Char) : Bool :=
  cs.all isHostChar
    && escapesOk (fun n => n == '%'.toNat || n == ' '.toNat || isPlainHostChar (Char.ofNat n)) cs

def isUserChar (c : Char) : Bool :=
  isAsciiLetter c || isAsciiDigit c || "-._:~!$&'()*+,;=%@".toList.contains c

/-- Nothing, or a colon and digits. -/
def portOk : List Char → Bool
  | [] => true
  | ':' :: ds => ds.all isAsciiDigit
  | _ => false

/-- What precedes the last occurrence of a character, and what follows it. -/
def cutLastAt (sep : Char) (cs : List Char) : Option (List Char × List Char) :=
  (cutAt sep cs.reverse).map fun (after, before) => (before.reverse, after.reverse)

/-- What precedes the first occurrence of a piece, and the text from there on. -/
def cutBefore (piece : List Char) : List Char → Option (List Char × List Char)
  | [] => none
  | c :: cs =>
    if piece.isPrefixOf (c :: cs) then some ([], c :: cs)
    else (cutBefore piece cs).map fun (a, b) => (c :: a, b)

/-- A number up to 255 without a superfluous zero. -/
def isOctet (ds : List Char) : Bool :=
  !ds.isEmpty && ds.all isAsciiDigit && (ds.length == 1 || ds.head? != some '0')
    && Decimal.natOfDigits ds ≤ 255

def isDottedQuad (cs : List Char) : Bool :=
  let parts := splitAt '.' cs
  parts.length == 4 && parts.all isOctet

/-- One to four hexadecimal digits. -/
def isGroup (cs : List Char) : Bool :=
  !cs.isEmpty && cs.length ≤ 4 && cs.all Decimal.isHexDigit

/-- The number of groups between colons, where a dotted quad counts twice and may only come
last, if it may come at all. -/
def groups? (quad : Bool) (cs : List Char) : Option Nat :=
  if cs.isEmpty then some 0
  else
    let parts := splitAt ':' cs
    match parts.getLast? with
    | none => none
    | some last =>
      if !parts.dropLast.all isGroup then none
      else if isGroup last then some parts.length
      else if quad && isDottedQuad last then some (parts.length + 1)
      else none

/-- An internet address of the sixth version: eight groups, or fewer with a double colon for the
missing ones. -/
def isInternetAddress (cs : List Char) : Bool :=
  match cutBefore [':', ':'] cs with
  | none => groups? true cs == some 8
  | some (front, back) =>
    match groups? false front, groups? true (back.drop 2) with
    | some m, some n => m + n < 8
    | _, _ => false

/-- An internet address, and a zone behind an escaped percent sign if there is one. -/
def bracketedOk (cs : List Char) : Bool :=
  match cutBefore "%25".toList cs with
  | none => isInternetAddress cs
  | some (address, zone) => isInternetAddress address && 3 < zone.length && zoneOk zone

def hostOk (cs : List Char) : Bool :=
  match cs with
  | '[' :: rest =>
    match cutLastAt ']' rest with
    | none => false
    | some (inside, port) => portOk port && bracketedOk inside
  | _ =>
    !cs.contains '[' && hostTextOk cs
      && match cutLastAt ':' cs with
        | none => true
        | some (_, port) => port.all isAsciiDigit

/-- The host of an authority, if the authority is well formed. -/
def host? (authority : List Char) : Option (List Char) :=
  let (user, host) := (cutLastAt '@' authority).getD ([], authority)
  if hostOk host && user.all isUserChar && escapesOk (fun _ => true) user then some host else none

/-- The address without its fragment. The query may be anything. -/
def body? (cs : List Char) : Option Address := do
  if cs.any isControl then none
  let (scheme, rest) ← scheme? cs
  match rest.takeWhile (· != '?') with
  | '/' :: '/' :: more =>
    let host ← host? (more.takeWhile (· != '/'))
    let path := more.dropWhile (· != '/')
    if escapesOk (fun _ => true) path then return { scheme, host, path } else none
  | '/' :: more =>
    let path := '/' :: more
    if escapesOk (fun _ => true) path then return { scheme, path } else none
  | rest => return { scheme, opaquePart := rest }

def parse? (cs : List Char) : Option Address := do
  let a ← body? (cs.takeWhile (· != '#'))
  let fragment := (cs.dropWhile (· != '#')).drop 1
  if escapesOk (fun _ => true) fragment then return { a with fragment } else none

def isComplete (a : Address) : Bool :=
  if a.scheme == "file".toList then 1 < a.path.length
  else !(a.host.isEmpty && a.fragment.isEmpty && a.opaquePart.isEmpty)

def isAddress (text : String) : Bool := (parse? (lower text).toList).any isComplete

end Address

end Synthesis
