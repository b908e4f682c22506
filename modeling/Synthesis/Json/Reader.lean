import Synthesis.Json.Basic
import Synthesis.Text.Utf8

/-!
Reading JSON text. Every read function returns what it read and the text that follows. Nesting
is limited, as the format's readers do; the fuel of the mutual functions is the length of the
text, which bounds the number of values in it.
-/
namespace Synthesis.Json

open Synthesis.Text

def isSpace (c : Char) : Bool := c == ' ' || c == '\t' || c == '\n' || c == '\r'

def skipSpace (cs : List Char) : List Char := cs.dropWhile isSpace

def maxNesting : Nat := 10000

/-- Four hexadecimal digits. -/
def hexUnit? : List Char → Option (Nat × List Char)
  | a :: b :: c :: d :: rest =>
    if [a, b, c, d].all Decimal.isHexDigit then some (Decimal.natOfHex [a, b, c, d], rest)
    else none
  | _ => none

def isHighSurrogate (n : Nat) : Bool := 0xD800 ≤ n && n < 0xDC00

def isLowSurrogate (n : Nat) : Bool := 0xDC00 ≤ n && n < 0xE000

def replacement : Char := Char.ofNat 0xFFFD

/-- The character of an escaped unit and, for a surrogate pair, of the unit after it. A
surrogate on its own becomes the replacement character. -/
def escapedUnit (unit : Nat) (rest : List Char) : Char × List Char :=
  if isHighSurrogate unit then
    match rest with
    | '\\' :: 'u' :: r =>
      match hexUnit? r with
      | some (second, r) =>
        if isLowSurrogate second then
          (Char.ofNat (0x10000 + (unit - 0xD800) * 0x400 + (second - 0xDC00)), r)
        else (replacement, rest)
      | none => (replacement, rest)
    | _ => (replacement, rest)
  else if isLowSurrogate unit then (replacement, rest)
  else (Char.ofNat unit, rest)

def simpleEscape? : Char → Option Char
  | '"' => some '"'
  | '\\' => some '\\'
  | '/' => some '/'
  | 'b' => some '\x08'
  | 'f' => some '\x0c'
  | 'n' => some '\n'
  | 'r' => some '\r'
  | 't' => some '\t'
  | _ => none

/-- The text of a character that stands for itself, and what follows it. A stray byte becomes the
replacement character, and a private character that is kept as its bytes stays. -/
def plainChar (c : Char) (rest : List Char) : List Char × List Char :=
  match keptChar? (c :: rest) with
  | some p => (keepChar p, rest.drop 3)
  | none => ([if (strayByte? c).isSome then replacement else c], rest)

/-- The rest of a string after its opening quote; `acc` holds the characters read, last first. -/
def readString : Nat → List Char → List Char → Option (String × List Char)
  | 0, _, _ => none
  | n + 1, acc, cs =>
    match cs with
    | [] => none
    | '"' :: rest => some (String.ofList acc.reverse, rest)
    | '\\' :: 'u' :: rest =>
      match hexUnit? rest with
      | some (unit, rest) =>
        let (c, rest) := escapedUnit unit rest
        readString n ((keepChar c).reverse ++ acc) rest
      | none => none
    | '\\' :: e :: rest =>
      match simpleEscape? e with
      | some c => readString n (c :: acc) rest
      | none => none
    | c :: rest =>
      if c.toNat < 0x20 ∨ c = '\\' then none
      else
        let (cs, rest) := plainChar c rest
        readString n (cs.reverse ++ acc) rest

/-- The text that the literal of a string stands for. -/
def literalText? (literal : String) : Option String :=
  let cs := literal.toList
  (readString (cs.length + 2) [] (cs ++ ['"'])).map (·.1)

/-- An integer part without a superfluous leading zero. -/
def readWhole : List Char → Option (List Char × List Char)
  | '0' :: rest => some (['0'], rest)
  | cs =>
    let ds := cs.takeWhile isAsciiDigit
    if ds.isEmpty then none else some (ds, cs.dropWhile isAsciiDigit)

def readFraction : List Char → Option (List Char × List Char)
  | '.' :: rest =>
    let ds := rest.takeWhile isAsciiDigit
    if ds.isEmpty then none else some ('.' :: ds, rest.dropWhile isAsciiDigit)
  | cs => some ([], cs)

def readExponent : List Char → Option (List Char × List Char)
  | e :: rest =>
    if e = 'e' ∨ e = 'E' then
      let (sign, rest) := match rest with
        | '+' :: r => (['+'], r)
        | '-' :: r => (['-'], r)
        | r => ([], r)
      let ds := rest.takeWhile isAsciiDigit
      if ds.isEmpty then none else some (e :: sign ++ ds, rest.dropWhile isAsciiDigit)
    else some ([], e :: rest)
  | [] => some ([], [])

def readNumber (cs : List Char) : Option (String × List Char) := do
  let (sign, rest) := match cs with
    | '-' :: r => (['-'], r)
    | r => ([], r)
  let (whole, rest) ← readWhole rest
  let (fraction, rest) ← readFraction rest
  let (exponent, rest) ← readExponent rest
  return (String.ofList (sign ++ whole ++ fraction ++ exponent), rest)

mutual

/-- A value and what follows it; the text starts at the value. -/
def readValue : Nat → Nat → List Char → Option (Json × List Char)
  | 0, _, _ => none
  | n + 1, depth, cs =>
    match cs with
    | 'n' :: 'u' :: 'l' :: 'l' :: rest => some (.null, rest)
    | 't' :: 'r' :: 'u' :: 'e' :: rest => some (.bool true, rest)
    | 'f' :: 'a' :: 'l' :: 's' :: 'e' :: rest => some (.bool false, rest)
    | '"' :: rest => (readString (rest.length + 1) [] rest).map fun (_, r) =>
      (.string (String.ofList (rest.take (rest.length - r.length - 1))), r)
    | '[' :: rest =>
      if maxNesting ≤ depth then none
      else match skipSpace rest with
        | ']' :: r => some (.array [], r)
        | r => (readItems n (depth + 1) r).map fun (xs, r) => (.array xs, r)
    | '{' :: rest =>
      if maxNesting ≤ depth then none
      else match skipSpace rest with
        | '}' :: r => some (.object [], r)
        | r => (readMembers n (depth + 1) r).map fun (ms, r) => (.object ms, r)
    | cs => (readNumber cs).map fun (s, r) => (.number s, r)

/-- The items of an array up to its closing bracket. -/
def readItems : Nat → Nat → List Char → Option (List Json × List Char)
  | 0, _, _ => none
  | n + 1, depth, cs =>
    match readValue n depth cs with
    | none => none
    | some (v, rest) =>
      match skipSpace rest with
      | ']' :: r => some ([v], r)
      | ',' :: r => (readItems n depth (skipSpace r)).map fun (vs, r) => (v :: vs, r)
      | _ => none

/-- The members of an object up to its closing brace. -/
def readMembers : Nat → Nat → List Char → Option (List (String × Json) × List Char)
  | 0, _, _ => none
  | n + 1, depth, cs =>
    match cs with
    | '"' :: rest =>
      match readString (rest.length + 1) [] rest with
      | none => none
      | some (name, rest) =>
        match skipSpace rest with
        | ':' :: rest =>
          match readValue n depth (skipSpace rest) with
          | none => none
          | some (v, rest) =>
            match skipSpace rest with
            | '}' :: r => some ([(name, v)], r)
            | ',' :: r =>
              (readMembers n depth (skipSpace r)).map fun (ms, r) => ((name, v) :: ms, r)
            | _ => none
        | _ => none
    | _ => none

end

/-- The value a whole text stands for. -/
def parse? (text : String) : Option Json :=
  let cs := skipSpace text.toList
  match readValue (2 * cs.length + 2) 0 cs with
  | some (v, rest) => if (skipSpace rest).isEmpty then some v else none
  | none => none

end Synthesis.Json
