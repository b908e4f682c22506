import Synthesis.Text.Printable
import Synthesis.Text.Utf8

/-!
Quoted text. Between double quotes, the quote and the backslash are escaped, printable
characters stand for themselves, and all others are written as short, two, four or eight digit
escapes; a stray byte has two digits.
-/
namespace Synthesis.Text

/-- The lowest `width` hexadecimal digits of `n`. -/
def hexText : Nat → Nat → List Char
  | 0, _ => []
  | width + 1, n => hexText width (n / 16) ++ [Nat.digitChar (n % 16)]

def shortEscape? (c : Char) : Option Char :=
  match c.toNat with
  | 7 => some 'a'
  | 8 => some 'b'
  | 12 => some 'f'
  | 10 => some 'n'
  | 13 => some 'r'
  | 9 => some 't'
  | 11 => some 'v'
  | _ => none

def quoteChar (c : Char) : List Char :=
  if c = '"' ∨ c = '\\' then ['\\', c]
  else if isPrintable c then [c]
  else match shortEscape? c with
    | some e => ['\\', e]
    | none =>
      let n := (strayByte? c).getD c.toNat
      if n < 0x20 ∨ n = 0x7F ∨ (strayByte? c).isSome then '\\' :: 'x' :: hexText 2 n
      else if n < 0x10000 then '\\' :: 'u' :: hexText 4 n
      else '\\' :: 'U' :: hexText 8 n

def quote (s : String) : String :=
  String.ofList ('"' :: (s.toList.flatMap quoteChar ++ ['"']))

/-- A character between single quotes, of which the double quote needs no escape. -/
def quoteLetter (c : Char) : String :=
  let inside := if c = '\x27' then ['\\', c] else if c = '"' then [c] else quoteChar c
  String.ofList ('\x27' :: inside ++ ['\x27'])

/-- A text that can stand between backquotes as it is: without them, and without control
characters but tabs. -/
def isRaw (s : String) : Bool :=
  s.toList.all fun c =>
    c != '\x60' && c.toNat != 0x7F && c.toNat != 0xFEFF && (0x20 ≤ c.toNat || c == '\t')

/-- A text between backquotes if possible, and otherwise quoted. -/
def quoteRaw (s : String) : String := if isRaw s then "\x60" ++ s ++ "\x60" else quote s

end Synthesis.Text
