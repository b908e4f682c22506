import Synthesis.Json.Basic
import Synthesis.Text.Utf8

/-!
Writing JSON text, on one line or indented. Inside strings the quote, the backslash and control
characters are escaped, and so are the characters that are special in HTML and the two Unicode
line separators. A stray byte is written as the replacement character, unless it is one of those
as which a private character is kept.
-/
namespace Synthesis.Json

def hexDigit (n : Nat) : Char :=
  if n < 10 then Char.ofNat ('0'.toNat + n) else Char.ofNat ('a'.toNat + (n - 10))

def unitEscape (n : Nat) : List Char :=
  ['\\', 'u', hexDigit (n / 4096 % 16), hexDigit (n / 256 % 16), hexDigit (n / 16 % 16),
    hexDigit (n % 16)]

def isHtmlChar (c : Char) : Bool := c == '<' || c == '>' || c == '&'

def writeChar (c : Char) : List Char :=
  match c with
  | '"' => ['\\', '"']
  | '\\' => ['\\', '\\']
  | '\n' => ['\\', 'n']
  | '\r' => ['\\', 'r']
  | '\t' => ['\\', 't']
  | '\x08' => ['\\', 'b']
  | '\x0c' => ['\\', 'f']
  | c =>
    if c.toNat < 0x20 || isHtmlChar c || c.toNat == 0x2028 || c.toNat == 0x2029 then
      unitEscape c.toNat
    else if (Text.strayByte? c).isSome then unitEscape 0xFFFD
    else [c]

/-- The characters as they are written, when the first `n` are written already. -/
def writeChars : Nat → List Char → List Char
  | _, [] => []
  | n + 1, _ :: rest => writeChars n rest
  | 0, c :: rest =>
    match Text.keptChar? (c :: rest) with
    | some p => Text.keepChar p ++ writeChars 3 rest
    | none => writeChar c ++ writeChars 0 rest

def quoted (literal : List Char) : List Char := '"' :: (literal ++ ['"'])

def writeString (s : String) : List Char := quoted (writeChars 0 s.toList)

/-- The string that stands for a text. -/
def text (s : String) : Json := .string (String.ofList (writeChars 0 s.toList))

def texts (xs : List String) : Json := .array (xs.map .text)

mutual

def write : Json → List Char
  | .null => ['n', 'u', 'l', 'l']
  | .bool true => ['t', 'r', 'u', 'e']
  | .bool false => ['f', 'a', 'l', 's', 'e']
  | .number literal => literal.toList
  | .string literal => quoted literal.toList
  | .array [] => ['[', ']']
  | .array (v :: vs) => '[' :: (write v ++ writeItems vs)
  | .object [] => ['{', '}']
  | .object ((k, v) :: ms) => '{' :: (writeString k ++ ':' :: (write v ++ writeMembers ms))

/-- The items after the first one, and the closing bracket. -/
def writeItems : List Json → List Char
  | [] => [']']
  | v :: vs => ',' :: (write v ++ writeItems vs)

def writeMembers : List (String × Json) → List Char
  | [] => ['}']
  | (k, v) :: ms => ',' :: (writeString k ++ ':' :: (write v ++ writeMembers ms))

end

/-- The value on one line. -/
def render (j : Json) : String := String.ofList (write j)

mutual

def layOut (margin : String) : Json → String
  | .array (v :: vs) =>
    "[\n" ++ margin ++ "  " ++ layOut (margin ++ "  ") v ++ layOutItems margin vs
  | .object ((k, v) :: ms) =>
    "\x7b\n" ++ margin ++ "  " ++ String.ofList (writeString k) ++ ": "
      ++ layOut (margin ++ "  ") v ++ layOutMembers margin ms
  | j => render j

def layOutItems (margin : String) : List Json → String
  | [] => "\n" ++ margin ++ "]"
  | v :: vs => ",\n" ++ margin ++ "  " ++ layOut (margin ++ "  ") v ++ layOutItems margin vs

def layOutMembers (margin : String) : List (String × Json) → String
  | [] => "\n" ++ margin ++ "\x7d"
  | (k, v) :: ms =>
    ",\n" ++ margin ++ "  " ++ String.ofList (writeString k) ++ ": "
      ++ layOut (margin ++ "  ") v ++ layOutMembers margin ms

end

/-- The value over several lines, two blanks deeper at each level. -/
def renderIndented (j : Json) : String := layOut "" j

end Synthesis.Json
