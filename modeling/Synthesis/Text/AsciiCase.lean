/-!
Lower case as far as it decides which ASCII words a text holds. Besides the capitals A to Z two
characters have a lower case inside ASCII: the capital I with a dot above and the Kelvin sign.
Every other character either stays as it is or changes to a character outside ASCII, so for a
search for ASCII words it may stay.
-/
namespace Synthesis.Text

/-- Lower case inside ASCII. -/
def lowerAscii (c : Char) : Char :=
  if 'A' ≤ c ∧ c ≤ 'Z' then Char.ofNat (c.toNat + 32) else c

def lowerChar (c : Char) : Char :=
  if c.toNat = 0x130 then 'i'
  else if c.toNat = 0x212A then 'k'
  else lowerAscii c

def lower (s : String) : String := String.ofList (s.toList.map lowerChar)

def isAsciiDigit (c : Char) : Bool := '0' ≤ c ∧ c ≤ '9'

def isAsciiLower (c : Char) : Bool := 'a' ≤ c ∧ c ≤ 'z'

def isAsciiUpper (c : Char) : Bool := 'A' ≤ c ∧ c ≤ 'Z'

def isAsciiLetter (c : Char) : Bool := isAsciiLower c || isAsciiUpper c

/-- Letters, digits and the underscore, all of ASCII. -/
def isWordChar (c : Char) : Bool := isAsciiLetter c || isAsciiDigit c || c == '_'

end Synthesis.Text
