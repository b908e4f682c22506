import Synthesis.Text.Category

/-!
Printable characters: letters, marks, numbers, punctuation and symbols, and the blank of ASCII.
-/
namespace Synthesis.Text

def isPrintable (c : Char) : Bool :=
  if c.toNat < 0x7F then 0x20 ≤ c.toNat
  else ['L', 'M', 'N', 'P', 'S'].contains (Category.ofCode c.toNat).group

end Synthesis.Text
