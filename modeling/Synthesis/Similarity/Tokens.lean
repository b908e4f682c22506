import Synthesis.Text.AsciiCase
import Synthesis.Text.Blank

/-!
Tokens: the runs of lower-case ASCII letters and digits in a text, without the words that say
nothing about its subject.
-/
namespace Synthesis.Tokens

def isTokenChar (c : Char) : Bool := Text.isAsciiLower c || Text.isAsciiDigit c

def stopWords : List String :=
  ["the", "a", "an", "and", "or", "in", "on", "at", "to", "for", "of", "is", "are", "was", "it",
   "be", "by", "with", "from", "as", "that", "this", "each", "into"]

/-- Every run of token characters, stop words included. -/
def all (text : String) : List String :=
  (Text.runs isTokenChar (Text.lower text).toList).map String.ofList

def ofText (text : String) : List String := (all text).filter (!stopWords.contains ·)

end Synthesis.Tokens
