import Synthesis.Pattern.Property
import Synthesis.Text.CaseOrbit

/-!
Sets of characters as they are written in patterns: ranges, properties, unions, complements, and
sets closed under the case of letters.
-/
namespace Synthesis

inductive CharSet where
  | range (lo hi : Nat)
  | property (p : Property)
  | union (sets : List CharSet)
  | compl (s : CharSet)
  /-- The characters that differ from a member at most in case. -/
  | folded (s : CharSet)
  deriving Inhabited

namespace CharSet

mutual

def has : CharSet → Nat → Bool
  | .range lo hi, n => lo ≤ n && n ≤ hi
  | .property p, n => p.holds n
  | .union sets, n => hasAny sets n
  | .compl s, n => !has s n
  | .folded s, n => (Text.caseOrbit n).any (has s)

def hasAny : List CharSet → Nat → Bool
  | [], _ => false
  | s :: ss, n => has s n || hasAny ss n

end

def contains (s : CharSet) (c : Char) : Bool := s.has c.toNat

def single (c : Char) : CharSet := .range c.toNat c.toNat

def between (a b : Char) : CharSet := .range a.toNat b.toNat

def ofList (cs : List Char) : CharSet := .union (cs.map single)

def all : CharSet := .range 0 0x10FFFF

def digit : CharSet := between '0' '9'

def lower : CharSet := between 'a' 'z'

def upper : CharSet := between 'A' 'Z'

def letter : CharSet := .union [lower, upper]

def word : CharSet := .union [digit, letter, single '_']

def space : CharSet := ofList ['\t', '\n', '\x0c', '\r', ' ']

/-- The sets with a name inside brackets and colons. -/
def named? : String → Option CharSet
  | "alnum" => some (.union [digit, letter])
  | "alpha" => some letter
  | "ascii" => some (.range 0 0x7F)
  | "blank" => some (ofList ['\t', ' '])
  | "cntrl" => some (.union [.range 0 0x1F, .range 0x7F 0x7F])
  | "digit" => some digit
  | "graph" => some (between '!' '~')
  | "lower" => some lower
  | "print" => some (between ' ' '~')
  | "punct" => some (.union [between '!' '/', between ':' '@', between '[' (Char.ofNat 0x60),
      .range 0x7B 0x7E])
  | "space" => some (.union [space, single '\x0b'])
  | "upper" => some upper
  | "word" => some word
  | "xdigit" => some (.union [digit, between 'a' 'f', between 'A' 'F'])
  | _ => none

/-- The sets behind a backslash: digits, blanks and word characters. -/
def short? : Char → Option CharSet
  | 'd' => some digit
  | 's' => some space
  | 'w' => some word
  | _ => none

/-- The set, closed under case if it is to be folded, and then its complement if it is negated. -/
def close (s : CharSet) (fold negated : Bool) : CharSet :=
  let s := if fold then .folded s else s
  if negated then .compl s else s

end CharSet

end Synthesis
