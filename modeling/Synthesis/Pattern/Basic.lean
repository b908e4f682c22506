import Synthesis.Pattern.CharSet

/-!
Patterns: sets of characters and tests of a place, in sequence, as alternatives, and repeated.
Of two alternatives the first is preferred; a greedy repetition prefers to go on, a lazy one to
stop.
-/
namespace Synthesis

/-- A place in a text: the character in front of it and the rest behind it. -/
structure Place where
  before : Option Char
  rest : List Char

namespace Place

/-- What a pattern can ask about a place. -/
inductive Test where
  | textStart
  | textEnd
  | lineStart
  | lineEnd
  | wordEdge
  | noWordEdge
  deriving Repr, DecidableEq

def atWordEdge (p : Place) : Bool :=
  p.before.any Text.isWordChar != p.rest.head?.any Text.isWordChar

def passes (p : Place) : Test → Bool
  | .textStart => p.before.isNone
  | .textEnd => p.rest.isEmpty
  | .lineStart => p.before.all (· == '\n')
  | .lineEnd => p.rest.head?.all (· == '\n')
  | .wordEdge => p.atWordEdge
  | .noWordEdge => !p.atWordEdge

end Place

inductive Pattern where
  | empty
  | char (set : CharSet)
  | test (t : Place.Test)
  | seq (a b : Pattern)
  | alt (a b : Pattern)
  | optional (p : Pattern) (greedy : Bool)
  /-- One or more times. -/
  | repeated (p : Pattern) (greedy : Bool)
  /-- Any number of times. -/
  | star (p : Pattern) (greedy : Bool)
  deriving Inhabited

namespace Pattern

def never : Pattern := .char (.union [])

def seqAll : List Pattern → Pattern
  | [] => .empty
  | [p] => p
  | p :: ps => .seq p (seqAll ps)

def altAll : List Pattern → Pattern
  | [] => never
  | [p] => p
  | p :: ps => .alt p (altAll ps)

/-- Up to `n` times. -/
def atMost (p : Pattern) (greedy : Bool) : Nat → Pattern
  | 0 => .empty
  | 1 => .optional p greedy
  | n + 1 => .optional (.seq p (atMost p greedy n)) greedy

/-- At least `least` times and, if there is a bound, at most so often. -/
def times (p : Pattern) (least : Nat) (most : Option Nat) (greedy : Bool) : Pattern :=
  match most with
  | none =>
    match least with
    | 0 => .star p greedy
    | n + 1 => seqAll (List.replicate n p ++ [.repeated p greedy])
  | some m =>
    let more := m - least
    seqAll (List.replicate least p ++ (if more = 0 then [] else [atMost p greedy more]))

/-- The pattern can match without a character, as far as its form shows. -/
def mayBeEmpty : Pattern → Bool
  | .empty | .test _ | .optional _ _ | .star _ _ => true
  | .char _ => false
  | .seq a b => a.mayBeEmpty && b.mayBeEmpty
  | .alt a b => a.mayBeEmpty || b.mayBeEmpty
  | .repeated p _ => p.mayBeEmpty

end Pattern

end Synthesis
