import Synthesis.Pattern.Basic

/-!
Patterns as programs, and the search for the first match. A program reads a text character by
character. Its threads stand in the order of preference; at one place no instruction is entered
twice, so of two threads that meet the preferred one goes on. A thread that accepts ends all
threads behind it, and no thread is started any more once there is a match.
-/
namespace Synthesis

inductive Instr where
  /-- Passes a character of the set. -/
  | char (set : CharSet)
  | test (t : Place.Test)
  | fork (preferred other : Nat)
  | jump (target : Nat)
  | accept

namespace Pattern

/-- Goes on with the repetition at `again` or leaves it for `after`. -/
def branch (greedy : Bool) (again after : Nat) : Instr :=
  if greedy then .fork again after else .fork after again

/-- The instructions of a pattern from the given index on, and the index behind them, which is
where a match of the pattern leads. A repetition of what may be empty is entered through its
body, so that it prefers one empty round to none. -/
def code : Pattern → Nat → List Instr × Nat
  | .empty, i => ([], i)
  | .char set, i => ([.char set], i + 1)
  | .test t, i => ([.test t], i + 1)
  | .seq a b, i =>
    let (first, j) := code a i
    let (second, k) := code b j
    (first ++ second, k)
  | .alt a b, i =>
    let (first, j) := code a (i + 1)
    let (second, k) := code b (j + 1)
    (.fork (i + 1) (j + 1) :: first ++ .jump k :: second, k)
  | .optional a greedy, i =>
    let (body, j) := code a (i + 1)
    (branch greedy (i + 1) j :: body, j)
  | .repeated a greedy, i =>
    let (body, j) := code a i
    (body ++ [branch greedy i (j + 1)], j + 1)
  | .star a greedy, i =>
    let (body, j) := code a (i + 1)
    let enter := branch greedy (i + 1) (j + 1)
    (enter :: body ++ [if a.mayBeEmpty then enter else .jump i], j + 1)

end Pattern

structure Program where
  instrs : Array Instr

/-- Where a thread stands in the program, and where in the text its match began. -/
structure Thread where
  index : Nat
  start : Nat

/-- A match: the places where it begins and ends, counted in characters. -/
structure Span where
  start : Nat
  stop : Nat

namespace Program

def ofPattern (p : Pattern) : Program := ⟨((p.code 0).1 ++ [Instr.accept]).toArray⟩

def instr? (p : Program) (t : Thread) : Option Instr := p.instrs[t.index]?

/-- The threads that wait for a character or accept, when the given ones go on at a place as far
as they can without a character. The bits of `seen` tell which instructions were entered. -/
def settle (p : Program) (place : Place) : Nat → List Thread → Nat → List Thread
  | 0, _, _ => []
  | _, [], _ => []
  | fuel + 1, t :: ts, seen =>
    if seen.testBit t.index then settle p place fuel ts seen
    else
      let seen := seen ||| (1 <<< t.index)
      match p.instr? t with
      | none => settle p place fuel ts seen
      | some (.char _) => t :: settle p place fuel ts seen
      | some .accept => [t]
      | some (.test q) =>
        settle p place fuel (if place.passes q then ⟨t.index + 1, t.start⟩ :: ts else ts) seen
      | some (.jump i) => settle p place fuel (⟨i, t.start⟩ :: ts) seen
      | some (.fork i j) => settle p place fuel (⟨i, t.start⟩ :: ⟨j, t.start⟩ :: ts) seen

/-- Every instruction that is entered leaves at most two threads. -/
def settled (p : Program) (place : Place) (ts : List Thread) : List Thread :=
  p.settle place (ts.length + 2 * p.instrs.size + 1) ts 0

def accepted? (p : Program) (ts : List Thread) : Option Thread :=
  ts.getLast?.bind fun t =>
    match p.instr? t with
    | some .accept => some t
    | _ => none

/-- The thread behind a character, if it waits for that character. -/
def pass? (p : Program) (c : Char) (t : Thread) : Option Thread :=
  match p.instr? t with
  | some (.char set) => if set.contains c then some ⟨t.index + 1, t.start⟩ else none
  | _ => none

/-- The best match from the place number `here` on. -/
def search (p : Program) : List Thread → Option Span → Nat → Option Char → List Char → Option Span
  | ts, best, here, before, rest =>
    let ts := if best.isNone then ts ++ [⟨0, here⟩] else ts
    let live := p.settled ⟨before, rest⟩ ts
    let best := match p.accepted? live with
      | some t => some ⟨t.start, here⟩
      | none => best
    match rest with
    | [] => best
    | c :: cs =>
      let next := live.filterMap (p.pass? c)
      if best.isSome && next.isEmpty then best else search p next best (here + 1) (some c) cs

/-- The first match in a text. -/
def span? (p : Program) (text : List Char) : Option Span := p.search [] none 0 none text

/-- The text of the first match. -/
def find? (p : Program) (text : String) : Option String :=
  (p.span? text.toList).map fun m =>
    String.ofList ((text.toList.take m.stop).drop m.start)

def isIn (p : Program) (text : String) : Bool := (p.span? text.toList).isSome

end Program

end Synthesis
