import Synthesis.Decimal.Literal
import Synthesis.Yaml.Cursor

/-!
Block scalars: indented lines behind a bar, which keeps their breaks, or behind a greater sign,
which folds them. The header may say how far the lines are indented and what happens to the line
breaks at the end.
-/
namespace Synthesis.Yaml

/-- What happens to the line breaks behind the last line: one is kept, none, or all. -/
inductive Chomp where
  | clip
  | strip
  | keep
  deriving DecidableEq

structure BlockHeader where
  folded : Bool
  chomp : Chomp := .clip
  /-- The indentation beyond that of the surrounding collection; zero leaves it open. -/
  indent : Nat := 0

def chomp? : List Char → Option Chomp
  | '+' :: _ => some .keep
  | '-' :: _ => some .strip
  | _ => none

def indentDigit? : List Char → Option Nat
  | c :: _ => if Text.isAsciiDigit c then some (Decimal.digitValue c) else none
  | [] => none

/-- The header behind its first character, up to the start of the next line. -/
def blockHeader? (folded : Bool) (p : Cursor) : Option (BlockHeader × Cursor) := do
  let (chomp, p) := match chomp? p.rest with
    | some k => (some k, p.advance 1)
    | none => (none, p)
  let (indent, p) := match indentDigit? p.rest with
    | some n => (some n, p.advance 1)
    | none => (none, p)
  if indent = some 0 then none
  let (chomp, p) := match chomp, indent, chomp? p.rest with
    | none, some _, some k => (some k, p.advance 1)
    | k, _, _ => (k, p)
  let p := p.dropGaps
  let p := if p.head? = some '#' then p.dropLine else p
  if endsLine p.head? then return (⟨folded, chomp.getD .clip, indent.getD 0⟩, p.skipBreak)
  else none

/-- Passes the spaces of an indentation, all of them while it is not known yet. -/
def dropIndent (indent : Nat) (p : Cursor) : Cursor :=
  let n := (p.rest.takeWhile (· == ' ')).length
  p.advance (if indent = 0 then n else min n (indent - p.column))

/-- Passes empty lines. The result has their line breaks and the widest indentation. -/
def emptyLinesFrom (indent : Nat) :
    Nat → Cursor → Nat → List Char → Option (List Char × Nat × Cursor)
  | 0, p, widest, breaks => some (breaks, widest, p)
  | fuel + 1, p, widest, breaks =>
    let p := dropIndent indent p
    let widest := max widest p.column
    if (indent = 0 || p.column < indent) && p.head? = some '\t' then none
    else match p.head? with
    | none => some (breaks, widest, p)
    | some c =>
      if isBreak c then emptyLinesFrom indent fuel p.skipBreak widest (breaks ++ p.breakText)
      else some (breaks, widest, p)

def emptyLines? (indent : Nat) (p : Cursor) : Option (List Char × Nat × Cursor) :=
  emptyLinesFrom indent (p.rest.length + 1) p 0 []

/-- The lines read so far, the break behind the last of them, and those of the empty lines that
follow. -/
structure BlockText where
  text : List Char := []
  lastBreak : List Char := []
  emptyBreaks : List Char := []
  /-- The last line started with a blank. -/
  blank : Bool := false

namespace BlockText

/-- Two lines are folded into one unless one of them is indented further. -/
def addLine (b : BlockText) (folded : Bool) (line : List Char) : List Char × Bool :=
  let blank := match line with
    | c :: _ => isGap c
    | [] => false
  let joint :=
    if folded && !b.blank && !blank && b.lastBreak.head? == some '\n' then
      if b.emptyBreaks.isEmpty then [' '] else []
    else b.lastBreak
  (b.text ++ joint ++ b.emptyBreaks ++ line, blank)

def chomped (b : BlockText) : Chomp → List Char
  | .strip => b.text
  | .clip => b.text ++ b.lastBreak
  | .keep => b.text ++ b.lastBreak ++ b.emptyBreaks

end BlockText

def blockLinesFrom (folded : Bool) (indent : Nat) :
    Nat → Cursor → BlockText → Option (BlockText × Cursor)
  | 0, p, b => some (b, p)
  | fuel + 1, p, b =>
    if p.column = indent ∧ !p.rest.isEmpty then do
      let (text, blank) := b.addLine folded (p.rest.takeWhile (!isBreak ·))
      let p := p.dropLine
      let (breaks, _, next) ← emptyLines? indent p.skipBreak
      blockLinesFrom folded indent fuel next ⟨text, p.breakText, breaks, blank⟩
    else some (b, p)

/-- A block scalar, from its first character on, in a collection indented to `outer`. -/
def blockScalar? (folded : Bool) (outer : Int) (p : Cursor) : Option (List Char × Cursor) := do
  let (h, p) ← blockHeader? folded (p.advance 1)
  let given := if h.indent = 0 then 0 else (max outer 0).toNat + h.indent
  let (breaks, widest, p) ← emptyLines? given p
  let indent := if given = 0 then max (max widest (outer + 1).toNat) 1 else given
  let (b, p) ← blockLinesFrom folded indent p.rest.length p { emptyBreaks := breaks }
  return (b.chomped h.chomp, p)

end Synthesis.Yaml
