import Synthesis.Text.AsciiCase

/-!
A place in a YAML text: what is still to be read, and the line, column and offset it stands at.
Lines end at a line feed, a carriage return or both together, and at the three line separators
beyond ASCII.
-/
namespace Synthesis.Yaml

def isBreak (c : Char) : Bool :=
  c == '\n' || c == '\r' || c.toNat == 0x85 || c.toNat == 0x2028 || c.toNat == 0x2029

def isGap (c : Char) : Bool := c == ' ' || c == '\t'

/-- Nothing, a line break or a blank follows. -/
def endsWord : Option Char → Bool
  | none => true
  | some c => isGap c || isBreak c

def endsLine : Option Char → Bool
  | none => true
  | some c => isBreak c

/-- A character of an anchor or of a tag handle. -/
def isNameChar (c : Char) : Bool :=
  Text.isAsciiDigit c || ('a' ≤ c && c ≤ 'z') || ('A' ≤ c && c ≤ 'Z') || c == '_' || c == '-'

/-- Characters that a document may hold at all. -/
def isAllowed (c : Char) : Bool :=
  let n := c.toNat
  n == 0x9 || n == 0xA || n == 0xD || (0x20 ≤ n && n ≤ 0x7E) || n == 0x85
    || (0xA0 ≤ n && n ≤ 0xFFFD) || 0x10000 ≤ n

def byteOrderMark : Char := Char.ofNat 0xFEFF

structure Cursor where
  rest : List Char
  line : Nat := 0
  column : Nat := 0
  offset : Nat := 0

namespace Cursor

def head? (p : Cursor) : Option Char := p.rest.head?

def ahead? (p : Cursor) (n : Nat) : Option Char := (p.rest.drop n).head?

/-- Passes `n` characters of the line. -/
def advance (p : Cursor) (n : Nat) : Cursor :=
  ⟨p.rest.drop n, p.line, p.column + n, p.offset + n⟩

/-- Passes a line break. -/
def skipBreak (p : Cursor) : Cursor :=
  match p.rest with
  | '\r' :: '\n' :: rest => ⟨rest, p.line + 1, 0, p.offset + 2⟩
  | c :: rest => if isBreak c then ⟨rest, p.line + 1, 0, p.offset + 1⟩ else p
  | [] => p

/-- What a line break stands for: a line feed, but the two Unicode separators are kept. -/
def breakText (p : Cursor) : List Char :=
  match p.rest with
  | c :: _ => if c.toNat == 0x2028 || c.toNat == 0x2029 then [c] else ['\n']
  | [] => []

def dropGaps (p : Cursor) : Cursor := p.advance (p.rest.takeWhile isGap).length

def dropLine (p : Cursor) : Cursor := p.advance (p.rest.takeWhile (!isBreak ·)).length

/-- Passes characters and line breaks up to an offset. -/
def advanceTo (offset : Nat) : Nat → Cursor → Cursor
  | 0, p => p
  | fuel + 1, p =>
    if offset ≤ p.offset then p
    else
      advanceTo offset fuel (if (p.head?.map isBreak).getD false then p.skipBreak else p.advance 1)

/-- How far away a comment may start that belongs to what was read last. -/
def commentReach : Nat := 512

/-- Passes a comment on the same line. -/
def skipLineComment (p : Cursor) : Cursor :=
  let n := (p.rest.takeWhile isGap).length
  if n < commentReach ∧ p.ahead? n = some '#' then (p.advance n).dropLine else p

/-- Passes the comment that starts here, and those on later lines with only blank lines in
between. -/
def skipComments : Nat → Cursor → Cursor
  | 0, p => p
  | fuel + 1, p =>
    let p := p.dropLine
    let n := (p.rest.takeWhile fun c => isGap c || c == '\n' || c == '\r').length
    if n < commentReach ∧ p.ahead? n = some '#' then
      skipComments fuel (advanceTo (p.offset + n) n p)
    else p

def startsWith (p : Cursor) (text : String) : Bool := p.rest.take text.length == text.toList

/-- A line that starts or ends a document. -/
def atMark (p : Cursor) (text : String) : Bool :=
  p.column == 0 && p.startsWith text && endsWord (p.ahead? text.length)

def atDocumentMark (p : Cursor) : Bool := p.atMark "---" || p.atMark "..."

end Cursor

/-- The blanks and line breaks between two words of a scalar. -/
structure Gap where
  blanks : List Char := []
  broken : Bool := false
  firstBreak : List Char := []
  laterBreaks : List Char := []

namespace Gap

/-- A single line break is folded into a space, and of several the first is dropped. -/
def text (g : Gap) : List Char :=
  if g.broken then
    if g.firstBreak == ['\n'] then
      if g.laterBreaks.isEmpty then [' '] else g.laterBreaks
    else g.firstBreak ++ g.laterBreaks
  else g.blanks

def addBreak (g : Gap) (breakText : List Char) : Gap :=
  if g.broken then { g with laterBreaks := g.laterBreaks ++ breakText }
  else ⟨[], true, breakText, []⟩

def addBlank (g : Gap) (c : Char) : Gap :=
  if g.broken then g else { g with blanks := g.blanks ++ [c] }

/-- Reads on to the next word. A tab must not stand in front of column `margin` of a later
line. -/
def readFrom (margin : Nat) : Nat → Cursor → Gap → Option (Gap × Cursor)
  | 0, p, g => some (g, p)
  | fuel + 1, p, g =>
    match p.rest with
    | [] => some (g, p)
    | c :: _ =>
      if isGap c then
        if g.broken && c == '\t' && p.column < margin then none
        else readFrom margin fuel (p.advance 1) (g.addBlank c)
      else if isBreak c then readFrom margin fuel p.skipBreak (g.addBreak p.breakText)
      else some (g, p)

def read? (margin : Nat) (p : Cursor) (g : Gap) : Option (Gap × Cursor) :=
  readFrom margin p.rest.length p g

end Gap

end Synthesis.Yaml
