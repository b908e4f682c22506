import Synthesis.Decimal.Literal
import Synthesis.Yaml.Cursor

/-!
Plain and quoted scalars. Their lines are folded: a line break between two words reads as a
space. A plain scalar ends in front of a comment, a mapping value or, inside brackets, one of
the characters that structure a collection.
-/
namespace Synthesis.Yaml

/-- The number of characters up to the end of a word of a plain scalar. -/
def wordLength (bracketed : Bool) : List Char → Nat
  | [] => 0
  | c :: rest =>
    if isGap c || isBreak c || (c == ':' && endsWord rest.head?)
        || (bracketed && ",?[]\x7b\x7d".toList.contains c) then 0
    else wordLength bracketed rest + 1

/-- A scalar as it was read, whether a line ended behind it, and where to go on. -/
structure PlainScalar where
  text : List Char
  broken : Bool
  next : Cursor

def plainFrom (bracketed : Bool) (margin : Nat) :
    Nat → Cursor → Gap → List Char → Option PlainScalar
  | 0, p, g, text => some ⟨text, g.broken, p⟩
  | fuel + 1, p, g, text =>
    if p.atDocumentMark || p.head? == some '#' then some ⟨text, g.broken, p⟩
    else
      let n := wordLength bracketed p.rest
      if n = 0 then some ⟨text, g.broken, p⟩
      else
        let text := text ++ g.text ++ p.rest.take n
        let p := p.advance n
        if p.rest.isEmpty || !endsWord p.head? then some ⟨text, false, p⟩
        else do
          let (g, p) ← Gap.read? margin p {}
          if !bracketed && p.column < margin then some ⟨text, g.broken, p⟩
          else plainFrom bracketed margin fuel p g text

/-- A plain scalar whose later lines are indented to column `margin` at least. -/
def plain? (bracketed : Bool) (margin : Nat) (p : Cursor) : Option PlainScalar :=
  plainFrom bracketed margin (p.rest.length + 1) p {} []

/-- Hexadecimal digits, at most so many, as a character. -/
def charOfHex? (width : Nat) (cs : List Char) : Option Char :=
  let ds := cs.take width
  let n := Decimal.natOfHex ds
  if ds.length = width ∧ ds.all Decimal.isHexDigit ∧ n ≤ 0x10FFFF ∧ ¬(0xD800 ≤ n ∧ n ≤ 0xDFFF) then
    some (Char.ofNat n)
  else none

/-- What follows a backslash: the character meant, and how many characters it takes. -/
def escape? : List Char → Option (Char × Nat)
  | [] => none
  | c :: rest =>
    match c with
    | '0' => some (Char.ofNat 0, 1)
    | 'a' => some (Char.ofNat 7, 1)
    | 'b' => some (Char.ofNat 8, 1)
    | 't' | '\t' => some ('\t', 1)
    | 'n' => some ('\n', 1)
    | 'v' => some (Char.ofNat 11, 1)
    | 'f' => some (Char.ofNat 12, 1)
    | 'r' => some ('\r', 1)
    | 'e' => some (Char.ofNat 27, 1)
    | ' ' | '"' | '\x27' | '\\' => some (c, 1)
    | 'N' => some (Char.ofNat 0x85, 1)
    | '_' => some (Char.ofNat 0xA0, 1)
    | 'L' => some (Char.ofNat 0x2028, 1)
    | 'P' => some (Char.ofNat 0x2029, 1)
    | 'x' => (charOfHex? 2 rest).map (·, 3)
    | 'u' => (charOfHex? 4 rest).map (·, 5)
    | 'U' => (charOfHex? 8 rest).map (·, 9)
    | _ => none

inductive Quote where
  | single
  | double
  deriving DecidableEq

def Quote.char : Quote → Char
  | .single => '\x27'
  | .double => '"'

/-- Reads a word of a quoted scalar; the flag says that an escaped line break ended it. -/
def quotedWord (q : Quote) : Nat → Cursor → List Char → Option (List Char × Bool × Cursor)
  | 0, p, text => some (text, false, p)
  | fuel + 1, p, text =>
    match p.rest with
    | [] => some (text, false, p)
    | c :: rest =>
      if isGap c || isBreak c then some (text, false, p)
      else match q with
      | .single =>
        if c = q.char then
          if rest.head? = some q.char then quotedWord q fuel (p.advance 2) (text ++ [c])
          else some (text, false, p)
        else quotedWord q fuel (p.advance 1) (text ++ [c])
      | .double =>
        if c = q.char then some (text, false, p)
        else if c = '\\' then
          if (rest.head?.map isBreak).getD false then
            some (text, true, (p.advance 1).skipBreak)
          else do
            let (d, n) ← escape? rest
            quotedWord q fuel (p.advance (n + 1)) (text ++ [d])
        else quotedWord q fuel (p.advance 1) (text ++ [c])

def quotedFrom (q : Quote) : Nat → Cursor → List Char → Option (List Char × Cursor)
  | 0, _, _ => none
  | fuel + 1, p, text =>
    if p.atDocumentMark then none
    else do
      let (word, escaped, p) ← quotedWord q p.rest.length p []
      let text := text ++ word
      match p.head? with
      | none => none
      | some c =>
        if c = q.char then return (text, p.advance 1)
        let (g, p) ← Gap.read? 0 p { broken := escaped }
        quotedFrom q fuel p (text ++ g.text)

/-- A quoted scalar, from its opening quote on. -/
def quoted? (q : Quote) (p : Cursor) : Option (List Char × Cursor) :=
  quotedFrom q (p.rest.length + 1) (p.advance 1) []

end Synthesis.Yaml
