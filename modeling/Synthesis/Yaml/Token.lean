import Synthesis.Text.Utf8
import Synthesis.Yaml.Block
import Synthesis.Yaml.Flow

/-!
The tokens of a YAML text. A mapping key is recognised only by the colon behind it: the place of
every token that may start a key is kept, and the tokens that open the key are put there when a
colon follows on the same line, at most 1024 characters further on. Collections without brackets
are opened by a deeper column and closed by a lesser one.

A text that cannot be read gives the tokens in front of the fault and then `fault`, with the
numbers of the tokens that could still have turned out to start a key.
-/
namespace Synthesis.Yaml

inductive Token.Kind where
  | version
  | tagLead (handle lead : String)
  | documentStart
  | documentEnd
  | blockSequence
  | blockMapping
  | blockEnd
  | openSequence
  | closeSequence
  | openMapping
  | closeMapping
  | item
  | comma
  | key
  | value
  | link (name : String)
  | anchor (name : String)
  | tag (handle suffix : String)
  | scalar (text : String) (plain : Bool)
  | streamEnd
  | fault (pending : List Nat)
  deriving DecidableEq

structure Token where
  kind : Token.Kind
  /-- Counted from zero. -/
  line : Nat

/-- A token that may turn out to start a mapping key. -/
structure KeyStart where
  /-- How many tokens stand in front of it. -/
  number : Nat
  /-- Nothing but a key can stand there. -/
  required : Bool
  place : Cursor

/-- A text read in part. -/
structure Scan where
  place : Cursor
  /-- The last token first. -/
  tokens : List Token := []
  /-- The column of the innermost collection without brackets, or minus one. -/
  indent : Int := -1
  outer : List Int := []
  /-- What may start a key, for each level of brackets, the innermost first. -/
  keys : List (Option KeyStart) := [none]
  keyAllowed : Bool := true
  ended : Bool := false

namespace Scan

def bracketed (s : Scan) : Bool :=
  match s.keys with
  | _ :: _ :: _ => true
  | _ => false

/-- How deep collections may be nested, with and without brackets. -/
def maxNesting : Nat := 10000

def emit (s : Scan) (kind : Token.Kind) : Scan :=
  { s with tokens := ⟨kind, s.place.line⟩ :: s.tokens }

/-- Puts a token behind the first `number` ones. -/
def insert (s : Scan) (number : Nat) (t : Token) : Scan :=
  let n := s.tokens.length - number
  { s with tokens := s.tokens.take n ++ t :: s.tokens.drop n }

/-- Opens a collection at a deeper column. -/
def indentTo (s : Scan) (column number line : Nat) (kind : Token.Kind) : Option Scan :=
  if s.bracketed || decide ((column : Int) ≤ s.indent) then some s
  else if maxNesting ≤ s.outer.length then none
  else some { s.insert number ⟨kind, line⟩ with indent := column, outer := s.indent :: s.outer }

def closeAll (column : Int) : List Int → Scan → Scan
  | [], s => s
  | o :: os, s =>
    if column < s.indent then closeAll column os { s.emit .blockEnd with indent := o, outer := os }
    else s

/-- Closes the collections that are indented further than a column. -/
def closeTo (s : Scan) (column : Int) : Scan :=
  if s.bracketed then s else closeAll column s.outer s

def setKey (s : Scan) (k : Option KeyStart) : Scan :=
  { s with keys := k :: s.keys.tail }

def key? (s : Scan) : Option KeyStart := s.keys.head?.join

/-- What may start a key no longer does; a fault when nothing else can stand there. -/
def dropKey (s : Scan) : Option Scan :=
  match s.key? with
  | some k => if k.required then none else some (s.setKey none)
  | none => some s

/-- The next token may start a key. -/
def saveKey (s : Scan) : Option Scan :=
  if s.keyAllowed then do
    let required := !s.bracketed && s.indent == s.place.column
    let s ← s.dropKey
    return s.setKey (some ⟨s.tokens.length, required, s.place⟩)
  else some s

/-- A key that starts on an earlier line, or too far away, cannot end at this place. -/
def isStale (s : Scan) (k : KeyStart) : Bool :=
  k.place.line < s.place.line || k.place.offset + 1024 < s.place.offset

/-- What may still start a key at this place. -/
def liveKey (s : Scan) : Option (Option KeyStart) :=
  match s.key? with
  | none => some none
  | some k =>
    if s.isStale k then
      if k.required then none else some none
    else some (some k)

/-- The numbers of the tokens that may still turn out to start a key. -/
def pending (s : Scan) : List Nat :=
  s.keys.filterMap fun key => key.bind fun k =>
    if s.isStale k && !k.required then none else some k.number

/-- Passes blanks, comments and line breaks. A tab is no blank where a key may start, outside
brackets. -/
def blanksFrom (bracketed : Bool) : Nat → Cursor → Bool → Cursor × Bool
  | 0, p, allowed => (p, allowed)
  | fuel + 1, p, allowed =>
    let p := if p.column = 0 ∧ p.head? = some byteOrderMark then p.advance 1 else p
    let isSpace := fun c => c == ' ' || (c == '\t' && (bracketed || !allowed))
    let p := p.advance (p.rest.takeWhile isSpace).length
    let p := if p.head? = some '#' then p.skipComments p.rest.length else p
    match p.head? with
    | none => (p, allowed)
    | some c =>
      if isBreak c then blanksFrom bracketed fuel p.skipBreak (allowed || !bracketed)
      else (p, allowed)

def skipBlanks (s : Scan) : Scan :=
  let (p, allowed) := blanksFrom s.bracketed (s.place.rest.length + 1) s.place s.keyAllowed
  { s with place := p, keyAllowed := allowed }

def streamEnd (s : Scan) : Option Scan := do
  let p := s.place
  let p := if p.column = 0 then p else { p with line := p.line + 1, column := 0 }
  let s ← ({ s with place := p }.closeTo (-1)).dropKey
  return { s.emit .streamEnd with keyAllowed := false, ended := true }

/-- A token of so many characters. -/
def symbol (s : Scan) (kind : Token.Kind) (size : Nat) (keyAllowed : Bool) : Scan :=
  { s.emit kind with place := s.place.advance size, keyAllowed }

def documentMark (s : Scan) (kind : Token.Kind) : Option Scan := do
  let s ← (s.closeTo (-1)).dropKey
  return s.symbol kind 3 false

def openBracket (s : Scan) (kind : Token.Kind) : Option Scan := do
  if maxNesting < s.keys.length then none
  let s ← s.saveKey
  let s := s.symbol kind 1 true
  return { s with keys := none :: s.keys }

def closeBracket (s : Scan) (kind : Token.Kind) : Option Scan := do
  let s ← s.dropKey
  let s := s.symbol kind 1 false
  return if s.bracketed then { s with keys := s.keys.tail } else s

def comma (s : Scan) : Option Scan := do
  let s ← s.dropKey
  return s.symbol .comma 1 true

/-- Opens a collection at this column, unless there are brackets around. -/
def openHere (s : Scan) (kind : Token.Kind) : Option Scan :=
  if s.bracketed then some s
  else if s.keyAllowed then s.indentTo s.place.column s.tokens.length s.place.line kind
  else none

def item (s : Scan) : Option Scan := do
  let s ← s.openHere .blockSequence
  let s ← s.dropKey
  return s.symbol .item 1 true

def explicitKey (s : Scan) : Option Scan := do
  let s ← s.openHere .blockMapping
  let s ← s.dropKey
  return s.symbol .key 1 (!s.bracketed)

def value (s : Scan) : Option Scan := do
  match ← s.liveKey with
  | some k =>
    let s := s.insert k.number ⟨.key, k.place.line⟩
    let s ← s.indentTo k.place.column k.number k.place.line .blockMapping
    return (s.setKey none).symbol .value 1 false
  | none =>
    let s ← (s.setKey none).openHere .blockMapping
    return s.symbol .value 1 (!s.bracketed)

/-- An anchor or an alias: a name behind its first character. -/
def name (s : Scan) (kind : String → Token.Kind) : Option Scan := do
  let s ← s.saveKey
  let p := s.place.advance 1
  let word := p.rest.takeWhile isNameChar
  let p := p.advance word.length
  let closed := endsWord p.head? || (p.head?.map ("?:,]\x7d%@\x60".toList.contains ·)).getD false
  if word.isEmpty || !closed then none
  else return { s.emit (kind (String.ofList word)) with place := p, keyAllowed := false }

/-- A character of a tag behind its handle. -/
def isTagChar (c : Char) : Bool := isNameChar c || ";/?:@&=+$,.!~*\x27()[]".toList.contains c

/-- A byte written by its hexadecimal code behind a percent sign. -/
def octet? : List Char → Option Nat
  | '%' :: a :: b :: _ => do
    return 16 * (← Decimal.hexValue? a) + (← Decimal.hexValue? b)
  | _ => none

/-- How many bytes a character has whose first byte is given. -/
def octets (lead : Nat) : Nat :=
  if lead < 0x80 then 1 else if lead < 0xC0 then 0 else if lead < 0xE0 then 2
  else if lead < 0xF0 then 3 else if lead < 0xF8 then 4 else 0

/-- The bytes of a character of which each is written by its code. -/
def escapedChar? (cs : List Char) : Option (List Nat) := do
  let lead ← octet? cs
  if octets lead = 0 then none
  let rest ← (List.range (octets lead - 1)).mapM fun i => octet? (cs.drop (3 * (i + 1)))
  if rest.all Text.isContinuation then return lead :: rest else none

/-- The rest of a tag, where a character may be written by the codes of its bytes. -/
def tagTextFrom : Nat → Cursor → List Char → Option (List Char × Cursor)
  | 0, p, text => some (text, p)
  | fuel + 1, p, text =>
    match p.rest with
    | [] => some (text, p)
    | c :: _ =>
      if isTagChar c then tagTextFrom fuel (p.advance 1) (text ++ [c])
      else if c = '%' then do
        let bytes ← escapedChar? p.rest
        tagTextFrom fuel (p.advance (3 * bytes.length)) (text ++ (Text.ofUtf8 bytes).toList)
      else some (text, p)

def tagText? (p : Cursor) : Option (List Char × Cursor) := tagTextFrom p.rest.length p []

/-- A handle: an exclamation mark, and a name and a second mark if they are there. -/
def tagHandle? (p : Cursor) : Option (List Char × Cursor) :=
  if p.head? = some '!' then
    let word := (p.rest.drop 1).takeWhile isNameChar
    let p := p.advance (word.length + 1)
    if p.head? = some '!' then some ('!' :: word ++ ['!'], p.advance 1)
    else some ('!' :: word, p)
  else none

/-- A tag as its handle and the text behind it. A tag in angle brackets has no handle. -/
def tag? (p : Cursor) : Option (List Char × List Char × Cursor) :=
  if p.ahead? 1 = some '<' then do
    let (text, p) ← tagText? (p.advance 2)
    if p.head? = some '>' ∧ !text.isEmpty then return ([], text, p.advance 1) else none
  else do
    let (handle, p) ← tagHandle? p
    if 1 < handle.length ∧ handle.getLast? = some '!' then
      let (text, p) ← tagText? p
      if text.isEmpty then none else return (handle, text, p)
    else
      let (more, p) ← tagText? p
      let text := handle.drop 1 ++ more
      return if text.isEmpty then ([], ['!'], p) else (['!'], text, p)

def tag (s : Scan) : Option Scan := do
  let s ← s.saveKey
  let (handle, text, p) ← tag? s.place
  if endsWord p.head? then
    return { s.emit (.tag (String.ofList handle) (String.ofList text)) with
      place := p, keyAllowed := false }
  else none

def blockScalar (s : Scan) (folded : Bool) : Option Scan := do
  let s ← s.dropKey
  let (text, p) ← blockScalar? folded s.indent s.place
  return { s.emit (.scalar (String.ofList text) false) with place := p, keyAllowed := true }

def quotedScalar (s : Scan) (q : Quote) : Option Scan := do
  let s ← s.saveKey
  let (text, p) ← quoted? q s.place
  return { s.emit (.scalar (String.ofList text) false) with place := p, keyAllowed := false }

def skipLineComment (s : Scan) : Scan := { s with place := s.place.skipLineComment }

def plainScalar (s : Scan) : Option Scan := do
  let s ← s.saveKey
  let r ← plain? s.bracketed (s.indent + 1).toNat s.place
  let s := { s.emit (.scalar (String.ofList r.text) true) with
    place := r.next, keyAllowed := r.broken }
  return if r.broken then s else s.skipLineComment

/-- A version of one or two digits on each side of the point; only version 1.1 is read. -/
def version? (p : Cursor) : Option Cursor :=
  let digits := fun (p : Cursor) => p.rest.takeWhile Text.isAsciiDigit
  let isOne := fun (ds : List Char) => ds.length ≤ 2 && Decimal.natOfDigits ds == 1
  let major := digits p
  let q := p.advance major.length
  let minor := digits (q.advance 1)
  if isOne major && q.head? == some '.' && isOne minor then some (q.advance (minor.length + 1))
  else none

def directive? (p : Cursor) : Option (Token.Kind × Cursor) := do
  let word := p.rest.takeWhile isNameChar
  let p := p.advance word.length
  if !endsWord p.head? then none
  match String.ofList word with
  | "YAML" => do
    let p ← version? p.dropGaps
    return (.version, p)
  | "TAG" => do
    let (handle, p) ← tagHandle? p.dropGaps
    if handle ≠ ['!'] ∧ (handle.length < 2 ∨ handle.getLast? ≠ some '!') then none
    if !(p.head?.map isGap).getD false then none
    let (lead, p) ← tagText? p.dropGaps
    if lead.isEmpty || !endsWord p.head? then none
    return (.tagLead (String.ofList handle) (String.ofList lead), p)
  | _ => none

def directive (s : Scan) : Option Scan := do
  let s ← (s.closeTo (-1)).dropKey
  let (kind, p) ← directive? (s.place.advance 1)
  let p := p.dropGaps
  let p := if p.head? = some '#' then p.dropLine else p
  if endsLine p.head? then
    return { s.emit kind with place := p.skipBreak, keyAllowed := false }
  else none

/-- Characters that do not start a plain scalar. -/
def isIndicator (c : Char) : Bool := "-?:,[]\x7b\x7d#&*!|>\x27\"%@\x60".toList.contains c

/-- A plain scalar starts here. -/
def startsPlain (s : Scan) (c : Char) (wordEnds : Bool) : Bool :=
  !(isGap c || isIndicator c) || (c == '-' && !wordEnds)
    || (!s.bracketed && (c == '?' || c == ':') && !wordEnds)

/-- A token that ends on its line. -/
def marker (s : Scan) (c : Char) (wordEnds : Bool) : Option Scan :=
  if c = '[' then s.openBracket .openSequence
  else if c = '\x7b' then s.openBracket .openMapping
  else if c = ']' then s.closeBracket .closeSequence
  else if c = '\x7d' then s.closeBracket .closeMapping
  else if c = ',' then s.comma
  else if c = '?' && (s.bracketed || wordEnds) then s.explicitKey
  else if c = ':' && (s.bracketed || wordEnds) then s.value
  else if c = '*' then s.name .link
  else if c = '&' then s.name .anchor
  else if c = '!' then s.tag
  else if c = '\x27' then s.quotedScalar .single
  else if c = '"' then s.quotedScalar .double
  else none

/-- Reads one more token, and the tokens that it brings about. A comment on the same line belongs
to the token, but for the mark of a list item. -/
def next (s : Scan) : Option Scan :=
  let s := s.skipBlanks
  let s := s.closeTo s.place.column
  let p := s.place
  let wordEnds := endsWord (p.ahead? 1)
  match p.head? with
  | none => s.streamEnd
  | some c =>
    if p.column = 0 ∧ c = '%' then s.directive
    else if p.atMark "---" then s.documentMark .documentStart
    else if p.atMark "..." then s.documentMark .documentEnd
    else if c = '-' && wordEnds then s.item
    else if c = '|' && !s.bracketed then s.blockScalar false
    else if c = '>' && !s.bracketed then s.blockScalar true
    else if s.startsPlain c wordEnds then s.plainScalar
    else (s.marker c wordEnds).map skipLineComment

def allFrom : Nat → Scan → Scan
  | 0, s => s.emit (.fault [])
  | fuel + 1, s =>
    if s.ended then s
    else match s.next with
      | some t => allFrom fuel t
      | none => s.emit (.fault s.pending)

end Scan

/-- The tokens of a text. -/
def Token.all (text : String) : List Token :=
  let cs := match text.toList with
    | c :: rest => if c = byteOrderMark then rest else c :: rest
    | [] => []
  if cs.all isAllowed then (Scan.allFrom (cs.length + 2) { place := ⟨cs, 0, 0, 0⟩ }).tokens.reverse
  else [⟨.fault [], 0⟩]

end Synthesis.Yaml
