import Synthesis.Pattern.Basic
import Synthesis.Decimal.Literal

/-!
Reading patterns. A pattern is read from left to right; open groups wait on a stack with the
alternatives and items read so far. What is not a pattern is refused: a repetition of nothing or
of a repetition, unbalanced groups or brackets, unknown escapes and properties, groups that look
around, and patterns nested too deeply or too large.
-/
namespace Synthesis.Pattern

open Synthesis.Text

structure Flags where
  fold : Bool := false
  lines : Bool := false
  dotAll : Bool := false
  lazy : Bool := false

/-- What an item is, as far as it decides about the nesting of the items around it. -/
inductive Form where
  /-- One character out of a set. -/
  | char
  | word
  | sequence
  | choice
  | other
  deriving Repr, DecidableEq

/-- An item with the highest product of nested repetition counts inside it, its nesting, and its
size when all repetitions are written out. -/
structure Item where
  pattern : Pattern
  form : Form := .other
  weight : Nat := 1
  height : Nat := 1
  size : Nat := 1

namespace Item

def ofSet (set : CharSet) : Item := { pattern := .char set, form := .char }

def ofTest (t : Place.Test) : Item := { pattern := .test t }

def maxHeight : Nat := 1000

def maxSize : Nat := 3355443

/-- The item is neither nested too deeply nor too large. -/
def fits (i : Item) : Bool := i.height ≤ maxHeight && i.size ≤ maxSize

def highest (f : Item → Nat) (is : List Item) : Nat := is.foldl (fun m i => max m (f i)) 1

/-- The height of items joined to one of the given form, which takes up items of that form. -/
def joinedHeight (form : Form) (is : List Item) : Nat :=
  highest (fun i => if i.form == form then i.height else i.height + 1) is

def totalSize (is : List Item) : Nat := is.foldl (fun n i => n + i.size) 0

def sequence : List Item → Item
  | [] => { pattern := .empty }
  | [i] => i
  | is =>
    let pattern := seqAll (is.map (·.pattern))
    if is.all fun i => i.form == .char || i.form == .word then
      ⟨pattern, .word, 1, 1, totalSize is⟩
    else ⟨pattern, .sequence, highest (·.weight) is, joinedHeight .sequence is, totalSize is⟩

def choice : List Item → Item
  | [i] => i
  | is =>
    let pattern := altAll (is.map (·.pattern))
    if is.all (·.form == .char) then { pattern, form := .char }
    else
      ⟨pattern, .choice, highest (·.weight) is, joinedHeight .choice is,
        totalSize is + is.length - 1⟩

/-- An item in a group that is counted. -/
def captured (i : Item) : Item := ⟨i.pattern, .other, i.weight, i.height + 1, i.size + 2⟩

/-- The size of a repetition. -/
def repeatedSize (i : Item) (least : Nat) (most : Option Nat) : Nat :=
  match most with
  | none => if least = 0 then i.size + 2 else least * i.size + 1
  | some m => max 1 (m * i.size + (m - least))

/-- An item repeated; a count of repetitions adds to the weight. -/
def times (i : Item) (least : Nat) (most : Option Nat) (counted greedy : Bool) : Item :=
  let weight := if counted then most.getD (max 1 least) * i.weight else i.weight
  ⟨Pattern.times i.pattern least most greedy, .other, max 1 weight, i.height + 1,
    i.repeatedSize least most⟩

end Item

/-- An open group: its finished alternatives and the items of the current one, both last first,
the flags to return to, and whether the group is counted. -/
structure Frame where
  finished : List Item := []
  items : List Item := []
  outer : Flags := {}
  counted : Bool := false

namespace Frame

def push (f : Frame) (i : Item) : Frame := { f with items := i :: f.items }

def current (f : Frame) : Item := .sequence f.items.reverse

def divide (f : Frame) : Frame := { f with finished := f.current :: f.finished, items := [] }

def close (f : Frame) : Item :=
  let i := Item.choice (f.current :: f.finished).reverse
  if f.counted then i.captured else i

end Frame

def setItem (flags : Flags) (set : CharSet) : Item := .ofSet (set.close flags.fold false)

def anyChar (flags : Flags) : Item :=
  .ofSet (if flags.dotAll then .all else .compl (.single '\n'))

def maxRepeat : Nat := 1000

/-- A decimal number without a superfluous zero; above the bound all numbers are alike. -/
def count? (cs : List Char) : Option (Nat × List Char) :=
  match cs.takeWhile isAsciiDigit with
  | [] => none
  | '0' :: _ :: _ => none
  | ds => some (min (Decimal.natOfDigits ds) (maxRepeat + 1), cs.dropWhile isAsciiDigit)

/-- The bounds of a counted repetition, behind the opening brace. -/
def bounds? (cs : List Char) : Option ((Nat × Option Nat) × List Char) :=
  match count? cs with
  | some (n, '}' :: rest) => some ((n, some n), rest)
  | some (n, ',' :: '}' :: rest) => some ((n, none), rest)
  | some (n, ',' :: rest) =>
    match count? rest with
    | some (m, '}' :: rest) => some ((n, some m), rest)
    | _ => none
  | _ => none

/-- Repeats the last item. -/
def Frame.repeatLast? (f : Frame) (least : Nat) (most : Option Nat) (counted greedy : Bool) :
    Option Frame :=
  match f.items with
  | [] => none
  | i :: is =>
    let repeated := i.times least most counted greedy
    if counted && (2 ≤ least || most.any (2 ≤ ·)) && maxRepeat < repeated.weight then none
    else if repeated.fits then some { f with items := repeated :: is }
    else none

def isNameChar (c : Char) : Bool := isWordChar c

def octalRun (cs : List Char) : List Char := (cs.take 2).takeWhile fun c => '0' ≤ c && c ≤ '7'

def octalValue (cs : List Char) : Nat := cs.foldl (fun n c => 8 * n + Decimal.digitValue c) 0

/-- A character written with an escape, behind the backslash. -/
def escape? : List Char → Option (Nat × List Char)
  | [] => none
  | 'a' :: rest => some (7, rest)
  | 'f' :: rest => some (12, rest)
  | 'n' :: rest => some (10, rest)
  | 'r' :: rest => some (13, rest)
  | 't' :: rest => some (9, rest)
  | 'v' :: rest => some (11, rest)
  | 'x' :: '{' :: rest =>
    let ds := rest.takeWhile Decimal.isHexDigit
    match rest.dropWhile Decimal.isHexDigit with
    | '}' :: rest =>
      let n := Decimal.natOfHex ds
      if ds.isEmpty || 0x10FFFF < n then none else some (n, rest)
    | _ => none
  | 'x' :: a :: b :: rest =>
    if Decimal.isHexDigit a && Decimal.isHexDigit b then some (Decimal.natOfHex [a, b], rest)
    else none
  | c :: rest =>
    if '0' ≤ c ∧ c ≤ '7' then
      let more := octalRun rest
      if c ≠ '0' ∧ more.isEmpty then none
      else some (octalValue (c :: more), rest.drop more.length)
    else if c.toNat < 0x80 ∧ !isAsciiLetter c ∧ !isAsciiDigit c then some (c.toNat, rest)
    else none

/-- One end of a range inside brackets. -/
def classChar? : List Char → Option (Nat × List Char)
  | [] => none
  | '\\' :: rest => escape? rest
  | c :: rest => some (c.toNat, rest)

/-- What precedes and follows the first colon with a closing bracket behind it. -/
def cutAtColon : List Char → Option (List Char × List Char)
  | [] => none
  | ':' :: ']' :: rest => some ([], rest)
  | c :: rest => (cutAtColon rest).map fun (a, b) => (c :: a, b)

/-- A property behind the letter that announces it, and whether it is negated: a single letter,
or a name in braces. -/
def property? (negated : Bool) : List Char → Option ((Property × Bool) × List Char)
  | '{' :: rest =>
    (cutAt '}' rest).bind fun (name, after) =>
      match name with
      | '^' :: bare => (Property.ofName? bare).map fun p => ((p, !negated), after)
      | bare => (Property.ofName? bare).map fun p => ((p, negated), after)
  | c :: rest => (Property.ofName? [c]).map fun p => ((p, negated), rest)
  | [] => none

/-- A set behind a backslash. Nothing when no set starts there; an unknown property is refused. -/
def escapedSet? (flags : Flags) : List Char → Option (Option (CharSet × List Char))
  | [] => none
  | c :: rest =>
    if c = 'p' ∨ c = 'P' then
      some ((property? (c = 'P') rest).map fun ((p, negated), rest) =>
        (CharSet.close (.property p) flags.fold negated, rest))
    else
      (CharSet.short? (lowerAscii c)).map fun set =>
        some (set.close flags.fold (isAsciiUpper c), rest)

/-- A named set at the start of the text, in brackets and colons. Nothing when the text does not
start with such brackets; an unknown name is refused. -/
def namedSet? (flags : Flags) (cs : List Char) : Option (Option (CharSet × List Char)) :=
  match cs with
  | '[' :: ':' :: rest =>
    (cutAtColon rest).map fun (name, after) =>
      let (negated, bare) := match name with
        | '^' :: bare => (true, bare)
        | bare => (false, bare)
      (CharSet.named? (String.ofList bare)).map fun set =>
        (set.close flags.fold negated, after)
  | _ => none

/-- A set at the start of a member of a bracketed set. -/
def memberSet? (flags : Flags) (cs : List Char) : Option (Option (CharSet × List Char)) :=
  match namedSet? flags cs with
  | some found => some found
  | none =>
    match cs with
    | '\\' :: rest => escapedSet? flags rest
    | _ => none

/-- The members of a bracketed set up to the closing bracket, which may not come first. -/
def classItems? (flags : Flags) :
    Nat → Bool → List Char → List CharSet → Option (List CharSet × List Char)
  | 0, _, _, _ => none
  | _ + 1, false, ']' :: rest, sets => some (sets, rest)
  | n + 1, _, cs, sets =>
    match memberSet? flags cs with
    | some none => none
    | some (some (set, rest)) => classItems? flags n false rest (set :: sets)
    | none =>
      match classChar? cs with
      | none => none
      | some (lo, '-' :: ']' :: rest) =>
        classItems? flags n false (']' :: rest)
          (.range 45 45 :: CharSet.close (.range lo lo) flags.fold false :: sets)
      | some (lo, '-' :: rest) =>
        match classChar? rest with
        | some (hi, rest) =>
          if hi < lo then none
          else classItems? flags n false rest
            (CharSet.close (.range lo hi) flags.fold false :: sets)
        | none => none
      | some (lo, rest) =>
        classItems? flags n false rest (CharSet.close (.range lo lo) flags.fold false :: sets)

/-- A bracketed set, behind its opening bracket. -/
def class? (flags : Flags) (cs : List Char) : Option (CharSet × List Char) :=
  let (negated, body) := match cs with
    | '^' :: body => (true, body)
    | body => (false, body)
  (classItems? flags (body.length + 1) true body []).map fun (sets, rest) =>
    (CharSet.close (.union sets) false negated, rest)

/-- What follows the opening of a group. -/
inductive Opening where
  | group (flags : Flags) (counted : Bool)
  | setFlags (flags : Flags)

/-- Flags between a question mark and a colon or a parenthesis. `negated` is set behind a minus
sign, `any` once a flag has been read since then. -/
def flags? : List Char → Flags → Bool → Bool → Option (Opening × List Char)
  | [], _, _, _ => none
  | c :: rest, f, negated, any =>
    match c with
    | 'i' => flags? rest { f with fold := !negated } negated true
    | 'm' => flags? rest { f with lines := !negated } negated true
    | 's' => flags? rest { f with dotAll := !negated } negated true
    | 'U' => flags? rest { f with lazy := !negated } negated true
    | '-' => if negated then none else flags? rest f true false
    | ':' => if negated && !any then none else some (.group f false, rest)
    | ')' => if negated && !any then none else some (.setFlags f, rest)
    | _ => none

def groupName? (cs : List Char) (flags : Flags) : Option (Opening × List Char) :=
  let name := cs.takeWhile isNameChar
  match cs.dropWhile isNameChar with
  | '>' :: rest => if name.isEmpty then none else some (.group flags true, rest)
  | _ => none

/-- The opening of a group, behind its parenthesis. -/
def opening? (flags : Flags) : List Char → Option (Opening × List Char)
  | '?' :: 'P' :: '<' :: rest => groupName? rest flags
  | '?' :: '<' :: rest => groupName? rest flags
  | '?' :: rest => flags? rest flags false false
  | rest => some (.group flags true, rest)

/-- What stands between the escapes that open and close a literal text. -/
def quoted : List Char → List Char × List Char
  | [] => ([], [])
  | '\\' :: 'E' :: rest => ([], rest)
  | c :: rest =>
    let (inside, after) := quoted rest
    (c :: inside, after)

/-- An item that starts with a backslash, behind it. -/
def escapedItem? (flags : Flags) : List Char → Option (List Item × List Char)
  | 'A' :: rest => some ([.ofTest .textStart], rest)
  | 'z' :: rest => some ([.ofTest .textEnd], rest)
  | 'b' :: rest => some ([.ofTest .wordEdge], rest)
  | 'B' :: rest => some ([.ofTest .noWordEdge], rest)
  | 'Q' :: rest =>
    let (inside, after) := quoted rest
    some (inside.map fun c => setItem flags (.single c), after)
  | cs =>
    match escapedSet? flags cs with
    | some found => found.map fun (set, rest) => ([.ofSet set], rest)
    | none => (escape? cs).map fun (n, rest) => ([setItem flags (.range n n)], rest)

/-- A lazy mark behind a repetition. -/
def greed (flags : Flags) : List Char → Bool × List Char
  | '?' :: rest => (flags.lazy, rest)
  | rest => (!flags.lazy, rest)

structure ReaderState where
  flags : Flags := {}
  frame : Frame := {}
  stack : List Frame := []
  /-- The last thing read was a repetition. -/
  justRepeated : Bool := false

namespace ReaderState

def push (s : ReaderState) (i : Item) : ReaderState :=
  { s with frame := s.frame.push i, justRepeated := false }

def pushAll (s : ReaderState) (is : List Item) : ReaderState :=
  { is.foldl push s with justRepeated := false }

def repeat? (s : ReaderState) (least : Nat) (most : Option Nat) (counted : Bool)
    (cs : List Char) : Option (ReaderState × List Char) :=
  let (greedy, rest) := greed s.flags cs
  if s.justRepeated then none
  else (s.frame.repeatLast? least most counted greedy).map fun frame =>
    ({ s with frame, justRepeated := true }, rest)

def openGroup (s : ReaderState) : Opening → ReaderState
  | .setFlags flags => { s with flags, justRepeated := false }
  | .group flags counted =>
    { s with
      flags
      frame := { outer := s.flags, counted }
      stack := s.frame :: s.stack
      justRepeated := false }

def closeGroup? (s : ReaderState) : Option ReaderState :=
  match s.stack with
  | [] => none
  | parent :: stack =>
    let item := s.frame.close
    if item.fits then
      some { s with
        flags := s.frame.outer
        frame := parent.push item
        stack
        justRepeated := false }
    else none

/-- Reads one thing. -/
def step? (s : ReaderState) : List Char → Option (ReaderState × List Char)
  | [] => none
  | c :: rest =>
    match c with
    | '(' => do
      let (opening, rest) ← opening? s.flags rest
      return (s.openGroup opening, rest)
    | ')' => s.closeGroup?.map (·, rest)
    | '|' => some ({ s with frame := s.frame.divide, justRepeated := false }, rest)
    | '*' => s.repeat? 0 none false rest
    | '+' => s.repeat? 1 none false rest
    | '?' => s.repeat? 0 (some 1) false rest
    | '{' =>
      match bounds? rest with
      | none => some (s.push (setItem s.flags (.single c)), rest)
      | some ((least, most), rest) =>
        if maxRepeat < least || most.any (fun m => maxRepeat < m || m < least) then none
        else s.repeat? least most true rest
    | '[' => (class? s.flags rest).map fun (set, rest) => (s.push (.ofSet set), rest)
    | '.' => some (s.push (anyChar s.flags), rest)
    | '^' => some (s.push (.ofTest (if s.flags.lines then .lineStart else .textStart)), rest)
    | '$' => some (s.push (.ofTest (if s.flags.lines then .lineEnd else .textEnd)), rest)
    | '\\' => (escapedItem? s.flags rest).map fun (items, rest) => (s.pushAll items, rest)
    | c => some (s.push (setItem s.flags (.single c)), rest)

/-- Reads everything; each step reads at least one character. -/
def run? : Nat → ReaderState → List Char → Option Pattern
  | _, s, [] =>
    let item := s.frame.close
    if s.stack.isEmpty && item.fits then some item.pattern else none
  | 0, _, _ => none
  | n + 1, s, cs =>
    match s.step? cs with
    | none => none
    | some (s, rest) => run? n s rest

end ReaderState

/-- The pattern that a text describes. -/
def ofText? (text : String) : Option Pattern :=
  ReaderState.run? text.length {} text.toList

end Synthesis.Pattern
