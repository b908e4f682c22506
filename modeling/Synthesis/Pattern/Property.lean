import Synthesis.Text.Category
import Synthesis.Text.Script

/-!
Properties of code points that patterns know by name: general categories and their groups, the
cased letters, the assigned code points, ASCII, and the scripts. Names are compared without regard
to case, blanks, underscores and hyphens.
-/
namespace Synthesis

inductive Property where
  | any
  | ascii
  | assigned
  | cased
  | group (letter : Char)
  | category (c : Text.Category)
  | script (name : String)
  deriving Inhabited

namespace Property

open Synthesis.Text

def holds : Property → Nat → Bool
  | .any, _ => true
  | .ascii, n => n < 0x80
  | .assigned, n => Category.ofCode n != .unassigned
  | .cased, n => (Category.ofCode n).isCased
  | .group letter, n => (Category.ofCode n).group == letter
  | .category c, n => Category.ofCode n == c
  | .script name, n => Script.ofCode n == name

/-- The kinds of categories in each group. -/
def kinds : List (Char × List Char) :=
  [('L', ['u', 'l', 't', 'm', 'o']), ('M', ['n', 'c', 'e']), ('N', ['d', 'l', 'o']),
    ('P', ['c', 'd', 's', 'e', 'i', 'f', 'o']), ('S', ['m', 'c', 'k', 'o']), ('Z', ['s', 'l', 'p']),
    ('C', ['c', 'f', 's', 'o', 'n'])]

/-- The property with a name of one or two letters, of which only the first is a capital. -/
def ofLetters? : List Char → Option Property
  | [g] => if (kinds.lookup g).isSome then some (.group g) else none
  | [g, k] => if (kinds.lookup g).any (·.contains k) then some (.category ⟨g, k⟩) else none
  | _ => none

/-- Further names of the groups and categories, in canonical form. -/
def longNames : List (String × String) := [
  ("Letter", "L"), ("Uppercaseletter", "Lu"), ("Lowercaseletter", "Ll"),
  ("Titlecaseletter", "Lt"), ("Modifierletter", "Lm"), ("Otherletter", "Lo"), ("Mark", "M"),
  ("Combiningmark", "M"), ("Nonspacingmark", "Mn"), ("Spacingmark", "Mc"), ("Enclosingmark", "Me"),
  ("Number", "N"), ("Decimalnumber", "Nd"), ("Digit", "Nd"), ("Letternumber", "Nl"),
  ("Othernumber", "No"), ("Punctuation", "P"), ("Punct", "P"), ("Connectorpunctuation", "Pc"),
  ("Dashpunctuation", "Pd"), ("Openpunctuation", "Ps"), ("Closepunctuation", "Pe"),
  ("Initialpunctuation", "Pi"), ("Finalpunctuation", "Pf"), ("Otherpunctuation", "Po"),
  ("Symbol", "S"), ("Mathsymbol", "Sm"), ("Currencysymbol", "Sc"), ("Modifiersymbol", "Sk"),
  ("Othersymbol", "So"), ("Separator", "Z"), ("Spaceseparator", "Zs"), ("Lineseparator", "Zl"),
  ("Paragraphseparator", "Zp"), ("Other", "C"), ("Control", "Cc"), ("Cntrl", "Cc"),
  ("Format", "Cf"), ("Surrogate", "Cs"), ("Privateuse", "Co"), ("Unassigned", "Cn")]

def upperAscii (c : Char) : Char := if isAsciiLower c then Char.ofNat (c.toNat - 32) else c

/-- A capital and small letters after it, without blanks, underscores and hyphens. -/
def canonical (name : List Char) : List Char :=
  match name.filter fun c => c != ' ' && c != '_' && c != '-' with
  | [] => []
  | c :: cs => upperAscii c :: cs.map lowerAscii

def ofCanonical? (name : List Char) : Option Property :=
  match String.ofList name with
  | "Any" => some .any
  | "Assigned" => some .assigned
  | "Ascii" => some .ascii
  | "Lc" | "Casedletter" => some .cased
  | text =>
    match longNames.lookup text with
    | some letters => ofLetters? letters.toList
    | none => ofLetters? name

/-- The script whose name has that canonical form. -/
def script? (name : List Char) : Option Property :=
  (Script.table.runs.find? fun (_, s) => s != "" && canonical s.toList == name).map
    fun (_, s) => .script s

def ofName? (name : List Char) : Option Property :=
  (ofCanonical? (canonical name)).or (script? (canonical name))

end Property

end Synthesis
