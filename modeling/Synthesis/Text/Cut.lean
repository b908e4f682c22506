import Synthesis.Text.Blank

/-!
Cutting texts: at every occurrence of a character, at the first occurrence of a character, and
at a leading or inner piece. Texts are handled as lists of characters.
-/
namespace Synthesis.Text

/-- The pieces between the occurrences of `sep`; there is always at least one piece. -/
def splitAt (sep : Char) : List Char → List (List Char)
  | [] => [[]]
  | c :: cs =>
    if c = sep then [] :: splitAt sep cs
    else match splitAt sep cs with
      | [] => [[c]]
      | w :: ws => (c :: w) :: ws

def lines (s : String) : List String :=
  (splitAt '\n' s.toList).map String.ofList

/-- The text before and after the first occurrence of `sep`. -/
def cutAt (sep : Char) : List Char → Option (List Char × List Char)
  | [] => none
  | c :: cs => if c = sep then some ([], cs) else (cutAt sep cs).map fun (a, b) => (c :: a, b)

theorem eq_of_cutAt {sep : Char} {cs before after : List Char}
    (h : cutAt sep cs = some (before, after)) : cs = before ++ sep :: after := by
  induction cs generalizing before with
  | nil => simp [cutAt] at h
  | cons c cs ih =>
    unfold cutAt at h
    split at h
    next hc => simp_all
    next hc =>
      obtain ⟨⟨a, b⟩, hcut, hpair⟩ := Option.map_eq_some_iff.mp h
      obtain ⟨rfl, rfl⟩ := Prod.mk.inj hpair
      rw [ih hcut, List.cons_append]

/-- What follows `lead`, or everything when the text does not start with `lead`. -/
def dropLead (lead cs : List Char) : List Char :=
  if lead.isPrefixOf cs then cs.drop lead.length else cs

/-- `part` occurs in the text as consecutive characters. -/
def hasPart (part : List Char) : List Char → Bool
  | [] => part.isEmpty
  | c :: cs => part.isPrefixOf (c :: cs) || hasPart part cs

def contains (s part : String) : Bool :=
  hasPart part.toList s.toList

def startsWith (s lead : String) : Bool :=
  lead.toList.isPrefixOf s.toList

def join (sep : String) : List String → String
  | [] => ""
  | [s] => s
  | s :: rest => s ++ sep ++ join sep rest

def isNewline (c : Char) : Bool := c = '\n'

/-- The text without the newlines at its end. -/
def dropLastNewlines (s : String) : String :=
  String.ofList (dropRightWhile isNewline s.toList)

/-- The text without the newlines at both ends. -/
def dropOuterNewlines (s : String) : String :=
  String.ofList (strip isNewline s.toList)

end Synthesis.Text
