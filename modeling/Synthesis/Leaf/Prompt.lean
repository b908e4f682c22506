import Synthesis.Leaf.Candidate

/-!
Talking to a language model: the prompt that describes a leaf, and the code in the model's
answer, which is the content of its first fenced block or else the whole answer.
-/
namespace Synthesis.Prompt

open Synthesis.Text

def item (text : String) : String := "- " ++ text ++ "\n"

/-- A title and a list below it; nothing without items. -/
def listing (title : String) (items : List String) : String :=
  if items.isEmpty then "" else title ++ ":\n" ++ String.join items

def fence : String := "```"

def testItem (t : TestCase) : String :=
  if t.source = "" then item t.name
  else fence ++ "\n" ++ trim t.source ++ "\n" ++ fence ++ "\n"

def render (s : Specification) (c : Context) (hints : Hints) : String :=
  "Task: " ++ trim s.description ++ "\n"
    ++ (if s.hasTypeSignature then "Signature: " ++ trim s.typeSignature ++ "\n" else "")
    ++ listing "Constraints" (s.constraintList.map item)
    ++ listing "Examples"
      (s.exampleList.map fun e => item (e.input.plain ++ " -> " ++ e.output.plain))
    ++ listing "Tests" (s.testList.map testItem)
    ++ listing "Already solved (reuse, do not repeat)" (c.solved.sortedNames.map item)
    ++ listing "Available helpers"
      (hints.abstractions.map fun a =>
        item (a.abstraction.name ++ ": " ++ a.abstraction.description))
    ++ listing "The previous attempt was rejected" (hints.issues.map item)

/-- Characters of the word behind an opening fence. -/
def isTagChar (c : Char) : Bool := isWordChar c || c == '+' || c == '-'

/-- What stands in front of the first fence. -/
def beforeFence : List Char → Option (List Char)
  | [] => none
  | c :: cs =>
    if fence.toList.isPrefixOf (c :: cs) then some [] else (beforeFence cs).map (c :: ·)

/-- The content of a fenced block that opens at the start of the text. -/
def blockAt? (cs : List Char) : Option (List Char) :=
  if fence.toList.isPrefixOf cs then
    match (cs.drop fence.length).dropWhile isTagChar with
    | '\n' :: body => beforeFence body
    | _ => none
  else none

def firstBlock? : List Char → Option (List Char)
  | [] => none
  | c :: cs => (blockAt? (c :: cs)).or (firstBlock? cs)

/-- The code in an answer, and whether it was fenced. -/
def codeIn (reply : String) : String × Bool :=
  match firstBlock? reply.toList with
  | some block => (dropLastNewlines (String.ofList block), true)
  | none => (trim reply, false)

end Synthesis.Prompt
