import Synthesis.Specification
import Synthesis.Text.AsciiCase

/-!
What a test says about the code under test: its name, the operations it calls, the values it
expects, and the category of behaviour it exercises. A test given as source text is read for
these; a structured test states them.
-/
namespace Synthesis

inductive Category where
  | happyPath
  | validation
  | errorHandling
  | edgeCase
  | general
  deriving Repr, DecidableEq

namespace Category

def name : Category → String
  | .happyPath => "happy_path"
  | .validation => "validation"
  | .errorHandling => "error_handling"
  | .edgeCase => "edge_case"
  | .general => "general"

/-- Words that decide the category, in order of precedence. -/
def rules : List (Category × List String) :=
  [(.errorHandling, ["error", "exception"]),
   (.validation, ["valid"]),
   (.edgeCase, ["empty", "none"]),
   (.happyPath, ["success", "happy"])]

/-- The first category with a word that occurs in the text, whatever the case of letters. -/
def ofText (text : String) : Category :=
  let low := Text.lower text
  match rules.find? fun (_, keywords) => keywords.any (Text.contains low ·) with
  | some (c, _) => c
  | none => .general

end Category

structure TestView where
  index : Int
  name : String
  operations : List String
  expected : List String
  category : Category
  deriving Repr, DecidableEq

namespace TestView

open Synthesis.Text

/-- Blanks inside source text: tab, newline, form feed, carriage return and space. -/
def isSourceBlank (c : Char) : Bool :=
  c == '\t' || c == '\n' || c == '\x0c' || c == '\r' || c == ' '

/-- The name that a definition at the start of the text gives to a test. -/
def definedName? (cs : List Char) : Option (List Char) :=
  let rest? :=
    if "def".toList.isPrefixOf cs then some (cs.drop 3)
    else if "func".toList.isPrefixOf cs then some (cs.drop 4)
    else none
  match rest? with
  | none => none
  | some rest =>
    let name := rest.dropWhile isSourceBlank
    if (rest.head?.any isSourceBlank)
        && ("test".toList.isPrefixOf name || "Test".toList.isPrefixOf name) then
      some (name.takeWhile isWordChar)
    else none

/-- The name of the first test defined in a source text. -/
def findDefinedName? : List Char → Option (List Char)
  | [] => none
  | c :: cs => (definedName? (c :: cs)).or (findDefinedName? cs)

def nameLimit : Nat := 60

def lineName? (source : String) : Option String :=
  ((lines source).map trim).find? (· != "")

/-- The given name, the defined name, the first line that is not blank, or the index. -/
def nameOf (t : TestCase) (index : Int) : String :=
  if t.name ≠ "" then t.name
  else match findDefinedName? t.source.toList with
    | some n => String.ofList n
    | none =>
      match lineName? t.source with
      | some line => String.ofList (line.toList.take nameLimit)
      | none => "test_" ++ Decimal.intText index

/-- The names in front of opening parentheses. A word is looked at where it starts; digits in
front of a name do not belong to it. -/
def calls : Bool → List Char → List String
  | _, [] => []
  | inWord, c :: cs =>
    if isWordChar c then
      let name := (c :: cs.takeWhile isWordChar).dropWhile isAsciiDigit
      let after := (cs.dropWhile isWordChar).dropWhile isSourceBlank
      let found := !inWord && !name.isEmpty && after.head? == some '('
      (if found then [String.ofList name] else []) ++ calls true cs
    else calls false cs

/-- Words that look like calls and are never the code under test. -/
def notOperations : List String :=
  ["def", "func", "assert", "if", "for", "while", "return", "print", "lambda", "raises",
   "isinstance", "len", "str", "int", "list", "dict", "set", "tuple", "Equal", "NoError",
   "Error", "True", "False", "Run", "Fatal", "Fatalf", "Errorf"]

def distinctNonEmpty (xs : List String) : List String := distinct (xs.filter (· != ""))

def sourceOperations (source name : String) : List String :=
  distinctNonEmpty ((calls false source.toList).filter fun c =>
    !notOperations.contains c && c != name)

/-- What a comparison in a line expects: the text after the first double equals sign that has
something behind it, without blanks around it. If there are only blanks, the last one counts. -/
def expectedIn? : List Char → Option (List Char)
  | '=' :: '=' :: rest =>
    if rest.isEmpty then none
    else
      let text := dropRightWhile isSourceBlank (rest.dropWhile isSourceBlank)
      some (if text.isEmpty then rest.drop (rest.length - 1) else text)
  | _ :: cs => expectedIn? cs
  | [] => none

def sourceExpected (source : String) : List String :=
  (lines source).filterMap fun line => (expectedIn? line.toList).map String.ofList

def ofTest (t : TestCase) (index : Int) : TestView :=
  let name := nameOf t index
  let byName := Category.ofText name
  { index
    name
    operations :=
      if t.callList.isEmpty then sourceOperations t.source name else distinctNonEmpty t.callList
    expected :=
      (if t.expected.isNull then [] else [t.expected.plain]) ++ sourceExpected t.source
    category :=
      if byName = .general ∧ t.source ≠ "" then Category.ofText t.source else byName }

/-- The first operation of the test. -/
def primary? (v : TestView) : Option String := v.operations.head?

end TestView

end Synthesis
