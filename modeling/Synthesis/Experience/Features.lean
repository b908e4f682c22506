import Synthesis.Specification
import Synthesis.Text.AsciiCase

/-!
Features of a specification: a fixed set of named counts, by which specifications are compared.
Outcomes that were stored elsewhere may bring any real number as a feature.
-/
namespace Synthesis

/-- How strongly a feature is present. -/
inductive Level where
  | count (n : Nat)
  | real (x : Float)

def Level.toFloat : Level → Float
  | .count n => n.toFloat
  | .real x => x

abbrev Features := Table Level

namespace Features

open Synthesis.Text

/-- A description is short below the first and long from the second number of words on. -/
def shortWords : Nat := 5

def longWords : Nat := 20

def crudWords : List String :=
  ["create", "read", "update", "delete", "insert", "remove", "add", "get", "fetch", "store",
   "save", "list"]

def transformWords : List String :=
  ["convert", "transform", "map", "parse", "format", "filter", "sort", "reverse", "sum",
   "aggregate", "merge", "flatten"]

def validationWords : List String :=
  ["validate", "check", "verify", "ensure", "valid", "invalid", "sanitize", "assert"]

def isPunctuation (c : Char) : Bool := ".,;:!?()[]\x7b\x7d\"'".toList.contains c

def bare (word : String) : String := String.ofList (strip isPunctuation word.toList)

def mentions (words keywords : List String) : Bool := words.any fun w => keywords.contains (bare w)

/-- A bracket and, later on the same line, a closing bracket. -/
def hasBracketPair (sig : String) : Bool :=
  (lines sig).any fun line => (line.toList.dropWhile (· != '[')).contains ']'

def flag (b : Bool) : Level := .count (if b then 1 else 0)

/-- The names of the features of a specification, in their order. -/
def order : List String :=
  ["constraint_count", "desc_long", "desc_medium", "desc_short", "example_count", "has_constraints",
   "has_examples", "has_function_type", "has_generic", "has_type", "is_crud", "is_transform",
   "is_validation", "type_complexity"]

theorem nodup_order : order.Nodup := by decide

def ofSpecification (s : Specification) : Features :=
  let words := Text.words (lower s.description)
  let n := words.length
  let sig := trim s.typeSignature
  ⟨[("constraint_count", .count s.constraintList.length),
    ("desc_long", flag (longWords ≤ n)),
    ("desc_medium", flag (shortWords ≤ n && n < longWords)),
    ("desc_short", flag (n < shortWords)),
    ("example_count", .count s.exampleList.length),
    ("has_constraints", flag (!s.constraintList.isEmpty)),
    ("has_examples", flag (!s.exampleList.isEmpty)),
    ("has_function_type", flag (contains sig "->")),
    ("has_generic", flag (hasBracketPair sig)),
    ("has_type", flag (sig != "")),
    ("is_crud", flag (mentions words crudWords)),
    ("is_transform", flag (mentions words transformWords)),
    ("is_validation", flag (mentions words validationWords)),
    ("type_complexity", .count (runs isWordChar sig.toList).length)],
    nodup_order⟩

def value (f : Features) (name : String) : Float := ((f.get? name).map Level.toFloat).getD 0

def floatSum (xs : List Float) : Float := xs.foldl (· + ·) 0

def normSquared (f : Features) : Float :=
  floatSum (f.values.map fun l => l.toFloat * l.toFloat)

def dot (f g : Features) : Float :=
  floatSum (f.entries.map fun (k, l) => l.toFloat * g.value k)

/-- The cosine of two feature vectors, at least zero and at most one where it is defined. -/
def similarity (f g : Features) : Float :=
  if f.entries.isEmpty || g.entries.isEmpty then 0
  else
    let nf := f.normSquared
    let ng := g.normSquared
    if nf == 0 || ng == 0 then 0
    else
      let sim := f.dot g / (nf.sqrt * ng.sqrt)
      if sim < 0 then 0 else if 1 < sim then 1 else sim

end Features

end Synthesis
