import Synthesis.Leaf.Candidate

/-!
A generator that needs no model: it writes the head of a function, with comments that say what
the function has to do, and leaves the body open.
-/
namespace Synthesis.Scaffold

def confidence : Float := 0.5

/-- At most this many words make a function's name. -/
def nameWords : Nat := 4

/-- A name made of the first words of a description. -/
def functionName (description : String) : String :=
  match (Tokens.all description).take nameWords with
  | [] => "solve"
  | words =>
    let name := Text.join "_" words
    if name.toList.head?.any Text.isAsciiDigit then "f_" ++ name else name

def comment (text : String) : String := "# " ++ text ++ "\n"

def code (s : Specification) (hints : Hints) : String :=
  comment s.summary
    ++ String.join (s.constraintList.map fun c => comment ("requires: " ++ c))
    ++ String.join (hints.abstractions.map fun a => comment ("uses: " ++ a.abstraction.name))
    ++ "def " ++ functionName s.description ++ "("
    ++ (if s.hasTypeSignature then "args" else "*args")
    ++ "):\n    raise NotImplementedError"

def candidate (s : Specification) (hints : Hints) : Candidate :=
  { success := true, code := code s hints, confidence }

def generator {σ : Type} : Generator σ := fun s _ hints call state =>
  match call.stopped with
  | some why => ⟨.error (.interrupted why), some why, state⟩
  | none => ⟨.ok (candidate s hints), none, state⟩

end Synthesis.Scaffold
