import Synthesis.Failure
import Synthesis.Context

/-!
Composition: the artifacts of the subproblems become one artifact. Sequential composition
concatenates them; function composition makes one dispatcher with a branch for each condition
and a common fallback; code composition puts the imports of all parts first, each once, and then
the bodies in dependency order.
-/
namespace Synthesis

/-- A subproblem with its solution, or with the failure that stands in its place. -/
structure Part where
  index : Int
  subproblem : Subproblem
  solution : Option Artifact := none
  failure : Option Failure := none

inductive Composer where
  | sequential
  | function
  | code
  deriving Repr, DecidableEq

namespace Composition

inductive Fault where
  | misplaced (slot : String) (position : Nat) (index : Int)
  | missing (slot : String) (index : Int) (cause : Option Failure)
  | slotClash (slot : String) (first second : Int)
  | invalidOrder (fault : DependencyFault)

def Fault.failure : Fault → Failure
  | .misplaced slot position index =>
    .composition slot
      ("part " ++ Decimal.natText position ++ " has index " ++ Decimal.intText index) none
  | .missing slot index cause =>
    .composition slot ("missing sub-solution for subproblem " ++ Decimal.intText index) cause
  | .slotClash slot first second =>
    .composition slot
      ("subproblems " ++ Decimal.intText first ++ " and " ++ Decimal.intText second
        ++ " claim the same slot") none
  | .invalidOrder fault =>
    .composition "" "invalid dependency order" (some fault.failure)

/-- Parts in their places, each solved, each with a slot of its own: the subproblems with their
solutions, or the first fault. -/
def solvedFrom : Nat → Table Int → List Part → Except Fault (List (Subproblem × Artifact))
  | _, _, [] => .ok []
  | i, slots, p :: rest =>
    let slot := p.subproblem.slotName p.index
    if p.index ≠ i then .error (.misplaced slot i p.index)
    else match p.solution with
      | none => .error (.missing slot p.index p.failure)
      | some a =>
        match slots.get? slot with
        | some first => .error (.slotClash slot first p.index)
        | none =>
          (solvedFrom (i + 1) (slots.insert slot p.index) rest).map ((p.subproblem, a) :: ·)

def solved (parts : List Part) : Except Fault (List (Subproblem × Artifact)) :=
  solvedFrom 0 {} parts

/-- The confidence of the weakest part, and full confidence without parts. -/
def confidence (solutions : List Artifact) : Float :=
  solutions.foldl (fun c a => if a.confidence < c then a.confidence else c) 1

/-- The lines of a text without its last newlines, the non-empty ones moved to the right. -/
def indent (margin code : String) : String :=
  Text.join "\n" ((Text.lines (Text.dropLastNewlines code)).map fun line =>
    if line = "" then line else margin ++ line)

def sequentialCode (codes : List String) : String :=
  Text.join "\n\n" (codes.map Text.dropLastNewlines)

def branchMargin : String := "    "

def branchText (condition code : String) : String :=
  "  when " ++ condition ++ ":\n" ++ indent branchMargin code ++ "\n"

def fallbackText (codes : List String) : String :=
  if codes.isEmpty then ""
  else "  otherwise:\n" ++ Text.join "\n" (codes.map (indent branchMargin)) ++ "\n"

def dispatcherCode (title : String) (parts : List (Subproblem × Artifact)) : String :=
  let branches := parts.filter fun (p, _) => p.condition != ""
  let others := parts.filter fun (p, _) => p.condition == ""
  Text.dropLastNewlines (
    "dispatch " ++ Text.quote title ++ ":\n"
      ++ String.join (branches.map fun (p, a) => branchText p.condition a.code)
      ++ fallbackText (others.map fun (_, a) => a.code))

def isImport (line : String) : Bool :=
  let t := Text.trim line
  Text.startsWith t "import " || (Text.startsWith t "from " && Text.contains t " import ")

/-- The import lines of a text, trimmed. -/
def imports (code : String) : List String :=
  ((Text.lines code).filter isImport).map Text.trim

/-- The other lines of a text, without the newlines around them. -/
def body (code : String) : String :=
  Text.dropOuterNewlines (Text.join "\n" ((Text.lines code).filter (!isImport ·)))

/-- The texts in order, with their imports first, each once. -/
def assembledCode (codes : List String) : String :=
  let heads := Text.distinct (codes.flatMap imports)
  let bodies := Text.join "\n\n" ((codes.map body).filter (· != ""))
  if heads.isEmpty then bodies else Text.join "\n" heads ++ "\n\n" ++ bodies

end Composition

namespace Composer

open Synthesis.Composition

def name : Composer → String
  | .sequential => "sequential"
  | .function => "function"
  | .code => "code"

/-- A dispatcher when some subproblem has a condition, assembled code when some subproblem
depends on another, else a sequence. -/
def select (subs : List Subproblem) : Composer :=
  if subs.any (·.condition != "") then .function
  else if subs.any (!·.dependencies.isEmpty) then .code
  else .sequential

def codeOf (c : Composer) (s : Specification) (parts : List (Subproblem × Artifact)) :
    Except Fault String :=
  match c with
  | .sequential => .ok (sequentialCode (parts.map (·.2.code)))
  | .function => .ok (dispatcherCode s.summary parts)
  | .code =>
    let subs := parts.map (·.1)
    match Decomposition.fault? subs with
    | some fault => .error (.invalidOrder fault)
    | none =>
      .ok (assembledCode ((Decomposition.executionOrder subs).filterMap fun i =>
        parts[i]?.map (·.2.code)))

def compose (c : Composer) (parts : List Part) (s : Specification) : Except Fault Artifact := do
  let ps ← solved parts
  let code ← c.codeOf s ps
  return { code, confidence := confidence (ps.map (·.2)), producer := "compose/" ++ c.name }

end Composer

end Synthesis
