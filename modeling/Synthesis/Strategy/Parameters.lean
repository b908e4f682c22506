import Synthesis.Strategy.Basic
import Synthesis.Signature

/-!
Splitting along the type signature: one step prepares each parameter, and a last step combines
the prepared parameters into the result. A preparing step has a signature with its parameter
alone, and the combining step has none.
-/
namespace Synthesis.Strategy.Parameters

def genericConstraint : String := "preserve the generic element types of the signature"

/-- Parts of a generic signature keep its element types. -/
def constrained (sig : Signature) (s : Specification) : Specification :=
  if sig.isGeneric then s.constrain genericConstraint else s

/-- The signature with the parameter alone, which returns its type. -/
def alone (p : Param) : String := "(" ++ p.name ++ ": " ++ p.type ++ ") -> " ++ p.type

def preparation (s : Specification) (sig : Signature) (p : Param) : Specification :=
  let child := s.derive
    (s.description ++ ": prepare parameter " ++ p.name ++ " of type " ++ p.type) []
  constrained sig { child with typeSignature := alone p }

def combination (s : Specification) (sig : Signature) : Specification :=
  let result := if sig.returns = "" then "the result" else sig.returns
  let child := s.derive
    (s.description ++ ": combine " ++ Text.join ", " (sig.params.map (·.name)) ++ " into "
      ++ result)
    s.testList
  constrained sig { child with typeSignature := "" }

def split (s : Specification) (sig : Signature) : List Subproblem :=
  let n := sig.params.length
  sig.params.zipIdx.map (fun (p, i) =>
    { specification := preparation s sig p, priority := i, slot := "param:" ++ p.name })
  ++ [{ specification := combination s sig
        dependencies := (List.range n).map Int.ofNat
        priority := n
        slot := "combine" }]

/-- A signature with at least two parameters is split. -/
def decompose (s : Specification) : List Subproblem :=
  match Signature.parse? s.typeSignature with
  | some sig => if sig.params.length < 2 then [] else split s sig
  | none => []

/-- Points for a signature, for the number of its parameters, for their distinct types and for
a result type. -/
def estimate (s : Specification) : Float :=
  if !s.hasTypeSignature then 0
  else match Signature.parse? s.typeSignature with
    | none => 0.3
    | some sig =>
      let types := Text.distinct (sig.params.map (·.type))
      let score := 0.3 + 0.2 * ratio sig.params.length 4
      let score := score + 0.2 * ratio types.length 3
      let score := if sig.returns = "" then score else score + 0.1
      clampScore score

end Synthesis.Strategy.Parameters

namespace Synthesis

def Strategy.parameters : Strategy where
  metadata :=
    { name := "type_driven"
      description := "Decompose along the type signature: prepare each parameter, then combine "
        ++ "them into the return type"
      keywords := ["type", "types", "signature", "parameter", "parameters", "return", "generic",
        "typed", "function", "argument"] }
  canHandle s _ := s.hasTypeSignature
  decompose s _ := .ok (Parameters.decompose s)
  estimate s _ := Parameters.estimate s

end Synthesis
