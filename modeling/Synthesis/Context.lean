import Synthesis.Specification

/-!
Artifacts and the context in which a specification is solved: the primitives that may be used,
a library of named values, and the artifacts of what is solved already. A context that is missing is
kept apart from one whose maps are missing, and both from one with empty maps; all three are read
alike.
-/
namespace Synthesis

/-- Synthesized code, how sure its producer is of it, and the producer. -/
structure Artifact where
  code : String := ""
  confidence : Float := 0
  producer : String := ""
  deriving Inhabited

namespace Artifact

def cbor (a : Artifact) : Cbor :=
  .fields (
    [("code", .text a.code)]
    ++ (if a.confidence == 0 then [] else [("confidence", .float a.confidence)])
    ++ (if a.producer = "" then [] else [("producer", .text a.producer)]))

end Artifact

/-- The maps of a context. One that is missing is read like an empty one. -/
structure Contents where
  primitives : Option (List String) := none
  library : Option (Table Value) := none
  solved : Option (Table Artifact) := none
  /-- Handles for collaborators, which are no content. -/
  resources : Option (Table Value) := none
  deriving Inhabited

/-- No map is missing, and none has entries. -/
def Contents.fresh : Contents where
  primitives := some []
  library := some {}
  solved := some {}
  resources := some {}

/-- A context may be missing as a whole. -/
structure Context where
  contents : Option Contents := none
  deriving Inhabited

namespace Context

/-- A context in which the named primitives may be used; repetitions do not count. -/
def ofPrimitives (names : List String) : Context :=
  ⟨some { Contents.fresh with primitives := some (Text.distinct names) }⟩

def primitives (c : Context) : List String := (c.contents.bind (·.primitives)).getD []

def library (c : Context) : Table Value := (c.contents.bind (·.library)).getD {}

def solved (c : Context) : Table Artifact := (c.contents.bind (·.solved)).getD {}

def resources (c : Context) : Table Value := (c.contents.bind (·.resources)).getD {}

def hasPrimitive (c : Context) (name : String) : Bool := c.primitives.contains name

def lookup? (c : Context) (description : String) : Option Artifact := c.solved.get? description

/-- The context with more solved descriptions, later entries overriding earlier ones. A context
that is missing is taken for a fresh one. -/
def withSolvedAll (c : Context) (entries : List (String × Artifact)) : Context :=
  ⟨some { c.contents.getD .fresh with solved := some (c.solved.insertAll entries) }⟩

@[simp] theorem solved_withSolvedAll (c : Context) (entries : List (String × Artifact)) :
    (c.withSolvedAll entries).solved = c.solved.insertAll entries := rfl

@[simp] theorem primitives_withSolvedAll (c : Context) (entries : List (String × Artifact)) :
    (c.withSolvedAll entries).primitives = c.primitives := by
  obtain ⟨_ | contents⟩ := c
  · rfl
  · rfl

@[simp] theorem library_withSolvedAll (c : Context) (entries : List (String × Artifact)) :
    (c.withSolvedAll entries).library = c.library := by
  obtain ⟨_ | contents⟩ := c
  · rfl
  · rfl

def withSolved (c : Context) (description : String) (solution : Artifact) : Context :=
  c.withSolvedAll [(description, solution)]

/-- The key of a context: its primitives and library names as sets, and what is solved. A context
that is missing, or a map, has the key of an empty one. -/
def contentKey (c : Context) : String :=
  Key.ofParts [.text "context", Cbor.texts (Text.sort (Text.distinct c.primitives)),
    Cbor.texts c.library.sortedNames,
    .map (c.solved.entries.map fun (d, a) => (.text d, a.cbor))]

end Context

end Synthesis
