import Synthesis.Context
import Synthesis.Similarity.Corpus

/-!
A library of abstractions: named pieces of code that a leaf may reuse, found by their names and
descriptions. How often a leaf used one, and how often with success, moves its score. The search
index is built when it is needed and dropped when an abstraction is learned.
-/
namespace Synthesis

structure Abstraction where
  name : String := ""
  description : String := ""
  code : String := ""
  uses : Nat := 0
  successes : Nat := 0
  deriving Inhabited

namespace Abstraction

section Rate

variable {α : Type} [Add α] [Mul α] [Div α] [NatCast α] [OfScientific α]

/-- The share of uses that succeeded, and one half before the first use. -/
def successRate (a : Abstraction) : α :=
  if a.uses = 0 then 0.5 else (a.successes : α) / (a.uses : α)

/-- The similarity of a document counts fully for an abstraction that always succeeded. -/
def adjusted (a : Abstraction) (similarity : α) : α := similarity * (0.8 + 0.2 * a.successRate)

end Rate

def document (a : Abstraction) : Document := ⟨a.name, a.name ++ " " ++ a.description⟩

def use (a : Abstraction) (success : Bool) : Abstraction :=
  { a with uses := a.uses + 1, successes := a.successes + (if success then 1 else 0) }

end Abstraction

structure Scored (α : Type) where
  abstraction : Abstraction
  score : α

abbrev ScoredAbstraction := Scored Float

/-- The walks of a search in a library: of the index, which is built unless there is one, of the
scores by the index, of the index of the context's library, and of the scores by that one. -/
structure SearchWalks where
  index : Walks
  scores : Walks
  contextIndex : Walks
  contextScores : Walks

def SearchWalks.inOrder : SearchWalks := ⟨.inOrder, .inOrder, .inOrder, .inOrder⟩

inductive AbstractionError where
  | unnamed
  | unknown (name : String)
  deriving Repr, DecidableEq

def AbstractionError.message : AbstractionError → String
  | .unnamed => "abstraction name is required"
  | .unknown name => "unknown abstraction: " ++ name

structure Abstractions where
  /-- By name, in the order in which they were first learned. -/
  learned : Table Abstraction := {}
  index : Option Corpus := none

namespace Abstractions

def empty : Abstractions := {}

def size (l : Abstractions) : Nat := l.learned.size

def get? (l : Abstractions) (name : String) : Option Abstraction := l.learned.get? name

/-- Learns an abstraction under its trimmed name. Learning a name again replaces description and
code and keeps the counts of its uses. -/
def learn (l : Abstractions) (name description code : String) :
    Except AbstractionError Abstractions :=
  let name := Text.trim name
  if name = "" then .error .unnamed
  else
    let known := (l.get? name).getD { name }
    .ok { learned := l.learned.insert name { known with description, code } }

def recordUse (l : Abstractions) (name : String) (success : Bool) :
    Except AbstractionError Abstractions :=
  match l.get? name with
  | none => .error (.unknown name)
  | some a => .ok { l with learned := l.learned.insert name (a.use success) }

/-- The index of the learned abstractions. -/
def corpus (walks : Walks) (l : Abstractions) : Corpus :=
  .ofDocuments walks (l.learned.values.map (·.document))

def indexed (walks : Walks) (l : Abstractions) : Abstractions :=
  match l.index with
  | some _ => l
  | none => { l with index := some (l.corpus walks) }

section Search

variable {α : Type} [Zero α] [Add α] [Mul α] [Div α] [NatCast α] [OfScientific α] [BEq α] [LT α]
  [DecidableLT α]

/-- The learned abstractions that match a query. -/
def ownHits (A : Scoring α) (walks : Walks) (l : Abstractions) (index : Corpus) (query : String) :
    List (Scored α) :=
  (index.searchIn A walks query 0).filterMap fun h =>
    (l.get? h.name).map fun a => ⟨a, a.adjusted h.score⟩

/-- An entry of a context's library counts a little less than a learned abstraction. -/
def contextWeight : α := 0.9

/-- The entries of the context's library that are not learned under the same name. -/
def contextDocuments (l : Abstractions) (c : Context) : List Document :=
  (c.library.sorted.filter fun (name, _) => (l.get? name).isNone).map fun (name, v) =>
    ⟨name, name ++ " " ++ v.plain⟩

/-- The entries of the context's library that match a query. -/
def contextHits (A : Scoring α) (walks : SearchWalks) (l : Abstractions) (query : String)
    (c : Context) : List (Scored α) :=
  let index := Corpus.ofDocuments walks.contextIndex (l.contextDocuments c)
  (index.searchIn A walks.contextScores query 0).map fun h =>
    let description := ((c.library.get? h.name).map Value.plain).getD ""
    ⟨{ name := h.name, description }, h.score * contextWeight⟩

/-- The higher score first, and by name among equals. -/
def precedes (a b : Scored α) : Bool :=
  if a.score == b.score then Text.le a.abstraction.name b.abstraction.name else b.score < a.score

def searchIn (A : Scoring α) (walks : SearchWalks) (l : Abstractions) (s : Specification)
    (c : Context) (limit : Int) : List (Scored α) × Abstractions :=
  let l := l.indexed walks.index
  let own := l.ownHits A walks.scores (l.index.getD (l.corpus walks.index)) s.query
  (Corpus.limited limit ((own ++ l.contextHits A walks s.query c).mergeSort precedes), l)

end Search

def search (walks : SearchWalks) (l : Abstractions) (s : Specification) (c : Context)
    (limit : Int) : List ScoredAbstraction × Abstractions :=
  l.searchIn Corpus.doubles walks s c limit

end Abstractions

end Synthesis
