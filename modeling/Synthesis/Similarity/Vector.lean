import Synthesis.Table

/-!
Weighted term vectors, over any kind of numbers. A token list becomes the vector of its terms,
each with its share of the tokens times the weight of the term; terms without a weight are left
out. Vectors are compared by their dot product and their squared norms. In which order the terms of
a vector are met is not fixed: every sum over them takes a walk of its own, and rounded numbers may
come out differently in the last places for another walk.
-/
namespace Synthesis

/-- An order in which the terms of a vector are met. -/
structure Walk where
  order : List String → List String
  perm : ∀ terms, (order terms).Perm terms

/-- The terms as they first stand in the text. -/
def Walk.inOrder : Walk := ⟨id, fun terms => .refl terms⟩

/-- A walk for each of several sums. -/
abbrev Walks := Nat → Walk

def Walks.inOrder : Walks := fun _ => .inOrder

namespace TermVector

variable {α : Type} [Zero α] [Add α] [Mul α] [Div α] [NatCast α]

def sum (xs : List α) : α := xs.foldl (· + ·) 0

def share (term : String) (tokens : List String) : α :=
  (tokens.count term : α) / (tokens.length : α)

/-- The entry of a term, if the term has a weight. -/
def slot? (weight : String → Option α) (tokens : List String) (term : String) :
    Option (String × α) :=
  (weight term).map fun w => (term, share term tokens * w)

def ofTokens (walk : Walk) (weight : String → Option α) (tokens : List String) :
    List (String × α) :=
  (walk.order (Text.distinct tokens)).filterMap (slot? weight tokens)

def coefficient (v : List (String × α)) (term : String) : α := (Table.find term v).getD 0

def dot (u v : List (String × α)) : α := sum (u.map fun (t, w) => w * coefficient v t)

def normSquared (v : List (String × α)) : α := sum (v.map fun (_, w) => w * w)

end TermVector

end Synthesis
