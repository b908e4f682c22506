import Synthesis.Similarity.Tokens
import Synthesis.Similarity.Vector

/-!
A corpus of named documents, searched by the similarity of their term vectors to that of a
query. A term weighs more the fewer documents hold it; terms that no document holds do not
count. The similarity is the cosine of the two vectors. The norms of the documents are summed up
when the corpus is made, that of the query and each dot product when it is searched.
-/
namespace Synthesis

instance natCastFloat : NatCast Float := ⟨Nat.toFloat⟩

/-- The nearest number between zero and one; an undefined number counts as zero. -/
def clampUnit (x : Float) : Float :=
  if x < 0 ∨ x.isNaN then 0 else if 1 < x then 1 else x

structure Document where
  name : String
  text : String

/-- A document that was found, with its place in the corpus and its similarity. -/
structure Found (α : Type) where
  name : String
  index : Nat
  score : α

abbrev Hit := Found Float

structure Corpus where
  documents : List Document
  tokens : List (List String)
  /-- The walk of each document's norm. -/
  walks : Walks

/-- What numbers are scored with: a square root, a clamp to the range from zero to one, and the
weight of a term by the number of documents and of those that hold it. -/
structure Scoring (α : Type) where
  root : α → α
  clamp : α → α
  inverseFrequency : Nat → Nat → α

namespace Corpus

def ofDocuments (walks : Walks) (documents : List Document) : Corpus :=
  ⟨documents, documents.map fun d => Tokens.ofText d.text, walks⟩

def size (c : Corpus) : Nat := c.documents.length

/-- The number of documents that hold a term. -/
def documentCount (c : Corpus) (term : String) : Nat := c.tokens.countP (·.contains term)

/-- A positive limit keeps that many. -/
def limited {β : Type} (limit : Int) (xs : List β) : List β :=
  if 0 < limit then xs.take limit.toNat else xs

section Score

variable {α : Type} [Zero α] [Add α] [Mul α] [Div α] [NatCast α] [BEq α]

/-- Only the terms of the corpus have a weight. -/
def weightBy (rarity : String → α) (c : Corpus) (term : String) : Option α :=
  match c.documentCount term with
  | 0 => none
  | _ => some (rarity term)

/-- The vector of a token list, its terms weighed by how rare they are. -/
def vectorBy (rarity : String → α) (c : Corpus) (walk : Walk) (tokens : List String) :
    List (String × α) :=
  TermVector.ofTokens walk (c.weightBy rarity) tokens

/-- The cosine of two vectors by their dot product and their squared norms, and zero when one of
them has no length. -/
def cosineBy (root clamp : α → α) (dot normSquared normSquared' : α) : α :=
  let n := root normSquared
  let n' := root normSquared'
  if n == 0 || n' == 0 then 0 else clamp (dot / (n * n'))

/-- The similarity of each document to the query. The first walk is that of the query's norm, and
the others are those of the dot products. -/
def scoresBy (root clamp : α → α) (rarity : String → α) (walks : Walks) (c : Corpus)
    (query : String) : List α :=
  let vector := c.vectorBy rarity
  let asked := Tokens.ofText query
  c.tokens.zipIdx.map fun (tokens, i) =>
    cosineBy root clamp
      (TermVector.dot (vector (walks (i + 1)) asked) (vector (c.walks i) tokens))
      (TermVector.normSquared (vector (walks 0) asked))
      (TermVector.normSquared (vector (c.walks i) tokens))

@[simp] theorem length_scoresBy (root clamp : α → α) (rarity : String → α) (walks : Walks)
    (c : Corpus) (query : String) :
    (c.scoresBy root clamp rarity walks query).length = c.tokens.length := by
  simp [scoresBy]

/-- A term is rare when few documents hold it. -/
def rarityIn (A : Scoring α) (c : Corpus) (term : String) : α :=
  A.inverseFrequency c.size (c.documentCount term)

def scoresIn (A : Scoring α) (walks : Walks) (c : Corpus) (query : String) : List α :=
  c.scoresBy A.root A.clamp (c.rarityIn A) walks query

/-- The score of one document, and zero outside of the corpus. -/
def similarityIn (A : Scoring α) (walks : Walks) (c : Corpus) (query : String) (index : Int) : α :=
  if 0 ≤ index then ((c.scoresIn A walks query)[index.toNat]?).getD 0 else 0

/-- Documents of positive score, the best first. -/
def found [LT α] [DecidableLT α] (c : Corpus) (scores : List α) (limit : Int) : List (Found α) :=
  let hits := ((c.documents.zip scores).zipIdx.map fun ((d, s), i) =>
    (⟨d.name, i, s⟩ : Found α)).filter fun h => 0 < h.score
  limited limit (hits.mergeSort fun a b => !(a.score < b.score))

def searchIn [LT α] [DecidableLT α] (A : Scoring α) (walks : Walks) (c : Corpus) (query : String)
    (limit : Int) : List (Found α) :=
  c.found (c.scoresIn A walks query) limit

end Score

def inverseFrequency (documents holding : Nat) : Float :=
  Float.log ((1 + documents.toFloat) / (1 + holding.toFloat)) + 1

/-- How doubles are scored. -/
def doubles : Scoring Float := ⟨Float.sqrt, clampUnit, inverseFrequency⟩

def scores (walks : Walks) (c : Corpus) (query : String) : List Float :=
  c.scoresIn doubles walks query

def similarity (walks : Walks) (c : Corpus) (query : String) (index : Int) : Float :=
  c.similarityIn doubles walks query index

def search (walks : Walks) (c : Corpus) (query : String) (limit : Int) : List Hit :=
  c.searchIn doubles walks query limit

end Corpus

end Synthesis
