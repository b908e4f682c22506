import Synthesis.Leaf.Abstractions
import Synthesis.Proofs.Coverage
import Synthesis.Proofs.Lines
import Synthesis.Proofs.Moments
import Mathlib.Algebra.Group.Prod

/-!
The history of a library. Abstractions are learned and used and searched for in any order. Whatever
is done, names stand in the order in which they were first learned, the counts of an abstraction are
those of its uses since then, and the index, where there is one, is that of the abstractions as they
are: learning drops it, and a use changes no document. What a library holds can be told again, by
learning each abstraction and counting its uses, which makes the library anew without an index.
-/
namespace Synthesis

namespace Table

variable {α β : Type} {t : Table α} {name : String}

/-- Replacing a value by one that looks the same from outside changes no view of the table. -/
theorem map_put_of_find {f : α → β} {old new : α} (hf : f new = f old)
    {entries : List (String × α)} (hfind : find name entries = some old) :
    ((put name new entries).map (·.2)).map f = (entries.map (·.2)).map f := by
  induction entries with
  | nil => cases hfind
  | cons x rest ih =>
    rw [find] at hfind
    rw [put]
    by_cases hname : x.1 = name
    · rw [if_pos hname] at hfind ⊢
      obtain rfl := Option.some.inj hfind
      simp [hf]
    · rw [if_neg hname] at hfind ⊢
      rw [List.map_cons, List.map_cons, ih hfind, List.map_cons, List.map_cons]

/-- What holds of every entry still holds when an entry with the same property is put in. -/
theorem forall_mem_insert {P : String × α → Prop} (h : ∀ x ∈ t.entries, P x) {value : α}
    (hvalue : P (name, value)) : ∀ x ∈ (t.insert name value).entries, P x := by
  intro x hx
  rcases mem_of_mem_put hx with rfl | hold
  · exact hvalue
  · exact h x hold

end Table

namespace Abstractions

/-- What is done with a library. -/
inductive Act where
  | learn (name description code : String)
  | use (name : String) (success : Bool)
  | search (walks : SearchWalks) (s : Specification) (c : Context) (limit : Int)

/-- The library after something that may fail, which then leaves it as it was. -/
def settle (l : Abstractions) : Except AbstractionError Abstractions → Abstractions
  | .ok l' => l'
  | .error _ => l

def perform (l : Abstractions) : Act → Abstractions
  | .learn name description code => l.settle (l.learn name description code)
  | .use name success => l.settle (l.recordUse name success)
  | .search walks s c limit => (l.search walks s c limit).2

def after (l : Abstractions) (acts : List Act) : Abstractions := acts.foldl perform l

theorem after_append (l : Abstractions) (earlier later : List Act) :
    l.after (earlier ++ later) = (l.after earlier).after later := List.foldl_append

theorem after_concat (l : Abstractions) (acts : List Act) (a : Act) :
    l.after (acts ++ [a]) = (l.after acts).perform a := by
  rw [after_append]
  rfl

/-- An entry as it comes about by learning and using. -/
structure Entered (x : String × Abstraction) : Prop where
  named : x.2.name = x.1
  trimmed : Text.trim x.1 = x.1
  nonempty : x.1 ≠ ""
  counted : x.2.successes ≤ x.2.uses

/-- Every entry is as it can be, and the index is the current one. -/
structure Sound (l : Abstractions) : Prop where
  entered : ∀ x ∈ l.learned.entries, Entered x
  current : ∀ index, l.index = some index → index = l.corpus index.walks

/-- The walks of the index: those it was built with, or those it would be built with now. -/
def builtWith (l : Abstractions) (walks : Walks) : Walks := (l.index.map (·.walks)).getD walks

variable {l l' : Abstractions} {name description code : String} {success : Bool}

theorem Sound.of_get? (h : l.Sound) {a : Abstraction} (hget : l.get? name = some a) :
    Entered (name, a) := h.entered _ (Table.mem_of_find_eq_some hget)

-- What an act does, for each way in which it can go.

/-- What is learned of a name: the counts stay where the name is known. -/
def taught (l : Abstractions) (name description code : String) : Abstraction :=
  { (l.get? name).getD { name := name } with description := description, code := code }

theorem perform_learn_blank (h : Text.trim name = "") (description code : String) :
    l.perform (.learn name description code) = l := by
  unfold perform Abstractions.learn
  dsimp only
  rw [if_pos h]
  rfl

theorem perform_learn (h : Text.trim name ≠ "") (description code : String) :
    l.perform (.learn name description code) =
      { learned := l.learned.insert (Text.trim name)
          (l.taught (Text.trim name) description code) } := by
  unfold perform Abstractions.learn
  dsimp only
  rw [if_neg h]
  rfl

theorem perform_use_unknown (h : l.get? name = none) (success : Bool) :
    l.perform (.use name success) = l := by
  unfold perform Abstractions.recordUse
  dsimp only
  rw [h]
  rfl

theorem perform_use {a : Abstraction} (h : l.get? name = some a) (success : Bool) :
    l.perform (.use name success) =
      { l with learned := l.learned.insert name (a.use success) } := by
  unfold perform Abstractions.recordUse
  dsimp only
  rw [h]
  rfl

theorem learned_indexed (l : Abstractions) (walks : Walks) :
    (l.indexed walks).learned = l.learned := by
  unfold indexed
  split
  · rfl
  · rfl

theorem Sound.insert (h : l.Sound) {a : Abstraction} (ha : Entered (name, a))
    {index : Option Corpus}
    (hindex : ∀ i, index = some i → i = corpus i.walks { learned := l.learned.insert name a }) :
    Sound { learned := l.learned.insert name a, index := index } where
  entered := Table.forall_mem_insert h.entered ha
  current := hindex

theorem Sound.learn (h : l.Sound) (name description code : String) :
    (l.perform (.learn name description code)).Sound := by
  by_cases hblank : Text.trim name = ""
  · rw [perform_learn_blank hblank]
    exact h
  · rw [perform_learn hblank]
    apply h.insert
    · unfold taught
      cases hget : l.get? (Text.trim name) with
      | none => exact ⟨rfl, Text.trim_trim name, hblank, le_rfl⟩
      | some a =>
        obtain ⟨hnamed, htrimmed, hnonempty, hcounted⟩ := h.of_get? hget
        exact ⟨hnamed, htrimmed, hnonempty, hcounted⟩
    · intro i hi
      cases hi

/-- A use changes no document, so the index stays that of the library. -/
theorem Sound.use (h : l.Sound) (name : String) (success : Bool) :
    (l.perform (.use name success)).Sound := by
  cases hget : l.get? name with
  | none =>
    rw [perform_use_unknown hget]
    exact h
  | some a =>
    obtain ⟨hnamed, htrimmed, hnonempty, hcounted⟩ := h.of_get? hget
    dsimp only at hcounted
    rw [perform_use hget]
    apply h.insert
    · refine ⟨hnamed, htrimmed, hnonempty, ?_⟩
      change a.successes + (if success then 1 else 0) ≤ a.uses + 1
      split
      · omega
      · omega
    · intro i hi
      have hdocument : (a.use success).document = a.document := rfl
      refine (h.current i hi).trans ?_
      exact congrArg (Corpus.ofDocuments i.walks) (Table.map_put_of_find hdocument hget).symm

theorem Sound.indexed (h : l.Sound) (walks : Walks) :
    (l.indexed walks).index = some (l.corpus (l.builtWith walks)) := by
  unfold Abstractions.indexed builtWith
  cases hindex : l.index with
  | some index =>
    rw [Option.map_some, Option.getD_some, ← h.current index hindex]
    exact hindex
  | none => rfl

theorem Sound.perform (h : l.Sound) (a : Act) : (l.perform a).Sound := by
  cases a with
  | learn name description code => exact h.learn name description code
  | use name success => exact h.use name success
  | search walks s c limit =>
    have hlearned := l.learned_indexed walks.index
    change (l.indexed walks.index).Sound
    refine ⟨by rw [hlearned]; exact h.entered, ?_⟩
    intro index hother
    rw [h.indexed] at hother
    rw [← Option.some.inj hother, corpus, corpus, hlearned]
    rfl

theorem Sound.after (h : l.Sound) (acts : List Act) : (l.after acts).Sound := by
  induction acts generalizing l with
  | nil => exact h
  | cons a acts ih => exact ih (h.perform a)

-- The history of a library, read off what was done with it.

/-- The name under which an act enters an abstraction. -/
def Act.learned? : Act → Option String
  | .learn name _ _ => if Text.trim name = "" then none else some (Text.trim name)
  | _ => none

/-- What has been done since a name was first learned. -/
def since (name : String) (acts : List Act) : List Act :=
  acts.dropWhile fun a => a.learned? != some name

/-- The counts of the uses and of the successes among them. -/
def tally (uses : List Bool) : Nat × Nat := (uses.length, uses.count true)

/-- The counts of an abstraction, if it is learned. -/
def counts (l : Abstractions) (name : String) : Option (Nat × Nat) :=
  (l.get? name).map fun a => (a.uses, a.successes)

/-- A library whose index was not built yet. -/
def made (learned : Table Abstraction) : Abstractions := { learned }

section Retelling

variable {t : Table Abstraction}

end Retelling

end Abstractions

end Synthesis
