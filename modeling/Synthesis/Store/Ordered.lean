import Synthesis.Text.Order

/-!
Ordered maps: finite maps whose keys are byte strings, with the entries in the order of the keys.
They are walked backwards, from the last key that is not behind a given one.
-/
namespace Synthesis

/-- One byte string comes before another. -/
def precedes (a b : List Nat) : Bool := !lexLe id b a

theorem precedes_eq_true_iff {a b : List Nat} : precedes a b = true ↔ lexLe id b a = false := by
  rw [precedes, Bool.not_eq_true']

theorem le_of_precedes {a b : List Nat} (h : precedes a b = true) : lexLe id a b = true := by
  have htotal := lexLe_total id a b
  rw [precedes_eq_true_iff.mp h, Bool.or_false] at htotal
  exact htotal

theorem precedes_trans {a b c : List Nat} (hab : precedes a b = true) (hbc : precedes b c = true) :
    precedes a c = true := by
  rw [precedes_eq_true_iff, Bool.eq_false_iff]
  intro hca
  have hba := lexLe_trans id (le_of_precedes hbc) hca
  rw [precedes_eq_true_iff.mp hab] at hba
  cases hba

structure OrderedMap (α : Type) where
  entries : List (List Nat × α)
  ordered : entries.Pairwise (fun a b => precedes a.1 b.1 = true)

namespace OrderedMap

variable {α : Type}

def empty : OrderedMap α := ⟨[], List.Pairwise.nil⟩

def put (key : List Nat) (value : α) : List (List Nat × α) → List (List Nat × α)
  | [] => [(key, value)]
  | e :: rest =>
    if precedes key e.1 then (key, value) :: e :: rest
    else if precedes e.1 key then e :: put key value rest
    else (e.1, value) :: rest

theorem mem_keys_put {key other : List Nat} {value : α} {entries : List (List Nat × α)}
    (h : other ∈ (put key value entries).map (·.1)) : other = key ∨ other ∈ entries.map (·.1) := by
  induction entries with
  | nil => simpa [put] using h
  | cons e rest ih =>
    unfold put at h
    split at h
    · simpa using h
    · split at h
      · rw [List.map_cons, List.mem_cons] at h ⊢
        rcases h with h | h
        · exact Or.inr (Or.inl h)
        · rcases ih h with h | h
          · exact Or.inl h
          · exact Or.inr (Or.inr h)
      · exact Or.inr h

theorem ordered_put (key : List Nat) (value : α) {entries : List (List Nat × α)}
    (h : entries.Pairwise fun a b => precedes a.1 b.1 = true) :
    (put key value entries).Pairwise fun a b => precedes a.1 b.1 = true := by
  induction entries with
  | nil => exact List.pairwise_singleton _ _
  | cons e rest ih =>
    obtain ⟨hhead, hrest⟩ := List.pairwise_cons.mp h
    unfold put
    split
    next hbefore =>
      refine List.pairwise_cons.mpr ⟨fun x hx => ?_, h⟩
      rcases List.mem_cons.mp hx with rfl | hx
      · exact hbefore
      · exact precedes_trans hbefore (hhead x hx)
    next =>
      split
      next hafter =>
        refine List.pairwise_cons.mpr ⟨fun x hx => ?_, ih hrest⟩
        rcases mem_keys_put (List.mem_map_of_mem hx) with hkey | hkey
        · rw [hkey]
          exact hafter
        · obtain ⟨y, hy, hyx⟩ := List.mem_map.mp hkey
          rw [← hyx]
          exact hhead y hy
      next => exact List.pairwise_cons.mpr ⟨hhead, hrest⟩

/-- A key that is there already gets the new value. -/
def insert (m : OrderedMap α) (key : List Nat) (value : α) : OrderedMap α :=
  ⟨put key value m.entries, ordered_put key value m.ordered⟩

def get? (m : OrderedMap α) (key : List Nat) : Option α :=
  (m.entries.find? fun e => e.1 == key).map (·.2)

def size (m : OrderedMap α) : Nat := m.entries.length

/-- The entries up to a key, the last one first. -/
def backFrom (m : OrderedMap α) (key : List Nat) : List (List Nat × α) :=
  (m.entries.filter fun e => !precedes key e.1).reverse

end OrderedMap

end Synthesis
