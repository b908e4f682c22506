import Synthesis.Text.Order

/-!
Tables: finite maps from names to values. A name has at most one entry; entering a name again
replaces its value in place, so the order of the entries is that of first entry.
-/
namespace Synthesis

@[ext] structure Table (α : Type) where
  entries : List (String × α)
  nodup : (entries.map (·.1)).Nodup

namespace Table

variable {α β : Type}

def find (name : String) : List (String × α) → Option α
  | [] => none
  | (k, v) :: rest => if k = name then some v else find name rest

def put (name : String) (value : α) : List (String × α) → List (String × α)
  | [] => [(name, value)]
  | (k, v) :: rest => if k = name then (k, value) :: rest else (k, v) :: put name value rest

theorem names_put (name : String) (value : α) (entries : List (String × α)) :
    (put name value entries).map (·.1) =
      if name ∈ entries.map (·.1) then entries.map (·.1) else entries.map (·.1) ++ [name] := by
  induction entries with
  | nil => rfl
  | cons x rest ih =>
    rw [put]
    by_cases hname : x.1 = name
    · simp [hname]
    · rw [if_neg hname, List.map_cons, List.map_cons, ih]
      simp only [List.mem_cons, Ne.symm hname, false_or]
      split
      · rfl
      · rfl

theorem nodup_put {entries : List (String × α)} (h : (entries.map (·.1)).Nodup) (name : String)
    (value : α) : ((put name value entries).map (·.1)).Nodup := by
  rw [names_put]
  split
  next => exact h
  next hname =>
    refine List.nodup_append.mpr ⟨h, by simp, ?_⟩
    intro old hold new hnew heq
    exact hname (List.mem_singleton.mp hnew ▸ heq ▸ hold)

theorem put_of_notMem {name : String} {entries : List (String × α)}
    (h : name ∉ entries.map (·.1)) (value : α) :
    put name value entries = entries ++ [(name, value)] := by
  induction entries with
  | nil => rfl
  | cons e entries ih =>
    rw [List.map_cons, List.mem_cons, not_or] at h
    rw [put, if_neg (Ne.symm h.1), ih h.2, List.cons_append]

def empty : Table α := ⟨[], List.nodup_nil⟩

instance : EmptyCollection (Table α) := ⟨empty⟩

instance : Inhabited (Table α) := ⟨empty⟩

def get? (t : Table α) (name : String) : Option α := find name t.entries

@[simp] theorem get?_empty (name : String) : ({} : Table α).get? name = none := rfl

def contains (t : Table α) (name : String) : Bool := (t.get? name).isSome

def insert (t : Table α) (name : String) (value : α) : Table α :=
  ⟨put name value t.entries, nodup_put t.nodup name value⟩

/-- The entries that pass a test. -/
def filter (t : Table α) (p : String × α → Bool) : Table α :=
  ⟨t.entries.filter p, t.nodup.sublist (List.filter_sublist.map _)⟩

def erase (t : Table α) (name : String) : Table α := t.filter fun x => x.1 != name

/-- Enters the pairs one after the other, so of two with one name the later stays. -/
def insertAll (t : Table α) (pairs : List (String × α)) : Table α :=
  pairs.foldl (fun t (k, v) => t.insert k v) t

theorem insertAll_append (t : Table α) (earlier later : List (String × α)) :
    t.insertAll (earlier ++ later) = (t.insertAll earlier).insertAll later := List.foldl_append

/-- Of the pairs with a name, the last one counts. -/
def last (name : String) (pairs : List (String × α)) : Option α := find name pairs.reverse

theorem find_append (name : String) (xs ys : List (String × α)) :
    find name (xs ++ ys) = (find name xs).or (find name ys) := by
  induction xs with
  | nil => simp [find]
  | cons x xs ih =>
    rw [List.cons_append, find, find, ih]
    split
    · rfl
    · rfl

theorem find_put (entries : List (String × α)) (key name : String) (value : α) :
    find name (put key value entries) = if key = name then some value else find name entries := by
  induction entries with
  | nil => rfl
  | cons x xs ih =>
    unfold put
    by_cases hkey : x.1 = key
    · rw [if_pos hkey, find, find, hkey]
      split
      · rfl
      · rfl
    · rw [if_neg hkey, find, find, ih]
      by_cases hname : key = name
      · subst hname
        rw [if_neg hkey, if_pos rfl, if_pos rfl]
      · rw [if_neg hname, if_neg hname]

theorem get?_insert (t : Table α) (key name : String) (value : α) :
    (t.insert key value).get? name = if key = name then some value else t.get? name :=
  find_put t.entries key name value

/-- What is found after entering pairs: the last of them, or what was there before. -/
theorem get?_insertAll (t : Table α) (pairs : List (String × α)) (name : String) :
    (t.insertAll pairs).get? name = (last name pairs).or (t.get? name) := by
  unfold insertAll last
  induction pairs generalizing t with
  | nil => rfl
  | cons x pairs ih =>
    rw [List.foldl_cons, ih, get?_insert, List.reverse_cons, find_append, Option.or_assoc]
    congr 1
    unfold find
    split
    · rfl
    · rfl

def ofList (pairs : List (String × α)) : Table α := empty.insertAll pairs

def names (t : Table α) : List String := t.entries.map (·.1)

def values (t : Table α) : List α := t.entries.map (·.2)

def size (t : Table α) : Nat := t.entries.length

theorem nodup_names (t : Table α) : t.names.Nodup := t.nodup

def sortedNames (t : Table α) : List String := Text.sort t.names

/-- Pairs in the order of their names. -/
def sortedPairs (pairs : List (String × α)) : List (String × α) :=
  pairs.mergeSort fun a b => Text.le a.1 b.1

def sorted (t : Table α) : List (String × α) := sortedPairs t.entries

end Table

end Synthesis
