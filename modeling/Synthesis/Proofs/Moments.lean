import Synthesis.Proofs.Calls
import Mathlib.Data.List.Induction
import Mathlib.Data.List.Nodup

/-!
Runs of a cache. Operations come one after the other on a clock that moves in both directions, and
a run is told by its moments: every operation with the cache and the time that it meets. What an
operation writes, and whether it makes the cache sweep, is read off its moment. A tidy cache has no
more entries than there is room for. Every operation keeps a cache tidy, since a sweep of a full
cache always makes room.
-/
namespace Synthesis

namespace Table

variable {α : Type} {t : Table α} {name : String}

theorem find_eq_none_iff {entries : List (String × α)} :
    find name entries = none ↔ name ∉ entries.map (·.1) := by
  induction entries with
  | nil => simp [find]
  | cons x rest ih =>
    rw [find, List.map_cons, List.mem_cons]
    by_cases hname : x.1 = name
    · simp [hname]
    · simp [hname, ih, Ne.symm hname]

theorem contains_iff : t.contains name = true ↔ name ∈ t.names := by
  unfold contains get? names
  rw [← not_iff_not, ← find_eq_none_iff]
  simp

theorem mem_names_of_get? {value : α} (h : t.get? name = some value) : name ∈ t.names := by
  by_contra hname
  rw [get?, find_eq_none_iff.mpr hname] at h
  cases h

theorem names_insert_of_mem (h : name ∈ t.names) (value : α) :
    (t.insert name value).names = t.names :=
  (names_put name value t.entries).trans (if_pos h)

theorem names_insert_of_notMem (h : name ∉ t.names) (value : α) :
    (t.insert name value).names = t.names ++ [name] :=
  (names_put name value t.entries).trans (if_neg h)

theorem length_names (t : Table α) : t.names.length = t.size := List.length_map _

theorem size_insert_of_mem (h : name ∈ t.names) (value : α) :
    (t.insert name value).size = t.size := by
  rw [← length_names, names_insert_of_mem h, length_names]

theorem size_insert_of_notMem (h : name ∉ t.names) (value : α) :
    (t.insert name value).size = t.size + 1 := by
  rw [← length_names, names_insert_of_notMem h, List.length_append, length_names]
  rfl

/-- Behind an entry that is left out no other one comes to light, as names are not repeated. -/
theorem find_filter {entries : List (String × α)} (h : (entries.map (·.1)).Nodup)
    (p : String × α → Bool) :
    find name (entries.filter p) = (find name entries).filter fun v => p (name, v) := by
  induction entries with
  | nil => rfl
  | cons x rest ih =>
    rw [List.map_cons, List.nodup_cons] at h
    rw [List.filter_cons, find]
    by_cases hname : x.1 = name
    · subst hname
      rw [if_pos rfl, Option.filter_some]
      by_cases hp : p x = true
      · rw [if_pos hp, if_pos hp, find, if_pos rfl]
      · rw [if_neg hp, if_neg hp, ih h.2, find_eq_none_iff.mpr h.1]
        rfl
    · rw [if_neg hname, ← ih h.2]
      by_cases hp : p x = true
      · rw [if_pos hp, find, if_neg hname]
      · rw [if_neg hp]

theorem get?_filter (t : Table α) (p : String × α → Bool) (name : String) :
    (t.filter p).get? name = (t.get? name).filter fun v => p (name, v) :=
  find_filter t.nodup p

theorem get?_erase (t : Table α) (key name : String) :
    (t.erase key).get? name = if key = name then none else t.get? name := by
  have hkept : (t.erase key).get? name = (t.get? name).filter fun _ => name != key :=
    t.get?_filter (fun x => x.1 != key) name
  rw [hkept]
  by_cases hname : key = name
  · simp [hname]
  · have hother : (name != key) = true := bne_iff_ne.mpr (Ne.symm hname)
    rw [if_neg hname]
    cases t.get? name with
    | none => rfl
    | some value => exact (Option.filter_some ..).trans (if_pos hother)

/-- Every entry passes the test or not. -/
theorem size_filter_add (t : Table α) (p : String × α → Bool) :
    (t.filter fun x => !p x).size + (t.filter p).size = t.size := by
  have hsplit := List.length_eq_length_filter_add (l := t.entries) p
  unfold filter size
  dsimp only
  omega

theorem size_erase (t : Table α) (name : String) :
    (t.erase name).size + (t.names.filter (· == name)).length = t.size := by
  have hnamed : (t.names.filter (· == name)).length = (t.filter fun x => x.1 == name).size := by
    rw [names, List.filter_map, List.length_map]
    rfl
  rw [hnamed]
  exact size_filter_add t fun x => x.1 == name

theorem mem_names_filter {p : String × α → Bool} :
    name ∈ (t.filter p).names ↔ ∃ value, t.get? name = some value ∧ p (name, value) = true := by
  rw [← contains_iff, contains, get?_filter, Option.isSome_iff_exists]
  exact exists_congr fun value => Option.filter_eq_some_iff

/-- As many entries are named in a list as the list is long. -/
theorem size_filter_contains {names : List String} (hnodup : names.Nodup)
    (hsub : names ⊆ t.names) : (t.filter fun x => names.contains x.1).size = names.length := by
  have hperm : (t.filter fun x => names.contains x.1).names.Perm names := by
    rw [List.perm_ext_iff_of_nodup (nodup_names _) hnodup]
    intro name
    constructor
    · intro hname
      obtain ⟨x, hx, rfl⟩ := List.mem_map.mp hname
      exact List.contains_iff_mem.mp (List.mem_filter.mp hx).2
    · intro hname
      obtain ⟨x, hx, rfl⟩ := List.mem_map.mp (hsub hname)
      exact List.mem_map_of_mem (List.mem_filter.mpr ⟨hx, List.contains_iff_mem.mpr hname⟩)
  rw [← length_names, hperm.length_eq]

end Table

namespace Cache

variable {α : Type} {c : Cache α}

/-- The names of the expired entries. -/
def expired (c : Cache α) (now : Int) : List String :=
  (c.entries.filter fun x => x.2.isExpired now).names

/-- The names that a sweep removes although their entries have not expired. -/
def crowd (c : Cache α) (now : Int) : List String :=
  if c.capacity ≤ (purged c.entries now).size then victims (purged c.entries now) else []

theorem victims_perm (entries : Table (CacheEntry α)) :
    ∃ sorted : List (String × CacheEntry α), sorted.Perm entries.entries ∧
      victims entries = (sorted.map (·.1)).take (entries.size / 4 + 1) :=
  ⟨entries.entries.mergeSort fun a b => a.2.isOlder b.2, List.mergeSort_perm _ _, List.map_take⟩

theorem length_victims (entries : Table (CacheEntry α)) :
    (victims entries).length = min (entries.size / 4 + 1) entries.size := by
  obtain ⟨sorted, hperm, heq⟩ := victims_perm entries
  rw [heq, List.length_take, List.length_map, hperm.length_eq]
  rfl

theorem victims_subset (entries : Table (CacheEntry α)) : victims entries ⊆ entries.names := by
  obtain ⟨sorted, hperm, heq⟩ := victims_perm entries
  rw [heq]
  exact fun name hname => (hperm.map _).subset (List.mem_of_mem_take hname)

theorem nodup_victims (entries : Table (CacheEntry α)) : (victims entries).Nodup := by
  obtain ⟨sorted, hperm, heq⟩ := victims_perm entries
  rw [heq]
  exact ((hperm.map _).nodup_iff.mpr entries.nodup).sublist (List.take_sublist _ _)

theorem sweep_entries (c : Cache α) (now : Int) :
    (c.sweep now).entries =
      (purged c.entries now).filter fun x => !(c.crowd now).contains x.1 := by
  unfold sweep crowd
  dsimp only
  split
  · rfl
  · simp [Table.filter]

/-- An entry is left when it has not expired and is not crowded out. -/
theorem get?_sweep (c : Cache α) (now : Int) (name : String) :
    (c.sweep now).entries.get? name = (c.entries.get? name).filter fun e =>
      !e.isExpired now && !(c.crowd now).contains name := by
  rw [sweep_entries, purged, Table.get?_filter, Table.get?_filter, Option.filter_filter]

theorem purged_size (c : Cache α) (now : Int) :
    (purged c.entries now).size + (c.expired now).length = c.size := by
  rw [expired, Table.length_names]
  exact Table.size_filter_add c.entries fun x => x.2.isExpired now

/-- What a sweep leaves, the expired entries and those crowded out are all that there was. -/
theorem sweep_size (c : Cache α) (now : Int) :
    (c.sweep now).size + (c.crowd now).length + (c.expired now).length = c.size := by
  have hcrowd : ((purged c.entries now).filter fun x => (c.crowd now).contains x.1).size =
      (c.crowd now).length := by
    apply Table.size_filter_contains
    · unfold crowd
      split
      · exact nodup_victims _
      · exact List.nodup_nil
    · unfold crowd
      split
      · exact victims_subset _
      · exact List.nil_subset _
  have hkept := Table.size_filter_add (purged c.entries now) fun x => (c.crowd now).contains x.1
  have hall := purged_size c now
  unfold size at hall ⊢
  rw [sweep_entries]
  omega

theorem sweep_evictions (c : Cache α) (now : Int) :
    (c.sweep now).evictions = c.evictions + (c.expired now).length + (c.crowd now).length := by
  have hsize := sweep_size c now
  have hcount : (c.sweep now).evictions = c.evictions + (c.size - (c.sweep now).size) := rfl
  omega

/-- The name is new and the cache is full. -/
def needsRoom (c : Cache α) (name : String) : Bool :=
  !c.entries.contains name && decide (c.capacity ≤ c.size)

/-- The cache as it is when a name is entered. -/
def makeRoom (c : Cache α) (now : Int) (name : String) : Cache α :=
  if c.needsRoom name then c.sweep now else c

theorem setFor_eq (c : Cache α) (now : Int) (name : String) (value : α) (lifetime : Int) :
    c.setFor now name value lifetime =
      { c.makeRoom now name with
        entries := (c.makeRoom now name).entries.insert name
          { value, createdAt := now, lastAccessed := now, lifetime
            serial := (c.makeRoom now name).serial + 1 }
        serial := (c.makeRoom now name).serial + 1 } := rfl

theorem needsRoom_iff {name : String} :
    c.needsRoom name = true ↔ name ∉ c.entries.names ∧ c.capacity ≤ c.size := by
  rw [← Table.contains_iff]
  simp [needsRoom]

theorem makeRoom_of_mem {name : String} (h : name ∈ c.entries.names) (now : Int) :
    c.makeRoom now name = c :=
  if_neg fun hneeds => (needsRoom_iff.mp hneeds).1 h

/-- What a cache is opened with. -/
def terms (c : Cache α) : Nat × Int := (c.capacity, c.lifetime)

theorem makeRoom_terms (c : Cache α) (now : Int) (name : String) :
    (c.makeRoom now name).terms = c.terms := by
  unfold makeRoom
  split
  · rfl
  · rfl

theorem notMem_makeRoom (now : Int) {name : String} (hname : name ∉ c.entries.names) :
    name ∉ (c.makeRoom now name).entries.names := by
  unfold makeRoom
  split
  · rw [sweep_entries]
    intro hkept
    obtain ⟨x, hx, rfl⟩ := List.mem_map.mp hkept
    exact hname (List.mem_map_of_mem (List.mem_filter.mp (List.mem_filter.mp hx).1).1)
  · exact hname

/-- There is room for all entries. -/
structure Tidy (c : Cache α) : Prop where
  room : c.size ≤ c.capacity
  positive : 0 < c.capacity

theorem new_tidy (capacity lifetime : Int) : (new capacity lifetime : Cache α).Tidy where
  room := Nat.zero_le _
  positive := by
    unfold new
    dsimp only
    split
    · decide
    · omega

namespace Tidy

variable {name : String}

theorem sweep_size_lt (h : c.Tidy) (now : Int) : (c.sweep now).size < c.capacity := by
  have hsize := sweep_size c now
  have hroom := h.room
  have hpositive := h.positive
  have hcrowd : c.capacity ≤ (purged c.entries now).size → 0 < (c.crowd now).length := by
    intro hfull
    rw [crowd, if_pos hfull, length_victims]
    omega
  have hlive := purged_size c now
  omega

theorem sweep (h : c.Tidy) (now : Int) : (c.sweep now).Tidy :=
  ⟨Nat.le_of_lt (h.sweep_size_lt now), h.positive⟩

theorem makeRoom (h : c.Tidy) (now : Int) (name : String) : (c.makeRoom now name).Tidy := by
  unfold Cache.makeRoom
  split
  · exact h.sweep now
  · exact h

/-- There is room for a name that is not in the cache. -/
theorem makeRoom_size_lt (h : c.Tidy) (now : Int) (hname : name ∉ c.entries.names) :
    (c.makeRoom now name).size < c.capacity := by
  unfold Cache.makeRoom
  split
  · exact h.sweep_size_lt now
  · rename_i hneeds
    exact Nat.not_le.mp fun hfull => hneeds (needsRoom_iff.mpr ⟨hname, hfull⟩)

end Tidy

theorem Tidy.setFor (h : c.Tidy) (now : Int) (name : String) (value : α) (lifetime : Int) :
    (c.setFor now name value lifetime).Tidy := by
  have hroom := h.makeRoom now name
  rw [setFor_eq]
  refine ⟨?_, hroom.positive⟩
  by_cases hname : name ∈ c.entries.names
  · rw [makeRoom_of_mem hname]
    exact Nat.le_trans (Nat.le_of_eq (Table.size_insert_of_mem hname _)) h.room
  · have hnew := notMem_makeRoom now hname
    have hcapacity : (c.makeRoom now name).capacity = c.capacity :=
      congrArg Prod.fst (makeRoom_terms c now name)
    dsimp only
    rw [hcapacity]
    exact Nat.le_trans (Nat.le_of_eq (Table.size_insert_of_notMem hnew _))
      (h.makeRoom_size_lt now hname)

theorem Tidy.get (h : c.Tidy) (now : Int) (name : String) : (c.get now name).2.Tidy := by
  unfold Cache.get
  split
  · exact ⟨h.room, h.positive⟩
  · rename_i e hentry
    split
    · exact ⟨Nat.le_trans (List.length_filter_le _ _) h.room, h.positive⟩
    · have hsize := Table.size_insert_of_mem (Table.mem_names_of_get? hentry) (e.access now)
      exact ⟨Nat.le_trans (Nat.le_of_eq hsize) h.room, h.positive⟩

theorem Tidy.erase (h : c.Tidy) (name : String) : (c.erase name).Tidy :=
  ⟨Nat.le_trans (List.length_filter_le _ _) h.room, h.positive⟩

theorem Tidy.clear (h : c.Tidy) : c.clear.Tidy :=
  ⟨Nat.zero_le _, h.positive⟩

/-- What can be asked of a cache, and how its clock moves. -/
inductive Operation (α : Type) where
  | get (name : String)
  | set (name : String) (value : α)
  | setFor (name : String) (value : α) (lifetime : Int)
  | erase (name : String)
  | clear
  /-- The clock goes on by so much, or back. -/
  | move (distance : Int)

/-- A cache with its clock. -/
structure Timed (α : Type) where
  cache : Cache α
  now : Int

/-- An operation with the cache and the time it meets. -/
structure Moment (α : Type) extends Timed α where
  operation : Operation α

/-- What is written under a name: a value, how long it is good for, and since when. -/
structure Record (α : Type) where
  value : α
  lifetime : Int
  writtenAt : Int

namespace Timed

/-- An empty cache at some time. -/
def fresh (capacity lifetime start : Int) : Timed α := ⟨new capacity lifetime, start⟩

def after (t : Timed α) : Operation α → Timed α
  | .get name => { t with cache := (t.cache.get t.now name).2 }
  | .set name value => { t with cache := t.cache.set t.now name value }
  | .setFor name value lifetime => { t with cache := t.cache.setFor t.now name value lifetime }
  | .erase name => { t with cache := t.cache.erase name }
  | .clear => { t with cache := t.cache.clear }
  | .move distance => { t with now := t.now + distance }

def run (t : Timed α) (operations : List (Operation α)) : Timed α := operations.foldl after t

def moments (t : Timed α) : List (Operation α) → List (Moment α)
  | [] => []
  | x :: rest => ⟨t, x⟩ :: (t.after x).moments rest

theorem run_concat (t : Timed α) (operations : List (Operation α)) (x : Operation α) :
    t.run (operations ++ [x]) = (t.run operations).after x := List.foldl_concat _ _ _ _

theorem moments_concat (t : Timed α) (operations : List (Operation α)) (x : Operation α) :
    t.moments (operations ++ [x]) = t.moments operations ++ [⟨t.run operations, x⟩] := by
  induction operations generalizing t with
  | nil => rfl
  | cons y rest ih =>
    rw [List.cons_append, moments, ih, moments]
    rfl

/-- No operation changes what the cache was opened with. -/
theorem after_terms (t : Timed α) (x : Operation α) : (t.after x).cache.terms = t.cache.terms := by
  cases x with
  | get name =>
    unfold after Cache.get
    dsimp only
    split
    · rfl
    · split
      · rfl
      · rfl
  | set name value => exact makeRoom_terms t.cache t.now name
  | setFor name value lifetime => exact makeRoom_terms t.cache t.now name
  | erase name => rfl
  | clear => rfl
  | move distance => rfl

theorem run_terms (t : Timed α) (operations : List (Operation α)) :
    (t.run operations).cache.terms = t.cache.terms := by
  induction operations using List.reverseRecOn with
  | nil => rfl
  | append_singleton operations x ih => rw [run_concat, after_terms, ih]

end Timed

theorem Tidy.after {t : Timed α} (h : t.cache.Tidy) (x : Operation α) : (t.after x).cache.Tidy := by
  cases x with
  | get name => exact h.get t.now name
  | set name value => exact h.setFor t.now name value _
  | setFor name value lifetime => exact h.setFor t.now name value lifetime
  | erase name => exact h.erase name
  | clear => exact h.clear
  | move distance => exact h

theorem Tidy.run {t : Timed α} (h : t.cache.Tidy) (operations : List (Operation α)) :
    (t.run operations).cache.Tidy := by
  induction operations using List.reverseRecOn with
  | nil => exact h
  | append_singleton operations x ih =>
    rw [Timed.run_concat]
    exact ih.after x

theorem Timed.fresh_run_tidy (capacity lifetime start : Int) (operations : List (Operation α)) :
    ((fresh capacity lifetime start).run operations).cache.Tidy :=
  Tidy.run (t := fresh capacity lifetime start) (new_tidy capacity lifetime) operations

namespace Moment

/-- The cache and the time after the operation. -/
def next (m : Moment α) : Timed α := m.toTimed.after m.operation

/-- The name that is written and what is written under it. -/
def writing? (m : Moment α) : Option (String × Record α) :=
  match m.operation with
  | .set name value => some (name, ⟨value, m.cache.lifetime, m.now⟩)
  | .setFor name value lifetime => some (name, ⟨value, lifetime, m.now⟩)
  | _ => none

/-- A name that is not there is written into a full cache. -/
def sweeps (m : Moment α) : Bool := m.writing?.any fun x => m.cache.needsRoom x.1

end Moment

end Cache

end Synthesis
