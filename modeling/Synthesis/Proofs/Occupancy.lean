import Synthesis.Proofs.Moments

/-!
The occupancy of a cache. An entry comes in when a name is written that is not there, and it leaves
by one of five ways out: a lookup or a sweep finds it expired, a sweep takes it to make room, it is
erased, or the cache is cleared. One operation changes the size by just what comes in and what
leaves, and over a run nothing is lost or counted twice. Two of the ways out are what the cache
itself counts as evictions.
-/
namespace Synthesis.Cache

variable {α : Type}

/-- The ways in which entries leave a cache. -/
inductive Exit where
  /-- Found expired by a lookup. -/
  | lapsed
  /-- Found expired by a sweep. -/
  | purged
  /-- Taken by a sweep to make room. -/
  | crowdedOut
  | erased
  | cleared

def Operation.isLookup : Operation α → Bool
  | .get _ => true
  | _ => false

theorem length_filter_name {names : List String} (h : names.Nodup) (name : String) :
    (names.filter (· == name)).length = if name ∈ names then 1 else 0 := by
  rw [← List.count_eq_length_filter, h.count]

/-- A lookup removes the entry under its name just when that has expired. -/
theorem get_size (c : Cache α) (now : Int) (name : String) :
    (c.get now name).2.size + ((c.expired now).filter (· == name)).length = c.size := by
  have hexpired : name ∈ c.expired now ↔
      ∃ e, c.entries.get? name = some e ∧ e.isExpired now = true := Table.mem_names_filter
  have hnodup : (c.expired now).Nodup := Table.nodup_names _
  rw [length_filter_name hnodup]
  unfold Cache.get
  split
  next hnone =>
    rw [if_neg (by simp [hexpired, hnone])]
    rfl
  next e hentry =>
    split
    next hlapsed =>
      have herased := Table.size_erase c.entries name
      have hname := Table.mem_names_of_get? hentry
      rw [length_filter_name c.entries.nodup_names, if_pos hname] at herased
      rw [if_pos (hexpired.mpr ⟨e, hentry, hlapsed⟩)]
      exact herased
    next hlive =>
      rw [if_neg (by simp [hexpired, hentry, hlive])]
      exact Table.size_insert_of_mem (Table.mem_names_of_get? hentry) _

theorem makeRoom_size (c : Cache α) (now : Int) (name : String) :
    (c.makeRoom now name).size + (if c.needsRoom name then c.crowd now else []).length +
      (if c.needsRoom name then c.expired now else []).length = c.size := by
  unfold makeRoom
  split
  · exact sweep_size c now
  · rfl

theorem makeRoom_evictions (c : Cache α) (now : Int) (name : String) :
    (c.makeRoom now name).evictions = c.evictions +
      (if c.needsRoom name then c.expired now else []).length +
      (if c.needsRoom name then c.crowd now else []).length := by
  unfold makeRoom
  split
  · exact sweep_evictions c now
  · rfl

/-- Writing a name that is not there adds one entry to what a sweep leaves. -/
theorem setFor_size (c : Cache α) (now : Int) (name : String) (value : α) (lifetime : Int) :
    (c.setFor now name value lifetime).size +
        (if c.needsRoom name then c.expired now else []).length +
        (if c.needsRoom name then c.crowd now else []).length =
      c.size + if !c.entries.contains name then 1 else 0 := by
  have hroom := makeRoom_size c now name
  rw [setFor_eq]
  by_cases hname : name ∈ c.entries.names
  · have hsame := Table.size_insert_of_mem (makeRoom_of_mem hname now ▸ hname)
    rw [Table.contains_iff.mpr hname]
    simp only [size, hsame, Bool.not_true, Bool.false_eq_true, if_false] at hroom ⊢
    omega
  · have hmore := Table.size_insert_of_notMem (notMem_makeRoom now hname)
    rw [Bool.eq_false_iff.mpr (mt Table.contains_iff.mp hname)]
    simp only [size, hmore, Bool.not_false, if_true] at hroom ⊢
    omega

namespace Moment

/-- A name is written that is not there. -/
def enters (m : Moment α) : Bool := m.writing?.any fun x => !m.cache.entries.contains x.1

/-- The names of the entries that leave by a way out. -/
def leaving (m : Moment α) : Exit → List String
  | .lapsed =>
    match m.operation with
    | .get name => (m.cache.expired m.now).filter (· == name)
    | _ => []
  | .purged => if m.sweeps then m.cache.expired m.now else []
  | .crowdedOut => if m.sweeps then m.cache.crowd m.now else []
  | .erased =>
    match m.operation with
    | .erase name => m.cache.entries.names.filter (· == name)
    | _ => []
  | .cleared =>
    match m.operation with
    | .clear => m.cache.entries.names
    | _ => []

theorem next_lookups (m : Moment α) :
    m.next.cache.hits + m.next.cache.misses =
      m.cache.hits + m.cache.misses + if m.operation.isLookup then 1 else 0 := by
  obtain ⟨⟨c, now⟩, x⟩ := m
  have hroom : ∀ name, (c.makeRoom now name).hits + (c.makeRoom now name).misses =
      c.hits + c.misses := by
    intro name
    unfold makeRoom
    split
    · rfl
    · rfl
  cases x with
  | get name =>
    simp only [next, Timed.after, Cache.get, Operation.isLookup, if_true]
    split
    · rfl
    · split
      · rfl
      · dsimp only
        omega
  | set name value => exact hroom name
  | setFor name value lifetime => exact hroom name
  | erase name => rfl
  | clear => rfl
  | move distance => rfl

theorem next_evictions (m : Moment α) :
    m.next.cache.evictions =
      m.cache.evictions + (m.leaving .purged).length + (m.leaving .crowdedOut).length := by
  obtain ⟨⟨c, now⟩, x⟩ := m
  cases x with
  | get name =>
    simp only [next, Timed.after, Cache.get]
    split
    · rfl
    · split
      · rfl
      · rfl
  | set name value => exact makeRoom_evictions c now name
  | setFor name value lifetime => exact makeRoom_evictions c now name
  | erase name => rfl
  | clear => rfl
  | move distance => rfl

/-- What is there afterwards and what leaves is what was there before and what comes in. -/
theorem next_size (m : Moment α) :
    m.next.cache.size + (m.leaving .lapsed).length + (m.leaving .purged).length +
        (m.leaving .crowdedOut).length + (m.leaving .erased).length + (m.leaving .cleared).length =
      m.cache.size + if m.enters then 1 else 0 := by
  obtain ⟨⟨c, now⟩, x⟩ := m
  cases x with
  | get name => exact get_size c now name
  | set name value => exact setFor_size c now name value c.lifetime
  | setFor name value lifetime => exact setFor_size c now name value lifetime
  | erase name => exact Table.size_erase c.entries name
  | clear => exact (Nat.zero_add _).trans (Table.length_names c.entries)
  | move distance => rfl

end Moment

/-- How many entries left by a way out in the course of the moments. -/
def departed (exit : Exit) (moments : List (Moment α)) : Nat :=
  (moments.flatMap (·.leaving exit)).length

theorem departed_concat (exit : Exit) (moments : List (Moment α)) (m : Moment α) :
    departed exit (moments ++ [m]) = departed exit moments + (m.leaving exit).length := by
  simp [departed]

/-- What a run has counted: lookups by the cache itself, entries that came in and left. -/
structure Balanced (t : Timed α) (lookups : Nat) (moments : List (Moment α)) : Prop where
  lookups : t.cache.hits + t.cache.misses = lookups
  evictions : t.cache.evictions = departed .purged moments + departed .crowdedOut moments
  entries : moments.countP (·.enters) = t.cache.size + t.cache.evictions +
    departed .lapsed moments + departed .erased moments + departed .cleared moments

theorem Balanced.after {t : Timed α} {lookups : Nat} {moments : List (Moment α)}
    (h : Balanced t lookups moments) (x : Operation α) :
    Balanced (t.after x) (lookups + if x.isLookup then 1 else 0) (moments ++ [⟨t, x⟩]) := by
  have hlookups := Moment.next_lookups ⟨t, x⟩
  have hevictions := Moment.next_evictions ⟨t, x⟩
  have hsize := Moment.next_size ⟨t, x⟩
  have hentries := h.entries
  have hcounted := h.evictions
  refine ⟨hlookups.trans (by rw [h.lookups]), ?_, ?_⟩
  · simp only [departed_concat]
    refine hevictions.trans ?_
    dsimp only
    omega
  · rw [List.countP_append, List.countP_singleton]
    simp only [departed_concat]
    change _ = (Moment.next ⟨t, x⟩).cache.size + (Moment.next ⟨t, x⟩).cache.evictions + _ + _ + _
    dsimp only at hevictions hsize
    omega

theorem Timed.run_balanced (capacity lifetime start : Int) (operations : List (Operation α)) :
    Balanced ((fresh capacity lifetime start).run operations)
      (operations.countP (·.isLookup)) ((fresh capacity lifetime start).moments operations) := by
  induction operations using List.reverseRecOn with
  | nil => exact ⟨rfl, rfl, rfl⟩
  | append_singleton operations x ih =>
    rw [run_concat, moments_concat, List.countP_append, List.countP_singleton]
    exact ih.after x

/-- After any operations on an empty cache, whose clock may move in both directions, there are no
more entries than it has room for, every lookup is counted once as a hit or a miss, and the names
that were written while absent are as many as the entries that are there, those that sweeps have
removed, those that lookups have found expired, those erased and those cleared. -/
theorem occupancy_balance {capacity : Int} (hcapacity : 1 ≤ capacity) (lifetime start : Int)
    (operations : List (Operation α)) :
    let t := (Timed.fresh capacity lifetime start).run operations
    let moments := (Timed.fresh capacity lifetime start).moments operations
    (t.cache.size : Int) ≤ capacity ∧
      t.cache.hits + t.cache.misses = operations.countP (·.isLookup) ∧
      t.cache.evictions = departed .purged moments + departed .crowdedOut moments ∧
      moments.countP (·.enters) = t.cache.size + t.cache.evictions + departed .lapsed moments +
        departed .erased moments + departed .cleared moments := by
  intro t moments
  have hbalanced := Timed.run_balanced (α := α) capacity lifetime start operations
  have hroom := (Timed.fresh_run_tidy (α := α) capacity lifetime start operations).room
  have hlimit : t.cache.capacity = capacity.toNat := by
    have hterms := congrArg Prod.fst
      (Timed.run_terms (Timed.fresh (α := α) capacity lifetime start) operations)
    exact hterms.trans (if_neg (by omega))
  refine ⟨?_, hbalanced.lookups, hbalanced.evictions, hbalanced.entries⟩
  change t.cache.size ≤ t.cache.capacity at hroom
  omega

/-- Five entries, one for every way out, in a cache that has room for one. -/
def crossing : List (Operation Nat) :=
  [.setFor "late" 1 5, .move 10, .get "late", .set "first" 2, .set "second" 3, .erase "second",
    .setFor "stale" 4 5, .move 10, .set "third" 5, .move (-20), .get "third", .clear]

theorem occupancy_balance_crossing :
    let t := (Timed.fresh 1 0 0).run crossing
    let moments := (Timed.fresh 1 0 0).moments crossing
    (1 : Int) ≤ 1 ∧
      [Exit.lapsed, .crowdedOut, .erased, .purged, .cleared].map (departed · moments) =
        [1, 1, 1, 1, 1] ∧
      (t.cache.size : Int) ≤ 1 ∧ t.cache.hits + t.cache.misses = 2 ∧
      t.cache.evictions = departed .purged moments + departed .crowdedOut moments ∧
      moments.countP (·.enters) = t.cache.size + t.cache.evictions + departed .lapsed moments +
        departed .erased moments + departed .cleared moments :=
  ⟨by decide, by decide +kernel, occupancy_balance (by decide) 0 0 crossing⟩

end Synthesis.Cache
