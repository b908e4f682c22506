import Synthesis.Subproblem
import Mathlib.Data.List.Nodup
import Mathlib.Data.List.Flatten

/-!
Schedules respect dependencies. In the order of execution a subproblem is listed only when all
it depends on is listed; in waves, one level is added for every dependency, so what a member of
a wave depends on is a member of an earlier wave. No schedule lists a subproblem twice.
-/
namespace Synthesis.Decomposition

/-- The groups of a schedule: each member depends only on members of earlier groups. -/
inductive Respects (subs : List Subproblem) : List (List Nat) → Prop
  | nil : Respects subs []
  | snoc {earlier : List (List Nat)} {group : List Nat} (h : Respects subs earlier)
      (hgroup : ∀ i ∈ group, ∃ p, subs[i]? = some p ∧
        ∀ d ∈ p.dependencies, ∃ j ∈ earlier.flatten, d = (j : Int)) :
      Respects subs (earlier ++ [group])

theorem Respects.split {subs : List Subproblem} {schedule before after : List (List Nat)}
    {group : List Nat} (h : Respects subs schedule) (heq : schedule = before ++ group :: after) :
    ∀ i ∈ group, ∃ p, subs[i]? = some p ∧
      ∀ d ∈ p.dependencies, ∃ j ∈ before.flatten, d = (j : Int) := by
  induction h generalizing after with
  | nil => simp at heq
  | @snoc earlier last h hlast ih =>
    rcases List.eq_nil_or_concat after with rfl | ⟨front, back, rfl⟩
    · obtain ⟨rfl, hgroup⟩ := List.append_inj' heq rfl
      obtain ⟨rfl, _⟩ := List.cons.inj hgroup
      exact hlast
    · rw [List.concat_eq_append, ← List.cons_append, ← List.append_assoc] at heq
      obtain ⟨heq, _⟩ := List.append_inj' heq rfl
      exact ih heq

theorem Respects.of_mem {subs : List Subproblem} {schedule : List (List Nat)} {group : List Nat}
    (h : Respects subs schedule) (hgroup : group ∈ schedule) :
    ∀ i ∈ group, ∃ p, subs[i]? = some p := by
  obtain ⟨before, after, heq⟩ := List.append_of_mem hgroup
  intro i hi
  obtain ⟨p, hp, _⟩ := h.split heq i hi
  exact ⟨p, hp⟩

theorem mem_indexed {subs : List Subproblem} {i : Nat} {p : Subproblem} :
    (i, p) ∈ indexed subs ↔ subs[i]? = some p := by
  rw [indexed, List.mem_map]
  constructor
  · rintro ⟨⟨q, j⟩, hmem, heq⟩
    obtain ⟨rfl, rfl⟩ := Prod.mk.inj heq
    exact List.mem_zipIdx_iff_getElem?.mp hmem
  · intro hp
    exact ⟨(p, i), List.mem_zipIdx_iff_getElem?.mpr hp, rfl⟩

theorem foldl_pick_mem (best : Nat × Subproblem) (others : List (Nat × Subproblem)) :
    others.foldl leastPriority.pick best ∈ best :: others := by
  induction others generalizing best with
  | nil => exact List.mem_cons_self
  | cons next others ih =>
    have hpick : leastPriority.pick best next = best ∨ leastPriority.pick best next = next := by
      unfold leastPriority.pick
      split
      · exact Or.inr rfl
      · exact Or.inl rfl
    have hmem := ih (leastPriority.pick best next)
    rw [List.foldl_cons]
    rw [List.mem_cons] at hmem ⊢
    rcases hmem with hmem | hmem
    · rw [hmem]
      rcases hpick with hpick | hpick
      · exact Or.inl hpick
      · rw [hpick]
        exact Or.inr List.mem_cons_self
    · exact Or.inr (List.mem_cons_of_mem next hmem)

theorem mem_of_leastPriority {candidates : List (Nat × Subproblem)} {i : Nat}
    (h : leastPriority candidates = some i) : ∃ p, (i, p) ∈ candidates := by
  cases candidates with
  | nil => simp [leastPriority] at h
  | cons first rest =>
    simp only [leastPriority, Option.some.injEq] at h
    subst h
    exact ⟨_, foldl_pick_mem first rest⟩

/-- What comes next is new, and all it depends on is done. -/
theorem next?_spec {subs : List Subproblem} {done : List Nat} {i : Nat}
    (h : next? subs done = some i) :
    i ∉ done ∧ ∃ p, subs[i]? = some p ∧ isReady done p = true := by
  obtain ⟨p, hp⟩ := mem_of_leastPriority h
  obtain ⟨hmem, hready⟩ := List.mem_filter.mp hp
  simp only [Bool.and_eq_true, Bool.not_eq_true', List.contains_eq_mem,
    decide_eq_false_iff_not] at hready
  exact ⟨hready.1, p, mem_indexed.mp hmem, hready.2⟩

theorem mem_of_isReady {done : List Nat} {p : Subproblem} (h : isReady done p = true) :
    ∀ d ∈ p.dependencies, ∃ j ∈ done, d = (j : Int) := by
  intro d hd
  have hready := List.all_eq_true.mp h d hd
  simp only [Bool.and_eq_true, decide_eq_true_eq, List.contains_eq_mem] at hready
  exact ⟨d.toNat, hready.2, (Int.toNat_of_nonneg hready.1).symm⟩

/-- The order as a schedule of groups with one member each. -/
def oneByOne (order : List Nat) : List (List Nat) := order.map fun i => [i]

theorem flatten_oneByOne (order : List Nat) : (oneByOne order).flatten = order := by
  induction order with
  | nil => rfl
  | cons i rest ih =>
    unfold oneByOne at ih ⊢
    rw [List.map_cons, List.flatten_cons, ih]
    rfl

theorem orderFrom_respects {subs : List Subproblem} (n : Nat) {done : List Nat}
    (h : Respects subs (oneByOne done)) : Respects subs (oneByOne (orderFrom subs n done)) := by
  induction n generalizing done with
  | zero => exact h
  | succ n ih =>
    unfold orderFrom
    cases hnext : next? subs done with
    | none => exact h
    | some i =>
      refine ih ?_
      obtain ⟨_, p, hp, hready⟩ := next?_spec hnext
      rw [oneByOne, List.map_append]
      refine .snoc h ?_
      intro j hj
      obtain rfl := List.mem_singleton.mp hj
      rw [← oneByOne, flatten_oneByOne]
      exact ⟨p, hp, mem_of_isReady hready⟩

theorem executionOrder_respects (subs : List Subproblem) :
    Respects subs (oneByOne (executionOrder subs)) :=
  orderFrom_respects subs.length .nil

/-- Dependencies point to earlier subproblems. -/
def PointBack (subs : List Subproblem) : Prop :=
  ∀ (i : Nat) (p : Subproblem), subs[i]? = some p → ∀ d ∈ p.dependencies, 0 ≤ d ∧ d < (i : Int)

theorem pointBack_of_dependencyFault? {n i : Nat} {seen dependencies : List Int}
    (h : dependencyFault? n i seen dependencies = none) :
    ∀ d ∈ dependencies, 0 ≤ d ∧ d < (i : Int) := by
  induction dependencies generalizing seen with
  | nil => simp
  | cons d rest ih =>
    unfold dependencyFault? at h
    split at h
    · cases h
    next hrange =>
      split at h
      · cases h
      next hself =>
        split at h
        · cases h
        next hlater =>
          split at h
          · cases h
          next =>
            rw [List.forall_mem_cons]
            exact ⟨⟨by omega, by omega⟩, ih h⟩

theorem pointBack_of_fault? {subs : List Subproblem} (h : fault? subs = none) :
    PointBack subs := by
  have hfrom : ∀ (rest : List Subproblem) (n k : Nat), faultFrom? n k rest = none →
      ∀ i p, rest[i]? = some p → ∀ d ∈ p.dependencies, 0 ≤ d ∧ d < ((k + i : Nat) : Int) := by
    intro rest
    induction rest with
    | nil => simp
    | cons q rest ih =>
      intro n k hnone i p hp
      rw [faultFrom?, Option.or_eq_none_iff] at hnone
      cases i with
      | zero =>
        obtain rfl : q = p := by simpa using hp
        exact pointBack_of_dependencyFault? hnone.1
      | succ i =>
        have hlater := ih n (k + 1) hnone.2 i p (by simpa using hp)
        rwa [Nat.add_right_comm] at hlater
  intro i p hp
  have hall := hfrom subs subs.length 0 h i p hp
  rwa [Nat.zero_add] at hall

theorem le_above (ls : List Nat) (l : Nat) (d : Int) : l ≤ above ls l d := by
  unfold above
  split
  · split
    · exact Nat.le_max_left _ _
    · exact Nat.le_refl l
  · exact Nat.le_refl l

theorem le_foldl_above (ls : List Nat) (dependencies : List Int) (l : Nat) :
    l ≤ dependencies.foldl (above ls) l := by
  induction dependencies generalizing l with
  | nil => exact Nat.le_refl l
  | cons d rest ih => exact Nat.le_trans (le_above ls l d) (ih (above ls l d))

/-- A subproblem is on a higher level than what it depends on. -/
theorem lt_levelAfter {ls : List Nat} {p : Subproblem} {j m : Nat}
    (hd : (j : Int) ∈ p.dependencies) (hm : ls[j]? = some m) : m < levelAfter ls p := by
  unfold levelAfter
  obtain ⟨before, after, hsplit⟩ := List.append_of_mem hd
  have habove : ∀ l, m < above ls l (j : Int) := by
    intro l
    rw [above, if_pos (Int.natCast_nonneg j), Int.toNat_natCast, hm]
    exact Nat.lt_of_lt_of_le (Nat.lt_succ_self m) (Nat.le_max_right l (m + 1))
  rw [hsplit, List.foldl_append, List.foldl_cons]
  exact Nat.lt_of_lt_of_le (habove _) (le_foldl_above ls after _)

/-- The levels of the subproblems behind some are added to theirs. -/
def levelsAfter (ls : List Nat) (subs : List Subproblem) : List Nat :=
  subs.foldl (fun ls p => ls ++ [levelAfter ls p]) ls

theorem prefix_levelsAfter (ls : List Nat) (subs : List Subproblem) :
    ls <+: levelsAfter ls subs := by
  induction subs generalizing ls with
  | nil => exact List.prefix_rfl
  | cons p rest ih => exact (List.prefix_append ls _).trans (ih _)

theorem length_levelsAfter (ls : List Nat) (subs : List Subproblem) :
    (levelsAfter ls subs).length = ls.length + subs.length := by
  induction subs generalizing ls with
  | nil => rfl
  | cons p rest ih =>
    have hrest := ih (ls ++ [levelAfter ls p])
    rw [List.length_append, List.length_singleton] at hrest
    rw [List.length_cons, Nat.add_comm rest.length, ← Nat.add_assoc, ← hrest]
    rfl

/-- A level is computed from the levels of the subproblems before. -/
theorem getElem?_levels {subs : List Subproblem} {i : Nat} {p : Subproblem}
    (hp : subs[i]? = some p) :
    ∃ ls, ls <+: levels subs ∧ ls.length = i ∧ (levels subs)[i]? = some (levelAfter ls p) := by
  obtain ⟨hi, hpi⟩ := List.getElem?_eq_some_iff.mp hp
  let ls := levelsAfter [] (subs.take i)
  have hlength : ls.length = i := by
    rw [length_levelsAfter, List.length_take, List.length_nil]
    omega
  have hlevels : levels subs = levelsAfter (ls ++ [levelAfter ls p]) (subs.drop (i + 1)) := by
    have hsplit : subs = subs.take i ++ p :: subs.drop (i + 1) := by
      rw [← hpi, List.getElem_cons_drop, List.take_append_drop]
    conv => lhs; rw [hsplit]
    rw [levels, List.foldl_append]
    rfl
  -- Later subproblems only add levels behind.
  obtain ⟨rest, hrest⟩ := prefix_levelsAfter (ls ++ [levelAfter ls p]) (subs.drop (i + 1))
  rw [hlevels, ← hrest]
  refine ⟨ls, ⟨[levelAfter ls p] ++ rest, by simp⟩, hlength, ?_⟩
  rw [List.append_assoc, List.getElem?_append_right (by omega), hlength]
  simp

theorem getElem?_indexed (subs : List Subproblem) (i : Nat) :
    (indexed subs)[i]? = subs[i]?.map fun p => (i, p) := by
  rw [indexed, List.getElem?_map, List.getElem?_zipIdx, Option.map_map]
  simp [Function.comp_def]

theorem mem_wave {subs : List Subproblem} {ls : List Nat} {l i : Nat} :
    i ∈ wave subs ls l ↔ ∃ p, subs[i]? = some p ∧ ls[i]? = some l := by
  unfold wave
  simp only [List.mem_map, List.mem_mergeSort, List.mem_filterMap]
  constructor
  · rintro ⟨⟨j, p⟩, ⟨⟨m, k⟩, hmem, hlevel⟩, rfl⟩
    split at hlevel
    next hk =>
      cases hlevel
      subst hk
      obtain ⟨n, hn⟩ := List.mem_iff_getElem?.mp hmem
      obtain ⟨hleft, hright⟩ := List.getElem?_zip_eq_some.mp hn
      rw [getElem?_indexed] at hleft
      obtain ⟨q, hq, hpair⟩ := Option.map_eq_some_iff.mp hleft
      obtain ⟨rfl, rfl⟩ := Prod.mk.inj hpair
      exact ⟨q, hq, hright⟩
    next => cases hlevel
  · rintro ⟨p, hp, hl⟩
    refine ⟨(i, p), ⟨((i, p), l), ?_, by simp⟩, rfl⟩
    refine List.mem_of_getElem? (i := i) (List.getElem?_zip_eq_some.mpr ⟨?_, hl⟩)
    rw [getElem?_indexed, hp]
    rfl

/-- What a subproblem depends on is on a level below its own. -/
theorem level_of_dependency {subs : List Subproblem} (hback : PointBack subs) {i l : Nat}
    {p : Subproblem} (hp : subs[i]? = some p) (hl : (levels subs)[i]? = some l) :
    ∀ d ∈ p.dependencies, ∃ (j : Nat) (q : Subproblem) (m : Nat), d = (j : Int) ∧
      subs[j]? = some q ∧ (levels subs)[j]? = some m ∧ m < l := by
  intro d hd
  obtain ⟨hnonneg, hlt⟩ := hback i p hp d hd
  obtain ⟨j, rfl⟩ := Int.eq_ofNat_of_zero_le hnonneg
  obtain ⟨ls, ⟨rest, hrest⟩, hlength, hlevel⟩ := getElem?_levels hp
  have hj : j < ls.length := by omega
  have hi : i < subs.length := (List.getElem?_eq_some_iff.mp hp).1
  rw [hlevel] at hl
  cases hl
  refine ⟨j, subs[j], ls[j], rfl, List.getElem?_eq_getElem (by omega), ?_, ?_⟩
  · rw [← hrest, List.getElem?_append_left hj, List.getElem?_eq_getElem hj]
  · exact lt_levelAfter hd (List.getElem?_eq_getElem hj)

/-- In waves, dependencies are members of earlier waves. -/
theorem waves_respects {subs : List Subproblem} (hvalid : fault? subs = none) :
    Respects subs (waves subs) := by
  have hback := pointBack_of_fault? hvalid
  have hrange : ∀ n, Respects subs ((List.range n).map (wave subs (levels subs))) := by
    intro n
    induction n with
    | zero => exact .nil
    | succ n ih =>
      rw [List.range_succ, List.map_append]
      refine .snoc ih ?_
      intro i hi
      obtain ⟨p, hp, hl⟩ := mem_wave.mp hi
      refine ⟨p, hp, ?_⟩
      intro d hd
      obtain ⟨j, q, m, rfl, hq, hm, hlt⟩ := level_of_dependency hback hp hl d hd
      refine ⟨j, List.mem_flatten.mpr ⟨wave subs (levels subs) m, ?_, ?_⟩, rfl⟩
      · exact List.mem_map_of_mem (List.mem_range.mpr hlt)
      · exact mem_wave.mpr ⟨q, hq, hm⟩
  exact hrange _

theorem orderFrom_nodup {subs : List Subproblem} (n : Nat) {done : List Nat} (h : done.Nodup) :
    (orderFrom subs n done).Nodup := by
  induction n generalizing done with
  | zero => exact h
  | succ n ih =>
    unfold orderFrom
    cases hnext : next? subs done with
    | none => exact h
    | some i =>
      refine ih ?_
      obtain ⟨hnew, _⟩ := next?_spec hnext
      rw [← List.concat_eq_append, List.nodup_concat]
      exact ⟨hnew, h⟩

theorem indices_indexed (subs : List Subproblem) :
    (indexed subs).map (·.1) = List.range subs.length := by
  refine List.ext_getElem? fun i => ?_
  rw [List.getElem?_map, getElem?_indexed, Option.map_map]
  by_cases hi : i < subs.length
  · rw [List.getElem?_eq_getElem hi, List.getElem?_range hi]
    rfl
  · rw [List.getElem?_eq_none (by omega), List.getElem?_eq_none (by simp; omega)]
    rfl

/-- Taking the members of a level keeps their order. -/
theorem members_sublist (xs : List (Nat × Subproblem)) (ks : List Nat) (l : Nat) :
    ((xs.zip ks).filterMap fun x => if x.2 = l then some x.1 else none).Sublist xs := by
  induction xs generalizing ks with
  | nil => simp
  | cons x xs ih =>
    cases ks with
    | nil => simp
    | cons k ks =>
      rw [List.zip_cons_cons, List.filterMap_cons]
      dsimp only
      split
      · exact (ih ks).cons x
      · rename_i y hy
        split at hy
        · cases hy
          exact (ih ks).cons_cons x
        · cases hy

theorem wave_nodup (subs : List Subproblem) (ls : List Nat) (l : Nat) :
    (wave subs ls l).Nodup := by
  unfold wave
  have hsub := (members_sublist (indexed subs) ls l).map (·.1)
  rw [indices_indexed] at hsub
  exact ((List.mergeSort_perm _ _).map _).nodup_iff.mpr (List.nodup_range.sublist hsub)

/-- No subproblem stands twice in the waves. -/
theorem waves_nodup (subs : List Subproblem) : (waves subs).flatten.Nodup := by
  rw [List.nodup_flatten]
  refine ⟨?_, ?_⟩
  · intro group hgroup
    obtain ⟨l, _, rfl⟩ := List.mem_map.mp hgroup
    exact wave_nodup subs _ l
  · unfold waves
    rw [List.pairwise_map]
    refine List.nodup_range.imp ?_
    intro l k hne i hl hk
    obtain ⟨_, _, hlevel⟩ := mem_wave.mp hl
    obtain ⟨_, _, hlevel'⟩ := mem_wave.mp hk
    rw [hlevel] at hlevel'
    exact hne (Option.some.inj hlevel')

end Synthesis.Decomposition
