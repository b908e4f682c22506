import Synthesis.Proofs.GreedyOrder
import Mathlib.Order.Bounds.Defs

/-!
The depth of a wave. A subproblem stands in the wave whose number is the length of the longest
chain of dependencies that leads down from it. No wave is empty, and since a chain needs one group
of a schedule for each of its members, no schedule that respects dependencies has fewer groups
than there are waves. In a wave the members stand in the order of priority and index, for sorting
keeps equals in the order they had.
-/
namespace Synthesis

/-- A stable sort keeps members that are equal in the order of sorting as they stood. -/
theorem pairwise_mergeSort_of_pairwise {α : Type} (le : α → α → Bool) {r : α → α → Prop}
    {xs : List α} (htrans : ∀ a b c, le a b = true → le b c = true → le a c = true)
    (htotal : ∀ a b, (le a b || le b a) = true) (hr : xs.Pairwise r) :
    (xs.mergeSort le).Pairwise fun a b => le a b = true ∧ (le b a = true → r a b) := by
  induction xs with
  | nil =>
    rw [List.mergeSort_nil]
    exact List.Pairwise.nil
  | cons x xs ih =>
    obtain ⟨hx, hxs⟩ := List.pairwise_cons.mp hr
    obtain ⟨front, back, hsorted, hothers, hfront⟩ := List.mergeSort_cons htrans htotal x xs
    have hle := List.pairwise_mergeSort htrans htotal (x :: xs)
    have hrest := ih hxs
    rw [hsorted] at hle ⊢
    rw [hothers, List.pairwise_append] at hrest
    obtain ⟨hfronts, hbacks, hacross⟩ := hrest
    have hmem : ∀ b ∈ back, b ∈ xs := fun b hb =>
      List.mem_mergeSort.mp (hothers ▸ List.mem_append_right front hb)
    rw [List.pairwise_append, List.pairwise_cons] at hle ⊢
    refine ⟨hfronts, ⟨?_, hbacks⟩, ?_⟩
    · intro b hb
      exact ⟨hle.2.1.1 b hb, fun _ => hx b (hmem b hb)⟩
    · intro a ha b hb
      rcases List.mem_cons.mp hb with rfl | hb
      · -- What is sorted before the first one is less than it.
        refine ⟨hle.2.2 a ha b List.mem_cons_self, fun hba => ?_⟩
        have hless := hfront a ha
        rw [hba] at hless
        cases hless
      · exact hacross a ha b hb

namespace Decomposition

variable {subs : List Subproblem}

/-- A chain of `n` dependencies leads down from the subproblem at `i`. -/
inductive Descends (subs : List Subproblem) : Nat → Nat → Prop
  | here {i : Nat} (hi : i < subs.length) : Descends subs i 0
  | down {i j n : Nat} {p : Subproblem} (hp : subs[i]? = some p)
      (hd : (j : Int) ∈ p.dependencies) (h : Descends subs j n) : Descends subs i (n + 1)

/-- The subproblem at `i` is a member of the wave of that number. -/
def InWave (subs : List Subproblem) (number i : Nat) : Prop :=
  ∃ wave, (waves subs)[number]? = some wave ∧ i ∈ wave

section Depth

theorem length_levels (subs : List Subproblem) : (levels subs).length = subs.length :=
  (length_levelsAfter [] subs).trans (Nat.zero_add _)

theorem exists_level {i : Nat} (hi : i < subs.length) : ∃ l, (levels subs)[i]? = some l :=
  ⟨_, List.getElem?_eq_getElem ((length_levels subs).symm ▸ hi)⟩

theorem lt_length_of_level {i l : Nat} (h : (levels subs)[i]? = some l) : i < subs.length :=
  length_levels subs ▸ (List.getElem?_eq_some_iff.mp h).1

/-- A level is not raised, or it is raised just above that of a dependency. -/
theorem foldl_above (ls : List Nat) (dependencies : List Int) (l : Nat) :
    dependencies.foldl (above ls) l = l ∨ ∃ j m : Nat, (j : Int) ∈ dependencies ∧
      ls[j]? = some m ∧ dependencies.foldl (above ls) l = m + 1 := by
  induction dependencies generalizing l with
  | nil => exact Or.inl rfl
  | cons d rest ih =>
    rw [List.foldl_cons]
    rcases ih (above ls l d) with hsame | ⟨j, m, hj, hm, heq⟩
    · rw [hsame]
      unfold above
      split
      · rename_i hd
        split
        · rename_i m hm
          rcases Nat.le_total (m + 1) l with hle | hle
          · exact Or.inl (Nat.max_eq_left hle)
          · refine Or.inr ⟨d.toNat, m, ?_, hm, Nat.max_eq_right hle⟩
            rw [Int.toNat_of_nonneg hd]
            exact List.mem_cons_self
        · exact Or.inl rfl
      · exact Or.inl rfl
    · exact Or.inr ⟨j, m, List.mem_cons_of_mem d hj, hm, heq⟩

/-- Below every level but the lowest there is a dependency on the level next to it. -/
theorem exists_dependency_of_level {i m : Nat} (h : (levels subs)[i]? = some (m + 1)) :
    ∃ (p : Subproblem) (j : Nat), subs[i]? = some p ∧ (j : Int) ∈ p.dependencies ∧
      (levels subs)[j]? = some m := by
  have hi := lt_length_of_level h
  have hp : subs[i]? = some subs[i] := List.getElem?_eq_getElem hi
  obtain ⟨ls, ⟨rest, hrest⟩, _, hlevel⟩ := getElem?_levels hp
  rw [h, Option.some.injEq, levelAfter] at hlevel
  rcases foldl_above ls subs[i].dependencies 0 with hzero | ⟨j, k, hj, hk, heq⟩
  · omega
  · obtain rfl : k = m := by omega
    have hlt := (List.getElem?_eq_some_iff.mp hk).1
    refine ⟨subs[i], j, hp, hj, ?_⟩
    rw [← hrest, List.getElem?_append_left hlt, hk]

theorem descends_of_level {i l : Nat} (h : (levels subs)[i]? = some l) : Descends subs i l := by
  induction l generalizing i with
  | zero => exact .here (lt_length_of_level h)
  | succ l ih =>
    obtain ⟨p, j, hp, hj, hl⟩ := exists_dependency_of_level h
    exact .down hp hj (ih hl)

theorem Descends.le_level (hback : PointBack subs) {i n l : Nat} (h : Descends subs i n)
    (hl : (levels subs)[i]? = some l) : n ≤ l := by
  induction h generalizing l with
  | here => exact Nat.zero_le l
  | @down i j n p hp hd _ ih =>
    obtain ⟨k, _, m, hk, _, hm, hlt⟩ := level_of_dependency hback hp hl j hd
    obtain rfl : j = k := Int.ofNat_inj.mp hk
    have hle := ih hm
    omega

theorem Descends.lt_length {i n : Nat} (h : Descends subs i n) : i < subs.length := by
  cases h with
  | here hi => exact hi
  | down hp => exact (List.getElem?_eq_some_iff.mp hp).1

/-- The level of a subproblem is the length of the longest chain below it. -/
theorem level_iff_isGreatest (hback : PointBack subs) {i l : Nat} :
    (levels subs)[i]? = some l ↔ IsGreatest {n | Descends subs i n} l := by
  constructor
  · intro hl
    exact ⟨descends_of_level hl, fun n hn => Descends.le_level hback hn hl⟩
  · rintro ⟨hdescends, hbound⟩
    obtain ⟨m, hm⟩ := exists_level (Descends.lt_length hdescends)
    have hle := Descends.le_level hback hdescends hm
    have hge := hbound (descends_of_level hm)
    rw [hm, Nat.le_antisymm hge hle]

/-- With a level, all lower ones are taken too. -/
theorem exists_of_level {i m : Nat} (h : (levels subs)[i]? = some m) {l : Nat} (hl : l ≤ m) :
    ∃ j : Nat, (levels subs)[j]? = some l := by
  induction m generalizing i with
  | zero => exact ⟨i, by rw [h, Nat.le_zero.mp hl]⟩
  | succ m ih =>
    rcases Nat.lt_or_eq_of_le hl with hlt | rfl
    · obtain ⟨_, j, _, _, hj⟩ := exists_dependency_of_level h
      exact ih hj (Nat.le_of_lt_succ hlt)
    · exact ⟨i, h⟩

end Depth

section Count

theorem lt_foldl_max {ls : List Nat} {n l : Nat} :
    l < ls.foldl (fun n k => max n (k + 1)) n ↔ l < n ∨ ∃ k ∈ ls, l ≤ k := by
  induction ls generalizing n with
  | nil => simp
  | cons k ls ih =>
    have hfirst : l < max n (k + 1) ↔ l < n ∨ l ≤ k := by omega
    rw [List.foldl_cons, ih, List.exists_mem_cons_iff, hfirst, or_assoc]

theorem lt_length_waves {number : Nat} :
    number < (waves subs).length ↔ ∃ l ∈ levels subs, number ≤ l := by
  rw [waves, List.length_map, List.length_range, lt_foldl_max]
  simp

theorem getElem?_waves {number : Nat} (h : number < (waves subs).length) :
    (waves subs)[number]? = some (wave subs (levels subs) number) := by
  unfold waves at h ⊢
  rw [List.length_map, List.length_range] at h
  rw [List.getElem?_map, List.getElem?_range h]
  rfl

theorem inWave_iff {number i : Nat} : InWave subs number i ↔ (levels subs)[i]? = some number := by
  constructor
  · rintro ⟨group, hgroup, hi⟩
    have hlt := (List.getElem?_eq_some_iff.mp hgroup).1
    rw [getElem?_waves hlt, Option.some.injEq] at hgroup
    subst hgroup
    obtain ⟨_, _, hl⟩ := mem_wave.mp hi
    exact hl
  · intro hl
    have hi := lt_length_of_level hl
    have hlt : number < (waves subs).length :=
      lt_length_waves.mpr ⟨number, List.mem_of_getElem? hl, Nat.le_refl _⟩
    exact ⟨_, getElem?_waves hlt, mem_wave.mpr ⟨subs[i], List.getElem?_eq_getElem hi, hl⟩⟩

theorem mem_flatten_waves {i : Nat} :
    i ∈ (waves subs).flatten ↔ ∃ number, InWave subs number i := by
  rw [List.mem_flatten]
  constructor
  · rintro ⟨group, hgroup, hi⟩
    obtain ⟨number, hnumber⟩ := List.mem_iff_getElem?.mp hgroup
    exact ⟨number, group, hnumber, hi⟩
  · rintro ⟨number, group, hgroup, hi⟩
    exact ⟨group, List.mem_of_getElem? hgroup, hi⟩

theorem flatten_waves_perm (subs : List Subproblem) :
    (waves subs).flatten.Perm (List.range subs.length) := by
  rw [List.perm_ext_iff_of_nodup (waves_nodup subs) List.nodup_range]
  intro i
  rw [mem_flatten_waves, List.mem_range]
  constructor
  · rintro ⟨number, h⟩
    exact lt_length_of_level (inWave_iff.mp h)
  · intro hi
    obtain ⟨l, hl⟩ := exists_level hi
    exact ⟨l, inWave_iff.mpr hl⟩

theorem exists_inWave {number : Nat} (h : number < (waves subs).length) :
    ∃ i, InWave subs number i := by
  obtain ⟨l, hl, hle⟩ := lt_length_waves.mp h
  obtain ⟨i, hi⟩ := List.mem_iff_getElem?.mp hl
  obtain ⟨j, hj⟩ := exists_of_level hi hle
  exact ⟨j, inWave_iff.mpr hj⟩

theorem nil_notMem_waves (subs : List Subproblem) : [] ∉ waves subs := by
  intro hnil
  obtain ⟨number, hnumber⟩ := List.mem_iff_getElem?.mp hnil
  obtain ⟨i, group, hgroup, hi⟩ := exists_inWave (List.getElem?_eq_some_iff.mp hnumber).1
  rw [hnumber, Option.some.injEq] at hgroup
  rw [← hgroup] at hi
  cases hi

end Count

/-- In a wave the members stand by priority, and equals by index. -/
theorem wave_pairwise (subs : List Subproblem) (ls : List Nat) (l : Nat) :
    (wave subs ls l).Pairwise (Before subs) := by
  unfold wave
  have hsublist := members_sublist (indexed subs) ls l
  have hstable := pairwise_mergeSort_of_pairwise
    (fun a b : Nat × Subproblem => decide (a.2.priority ≤ b.2.priority))
    (fun a b c => by simp only [decide_eq_true_eq]; omega)
    (fun a b => by simp only [Bool.or_eq_true, decide_eq_true_eq]; omega)
    ((pairwise_indexed subs).sublist hsublist)
  refine List.pairwise_map.mpr (hstable.imp_of_mem ?_)
  intro a b ha hb hab
  have ha' := mem_indexed.mp (hsublist.subset (List.mem_mergeSort.mp ha))
  have hb' := mem_indexed.mp (hsublist.subset (List.mem_mergeSort.mp hb))
  refine ⟨a.2, b.2, ha', hb', ?_⟩
  simp only [decide_eq_true_eq] at hab
  dsimp only [Earlier]
  omega

/-- In the concatenation of a schedule's groups, dependencies come first. -/
theorem Respects.ready_of_flatten {schedule : List (List Nat)} (h : Respects subs schedule)
    {before after : List Nat} {i : Nat} (heq : schedule.flatten = before ++ i :: after) :
    Ready subs before i := by
  induction h generalizing after with
  | nil => simp at heq
  | @snoc earlier group h hgroup ih =>
    rw [List.flatten_append, List.flatten_singleton, List.append_eq_append_iff] at heq
    rcases heq with ⟨front, rfl, hmem⟩ | ⟨back, hback, hmem⟩
    · -- The place is in the last group.
      obtain ⟨p, hp, hdone⟩ := hgroup i (hmem ▸ List.mem_append_right front List.mem_cons_self)
      refine ⟨p, hp, fun d hd => ?_⟩
      obtain ⟨j, hj, rfl⟩ := hdone d hd
      exact ⟨j, List.mem_append_left front hj, rfl⟩
    · cases back with
      | nil =>
        rw [List.append_nil] at hback
        rw [← hback]
        rw [List.nil_append] at hmem
        exact hgroup i (hmem ▸ List.mem_cons_self)
      | cons k back =>
        obtain ⟨rfl, _⟩ := List.cons.inj hmem
        exact ih hback

/-- Below a member of a group, a chain has one group for each of its steps. -/
theorem Respects.descends_le {schedule : List (List Nat)} (h : Respects subs schedule)
    {i n : Nat} (hn : Descends subs i n) {before after : List (List Nat)} {group : List Nat}
    (heq : schedule = before ++ group :: after) (hi : i ∈ group) : n ≤ before.length := by
  induction hn generalizing before after group with
  | here => exact Nat.zero_le _
  | @down i j n p hp hd _ ih =>
    obtain ⟨q, hq, hdone⟩ := h.split heq i hi
    obtain rfl : p = q := Option.some.inj (hp.symm.trans hq)
    obtain ⟨k, hk, hjk⟩ := hdone j hd
    obtain rfl : j = k := Int.ofNat_inj.mp hjk
    obtain ⟨lower, hlower, hj⟩ := List.mem_flatten.mp hk
    obtain ⟨front, back, rfl⟩ := List.append_of_mem hlower
    have hsplit : schedule = front ++ lower :: (back ++ group :: after) := by
      rw [heq, List.append_assoc, List.cons_append]
    have hle := ih hsplit hj
    rw [List.length_append, List.length_cons]
    omega

/-- No schedule of all subproblems gets by with fewer groups than there are waves. -/
theorem length_waves_le {schedule : List (List Nat)} (h : Respects subs schedule)
    (hall : ∀ i < subs.length, i ∈ schedule.flatten) :
    (waves subs).length ≤ schedule.length := by
  cases hlast : (waves subs).length with
  | zero => exact Nat.zero_le _
  | succ number =>
    have hlt : number < (waves subs).length := by omega
    obtain ⟨i, hi⟩ := exists_inWave hlt
    have hdescends := descends_of_level (inWave_iff.mp hi)
    obtain ⟨group, hgroup, hmem⟩ := List.mem_flatten.mp (hall i hdescends.lt_length)
    obtain ⟨before, after, rfl⟩ := List.append_of_mem hgroup
    have hle := h.descends_le hdescends rfl hmem
    rw [List.length_append, List.length_cons]
    omega

/-- The waves of a well-formed decomposition hold every subproblem once, none is empty, and what a
member depends on is in an earlier wave. The number of its wave is the length of the longest chain
of dependencies below a subproblem, and no schedule has fewer groups. Each wave is sorted, and one
after the other they are an order in which dependencies come first. -/
theorem waves_by_depth (subs : List Subproblem) (hvalid : fault? subs = none) :
    (waves subs).flatten.Perm (List.range subs.length) ∧
    [] ∉ waves subs ∧
    (∀ number i, InWave subs number i → ∃ p, subs[i]? = some p ∧
      ∀ d ∈ p.dependencies, ∃ earlier < number, ∃ j : Nat, d = (j : Int) ∧ InWave subs earlier j) ∧
    (∀ number i, InWave subs number i ↔ IsGreatest {n | Descends subs i n} number) ∧
    (∀ schedule, Respects subs schedule → (∀ i < subs.length, i ∈ schedule.flatten) →
      (waves subs).length ≤ schedule.length) ∧
    (∀ group ∈ waves subs, group.Pairwise (Before subs)) ∧
    (∀ before i after, (waves subs).flatten = before ++ i :: after → Ready subs before i) := by
  have hback := pointBack_of_fault? hvalid
  refine ⟨flatten_waves_perm subs, nil_notMem_waves subs, ?_, ?_, ?_, ?_, ?_⟩
  · intro number i hi
    have hl := inWave_iff.mp hi
    have hlt := lt_length_of_level hl
    have hp : subs[i]? = some subs[i] := List.getElem?_eq_getElem hlt
    refine ⟨subs[i], hp, fun d hd => ?_⟩
    obtain ⟨j, _, m, rfl, _, hm, hlt⟩ := level_of_dependency hback hp hl d hd
    exact ⟨m, hlt, j, rfl, inWave_iff.mpr hm⟩
  · intro number i
    rw [inWave_iff, level_iff_isGreatest hback]
  · intro schedule hrespects hall
    exact length_waves_le hrespects hall
  · intro group hgroup
    obtain ⟨l, _, rfl⟩ := List.mem_map.mp hgroup
    exact wave_pairwise subs _ l
  · intro before i after heq
    exact (waves_respects hvalid).ready_of_flatten heq

/-- Two ways lead from the last subproblem to the first, and one of them is longer. -/
def detour : List Subproblem :=
  [{}, { dependencies := [0], priority := 7 }, { dependencies := [1] }, { dependencies := [0, 2] }]

theorem waves_by_depth_detour :
    fault? detour = none ∧ (waves detour).flatten.Perm [0, 1, 2, 3] ∧ [] ∉ waves detour ∧
      InWave detour 3 3 ∧ IsGreatest {n | Descends detour 3 n} 3 := by
  have hvalid : fault? detour = none := by decide
  obtain ⟨hall, hnil, _, hdepth, _⟩ := waves_by_depth detour hvalid
  have hlast : InWave detour 3 3 := inWave_iff.mpr (by decide)
  exact ⟨hvalid, hall, hnil, hlast, (hdepth 3 3).mp hlast⟩

end Decomposition

end Synthesis
