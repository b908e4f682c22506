import Synthesis.Proofs.Schedule
import Mathlib.Data.List.Perm.Subperm

/-!
The order of execution is greedy. At every place stands the subproblem with the least priority,
and of equals the first, among all that are not listed yet and whose dependencies are. The order
ends only when nobody is ready, so for a decomposition with cycles or with dependencies that do
not exist it lists what can be solved and nothing else; a well-formed one is listed as a whole.
-/
namespace Synthesis.Decomposition

variable {subs : List Subproblem}

/-- The order of subproblems with their indices: by priority, and among equals by index. -/
def Earlier (x y : Nat × Subproblem) : Prop :=
  x.2.priority < y.2.priority ∨ x.2.priority = y.2.priority ∧ x.1 < y.1

theorem Earlier.trans {x y z : Nat × Subproblem} (hxy : Earlier x y) (hyz : Earlier y z) :
    Earlier x z := by
  unfold Earlier at *
  omega

/-- What comes before all others comes before what one of them precedes. -/
theorem Earlier.of_least {x y z : Nat × Subproblem} (hyz : Earlier y z)
    (hx : y = x ∨ Earlier x y) : Earlier x z := by
  rcases hx with rfl | hxy
  · exact hyz
  · exact hxy.trans hyz

/-- The order of indices by the subproblems they stand for. -/
def Before (subs : List Subproblem) (i j : Nat) : Prop :=
  ∃ p q, subs[i]? = some p ∧ subs[j]? = some q ∧ Earlier (i, p) (j, q)

/-- There is a subproblem at the index, and all its dependencies are listed. -/
def Ready (subs : List Subproblem) (listed : List Nat) (i : Nat) : Prop :=
  ∃ p, subs[i]? = some p ∧ ∀ d ∈ p.dependencies, ∃ j ∈ listed, d = (j : Int)

/-- What a greedy order lists next: the least of all that are ready and not listed. -/
structure Chosen (subs : List Subproblem) (listed : List Nat) (i : Nat) : Prop where
  notMem : i ∉ listed
  ready : Ready subs listed i
  least : ∀ j, j ∉ listed → Ready subs listed j → j = i ∨ Before subs i j

theorem isReady_iff {listed : List Nat} {p : Subproblem} :
    isReady listed p = true ↔ ∀ d ∈ p.dependencies, ∃ j ∈ listed, d = (j : Int) := by
  refine ⟨mem_of_isReady, fun h => List.all_eq_true.mpr fun d hd => ?_⟩
  obtain ⟨j, hj, rfl⟩ := h d hd
  simpa using hj

/-- Of candidates in the order of their indices, the best so far is kept unless a later one has a
lower priority, so the one that remains comes before all others. -/
theorem foldl_pick_least (best : Nat × Subproblem) (others : List (Nat × Subproblem))
    (hsorted : (best :: others).Pairwise fun x y => x.1 < y.1) :
    ∀ x ∈ best :: others, x = others.foldl leastPriority.pick best ∨
      Earlier (others.foldl leastPriority.pick best) x := by
  induction others generalizing best with
  | nil =>
    intro x hx
    exact Or.inl (List.mem_singleton.mp hx)
  | cons next others ih =>
    rw [List.pairwise_cons, List.pairwise_cons] at hsorted
    obtain ⟨hbest, hnext, hothers⟩ := hsorted
    rw [List.foldl_cons]
    by_cases hlower : next.2.priority < best.2.priority
    · rw [show leastPriority.pick best next = next from if_pos hlower]
      have hleast := ih next (List.pairwise_cons.mpr ⟨hnext, hothers⟩)
      have hbeats : Earlier next best := Or.inl hlower
      intro x hx
      rcases List.mem_cons.mp hx with rfl | hx
      · -- The one that was best is behind the next, and the least one is not behind that.
        exact Or.inr (hbeats.of_least (hleast next List.mem_cons_self))
      · exact hleast x hx
    · rw [show leastPriority.pick best next = best from if_neg hlower]
      have hleast := ih best (List.pairwise_cons.mpr
        ⟨fun x hx => hbest x (List.mem_cons_of_mem next hx), hothers⟩)
      have hbeats : Earlier best next := by
        have hindex := hbest next List.mem_cons_self
        unfold Earlier
        omega
      intro x hx
      rcases List.mem_cons.mp hx with rfl | hx
      · exact hleast x List.mem_cons_self
      rcases List.mem_cons.mp hx with rfl | hx
      · exact Or.inr (hbeats.of_least (hleast best List.mem_cons_self))
      · exact hleast x (List.mem_cons_of_mem best hx)

theorem pairwise_indexed (subs : List Subproblem) :
    (indexed subs).Pairwise fun x y => x.1 < y.1 := by
  have hrange : ((indexed subs).map (·.1)).Pairwise (· < ·) := by
    rw [indices_indexed]
    exact List.pairwise_lt_range
  exact List.pairwise_map.mp hrange

/-- Those among which the next one is taken, in the order of their indices. -/
def candidates (subs : List Subproblem) (listed : List Nat) : List (Nat × Subproblem) :=
  (indexed subs).filter fun x => !listed.contains x.1 && isReady listed x.2

theorem next?_eq (subs : List Subproblem) (listed : List Nat) :
    next? subs listed = leastPriority (candidates subs listed) := rfl

theorem mem_candidates {listed : List Nat} {i : Nat} {p : Subproblem} :
    (i, p) ∈ candidates subs listed ↔
      subs[i]? = some p ∧ i ∉ listed ∧ isReady listed p = true := by
  rw [candidates, List.mem_filter, mem_indexed]
  simp

theorem next?_chosen {listed : List Nat} {i : Nat} (h : next? subs listed = some i) :
    Chosen subs listed i := by
  obtain ⟨hnew, p, hp, hready⟩ := next?_spec h
  refine ⟨hnew, ⟨p, hp, isReady_iff.mp hready⟩, ?_⟩
  rintro j hj ⟨q, hq, hdone⟩
  have hother := mem_candidates.mpr ⟨hq, hj, isReady_iff.mpr hdone⟩
  have hsorted : (candidates subs listed).Pairwise fun x y => x.1 < y.1 :=
    (pairwise_indexed subs).filter _
  rw [next?_eq] at h
  cases hcandidates : candidates subs listed with
  | nil =>
    rw [hcandidates] at hother
    cases hother
  | cons first rest =>
    rw [hcandidates, leastPriority, Option.some.injEq] at h
    -- The candidate that remains is the subproblem at the index found.
    have hmem := foldl_pick_mem first rest
    rw [← hcandidates, ← Prod.eta (rest.foldl leastPriority.pick first), h, mem_candidates] at hmem
    have hsame : rest.foldl leastPriority.pick first = (i, p) := by
      rw [← Prod.eta (rest.foldl leastPriority.pick first), h,
        Option.some.inj (hmem.1.symm.trans hp)]
    rw [hcandidates] at hother hsorted
    rcases foldl_pick_least first rest hsorted (j, q) hother with heq | hearlier
    · rw [hsame] at heq
      exact Or.inl (Prod.mk.inj heq).1
    · rw [hsame] at hearlier
      exact Or.inr ⟨p, q, hp, hq, hearlier⟩

theorem mem_of_next?_eq_none {listed : List Nat} {i : Nat} (h : next? subs listed = none)
    (hready : Ready subs listed i) : i ∈ listed := by
  by_contra hnew
  obtain ⟨p, hp, hdone⟩ := hready
  have hmem := mem_candidates.mpr ⟨hp, hnew, isReady_iff.mpr hdone⟩
  rw [next?_eq] at h
  cases hcandidates : candidates subs listed with
  | nil =>
    rw [hcandidates] at hmem
    cases hmem
  | cons first rest =>
    rw [hcandidates, leastPriority] at h
    cases h

/-- Every member was chosen when those before it were listed. -/
def Greedy (subs : List Subproblem) (order : List Nat) : Prop :=
  ∀ before i after, order = before ++ i :: after → Chosen subs before i

theorem Greedy.snoc {listed : List Nat} {i : Nat} (h : Greedy subs listed)
    (hi : Chosen subs listed i) : Greedy subs (listed ++ [i]) := by
  intro before j after heq
  rcases List.eq_nil_or_concat after with rfl | ⟨front, back, rfl⟩
  · obtain ⟨rfl, hlast⟩ := List.append_inj' heq rfl
    obtain ⟨rfl, _⟩ := List.cons.inj hlast
    exact hi
  · rw [List.concat_eq_append, ← List.cons_append, ← List.append_assoc] at heq
    exact h before j front (List.append_inj' heq rfl).1

theorem orderFrom_greedy (n : Nat) {listed : List Nat} (h : Greedy subs listed) :
    Greedy subs (orderFrom subs n listed) := by
  induction n generalizing listed with
  | zero => exact h
  | succ n ih =>
    unfold orderFrom
    cases hnext : next? subs listed with
    | none => exact h
    | some i => exact ih (h.snoc (next?_chosen hnext))

theorem executionOrder_isGreedy (subs : List Subproblem) : Greedy subs (executionOrder subs) :=
  orderFrom_greedy subs.length fun before i after h => by simp at h

theorem Greedy.lt_length {order : List Nat} (h : Greedy subs order) :
    ∀ i ∈ order, i < subs.length := by
  intro i hi
  obtain ⟨before, after, heq⟩ := List.append_of_mem hi
  obtain ⟨p, hp, _⟩ := (h before i after heq).ready
  exact (List.getElem?_eq_some_iff.mp hp).1

theorem executionOrder_nodup (subs : List Subproblem) : (executionOrder subs).Nodup :=
  orderFrom_nodup subs.length List.nodup_nil

/-- The order ends when nobody is ready, or else it has become as long as it may. -/
theorem orderFrom_stops (subs : List Subproblem) (n : Nat) (listed : List Nat) :
    next? subs (orderFrom subs n listed) = none ∨
      (orderFrom subs n listed).length = listed.length + n := by
  induction n generalizing listed with
  | zero => exact Or.inr rfl
  | succ n ih =>
    unfold orderFrom
    cases hnext : next? subs listed with
    | none => exact Or.inl hnext
    | some i =>
      rcases ih (listed ++ [i]) with hstop | hlength
      · exact Or.inl hstop
      · right
        rw [hlength, List.length_append, List.length_singleton]
        omega

/-- Different indices of subproblems, as many as there are, are all of them. -/
theorem perm_range_of_length {order : List Nat} {n : Nat} (hnodup : order.Nodup)
    (hlt : ∀ i ∈ order, i < n) (hlength : order.length = n) : order.Perm (List.range n) := by
  apply List.Subperm.perm_of_length_le
  · exact List.subperm_of_subset hnodup fun i hi => List.mem_range.mpr (hlt i hi)
  · exact Nat.le_of_eq (List.length_range.trans hlength.symm)

/-- What is ready at the end is listed. -/
theorem mem_executionOrder_of_ready {i : Nat} (h : Ready subs (executionOrder subs) i) :
    i ∈ executionOrder subs := by
  rcases orderFrom_stops subs subs.length [] with hstop | hlength
  · exact mem_of_next?_eq_none hstop h
  · have hall := perm_range_of_length (executionOrder_nodup subs)
      (executionOrder_isGreedy subs).lt_length (hlength.trans (Nat.zero_add _))
    obtain ⟨p, hp, _⟩ := h
    exact hall.mem_iff.mpr (List.mem_range.mpr (List.getElem?_eq_some_iff.mp hp).1)

/-- When dependencies point back, all subproblems become ready one after the other. -/
theorem mem_executionOrder (hback : PointBack subs) {i : Nat} (hi : i < subs.length) :
    i ∈ executionOrder subs := by
  induction i using Nat.strongRecOn with
  | ind i ih =>
    refine mem_executionOrder_of_ready ⟨subs[i], List.getElem?_eq_getElem hi, ?_⟩
    intro d hd
    obtain ⟨hnonneg, hlt⟩ := hback i subs[i] (List.getElem?_eq_getElem hi) d hd
    obtain ⟨j, rfl⟩ := Int.eq_ofNat_of_zero_le hnonneg
    exact ⟨j, ih j (by omega) (by omega), rfl⟩

/-- A decomposition without a fault is executed as a whole. -/
theorem executionOrder_perm (h : fault? subs = none) :
    (executionOrder subs).Perm (List.range subs.length) := by
  rw [List.perm_ext_iff_of_nodup (executionOrder_nodup subs) List.nodup_range]
  intro i
  rw [List.mem_range]
  exact ⟨(executionOrder_isGreedy subs).lt_length i, mem_executionOrder (pointBack_of_fault? h)⟩

/-- The order of execution lists no subproblem twice, chooses the least ready one at every place,
so that dependencies come first, and leaves out nobody who is ready; of a well-formed decomposition
it lists everybody. -/
theorem executionOrder_chooses_least (subs : List Subproblem) :
    (executionOrder subs).Nodup ∧
    (∀ before i after, executionOrder subs = before ++ i :: after → Chosen subs before i) ∧
    (∀ i, i ∉ executionOrder subs → ¬ Ready subs (executionOrder subs) i) ∧
    (fault? subs = none → (executionOrder subs).Perm (List.range subs.length)) := by
  refine ⟨executionOrder_nodup subs, executionOrder_isGreedy subs, ?_, executionOrder_perm⟩
  intro i hi hready
  exact hi (mem_executionOrder_of_ready hready)

/-- The last one depends on the second, and then comes before the first. -/
def overtaking : List Subproblem :=
  [{ priority := 5 }, { priority := 0 }, { priority := 1, dependencies := [1] }]

theorem executionOrder_chooses_least_overtaking :
    executionOrder overtaking = [1] ++ 2 :: [0] ∧ Chosen overtaking [1] 2 ∧
      fault? overtaking = none ∧ (executionOrder overtaking).Perm [0, 1, 2] := by
  have horder : executionOrder overtaking = [1] ++ 2 :: [0] := by decide
  have hvalid : fault? overtaking = none := by decide
  obtain ⟨_, hchosen, _, hall⟩ := executionOrder_chooses_least overtaking
  exact ⟨horder, hchosen [1] 2 [0] horder, hvalid, hall hvalid⟩

/-- Of a cycle nobody becomes ready, nor does who depends on it. -/
example : executionOrder [{ dependencies := [1] }, { dependencies := [0] }, {},
    { dependencies := [0, 2] }, { dependencies := [2, 9] }] = [2] := by decide

end Synthesis.Decomposition
