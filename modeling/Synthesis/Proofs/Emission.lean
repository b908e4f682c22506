import Synthesis.Proofs.GreedyOrder
import Synthesis.Proofs.Coverage
import Synthesis.Proofs.Blame
import Synthesis.Proofs.Lines
import Synthesis.Strategy.Builtin

/-!
The order in which the built-in strategies make their parts. Each part has its index as its priority
and depends on earlier parts only, on none of them twice. The next part in line is then always
ready, and it is the least of all that are left; so the order of execution is the order in which the
parts were made. Solved one after the other, the parts are started in that order, and assembled code
has their bodies in it.
-/
namespace Synthesis

/-- A subproblem fits its index: this is its priority, and its dependencies are below it and
different. -/
structure Subproblem.InPlace (p : Subproblem) (i : Nat) : Prop where
  priority : p.priority = i
  back : ∀ d ∈ p.dependencies, 0 ≤ d ∧ d < (i : Int)
  once : p.dependencies.Nodup

namespace Decomposition

variable {subs : List Subproblem}

/-- Every subproblem fits its index. -/
def InLine (subs : List Subproblem) : Prop :=
  ∀ (i : Nat) (p : Subproblem), subs[i]? = some p → p.InPlace i

theorem inLine_nil : InLine [] := fun i p hp => by simp at hp

theorem InLine.append {later : List Subproblem} (h : InLine subs)
    (hlater : ∀ (i : Nat) (p : Subproblem), later[i]? = some p → p.InPlace (subs.length + i)) :
    InLine (subs ++ later) := by
  intro i p hp
  by_cases hi : i < subs.length
  · rw [List.getElem?_append_left hi] at hp
    exact h i p hp
  · rw [List.getElem?_append_right (by omega)] at hp
    have hplace := hlater (i - subs.length) p hp
    rwa [show subs.length + (i - subs.length) = i by omega] at hplace

/-- Parts made one after the other, each of them for the index it gets. -/
theorem inPlace_of_zipIdx {α : Type} {xs : List α} {make : α → Nat → Subproblem} {place : Nat → Nat}
    (hmake : ∀ x i, (make x i).InPlace (place i)) (i : Nat) (p : Subproblem)
    (hp : (xs.zipIdx.map fun x => make x.1 x.2)[i]? = some p) : p.InPlace (place i) := by
  rw [List.getElem?_map, List.getElem?_zipIdx, Option.map_map, Nat.zero_add] at hp
  obtain ⟨x, _, rfl⟩ := Option.map_eq_some_iff.mp hp
  exact hmake x i

theorem inLine_zipIdx {α : Type} {xs : List α} {make : α → Nat → Subproblem}
    (hmake : ∀ x i, (make x i).InPlace i) : InLine (xs.zipIdx.map fun x => make x.1 x.2) :=
  inPlace_of_zipIdx hmake

theorem InLine.pointBack (h : InLine subs) : PointBack subs := fun i p hp => (h i p hp).back

theorem dependencyFault?_eq_none {n i : Nat} {seen dependencies : List Int} (hi : i < n)
    (hback : ∀ d ∈ dependencies, 0 ≤ d ∧ d < (i : Int)) (honce : dependencies.Nodup)
    (hseen : ∀ d ∈ dependencies, d ∉ seen) : dependencyFault? n i seen dependencies = none := by
  induction dependencies generalizing seen with
  | nil => rfl
  | cons d rest ih =>
    obtain ⟨hd, hrest⟩ := List.nodup_cons.mp honce
    obtain ⟨hfirst, hlater⟩ := List.forall_mem_cons.mp hback
    have hnew : seen.contains d = false := by
      rw [Bool.eq_false_iff, Ne, List.contains_iff_mem]
      exact hseen d List.mem_cons_self
    rw [dependencyFault?, if_neg (by omega), if_neg (by omega), if_neg (by omega), hnew,
      if_neg (by simp)]
    refine ih hlater hrest fun e he => ?_
    rw [List.mem_cons, not_or]
    exact ⟨fun heq => hd (heq ▸ he), hseen e (List.mem_cons_of_mem d he)⟩

/-- Subproblems that depend on earlier ones only, and on none of them twice, have no fault. -/
theorem fault?_eq_none (hback : PointBack subs) (honce : ∀ p ∈ subs, p.dependencies.Nodup) :
    fault? subs = none := by
  have hfrom : ∀ (before rest : List Subproblem), subs = before ++ rest →
      faultFrom? subs.length before.length rest = none := by
    intro before rest
    induction rest generalizing before with
    | nil => exact fun _ => rfl
    | cons p rest ih =>
      intro hsplit
      have hp : subs[before.length]? = some p := by simp [hsplit]
      have hlater := ih (before ++ [p]) (by simp [hsplit])
      rw [List.length_append, List.length_singleton] at hlater
      rw [faultFrom?, Option.or_eq_none_iff]
      exact ⟨dependencyFault?_eq_none (List.getElem?_eq_some_iff.mp hp).1 (hback _ p hp)
        (honce p (List.mem_of_getElem? hp)) (by simp), hlater⟩
  exact hfrom [] subs rfl

/-- After the first so many, the next one in line is chosen. -/
theorem next?_range (hback : PointBack subs)
    (hrising : subs.Pairwise fun p q => p.priority ≤ q.priority) {k : Nat} (hk : k < subs.length) :
    next? subs (List.range k) = some k := by
  have hnot : k ∉ List.range k := by simp
  have hready : Ready subs (List.range k) k := by
    refine ⟨subs[k], List.getElem?_eq_getElem hk, fun d hd => ?_⟩
    obtain ⟨hnonneg, hlt⟩ := hback k subs[k] (List.getElem?_eq_getElem hk) d hd
    obtain ⟨j, rfl⟩ := Int.eq_ofNat_of_zero_le hnonneg
    exact ⟨j, List.mem_range.mpr (by omega), rfl⟩
  cases hnext : next? subs (List.range k) with
  | none => exact absurd (mem_of_next?_eq_none hnext hready) hnot
  | some i =>
    have hchosen := next?_chosen hnext
    rcases hchosen.least k hnot hready with rfl | ⟨p, q, hp, hq, hearlier⟩
    · rfl
    · -- Nobody behind has a lower priority, and those before are listed.
      have hnew : ¬ i < k := fun hlt => hchosen.notMem (List.mem_range.mpr hlt)
      obtain ⟨hi, rfl⟩ := List.getElem?_eq_some_iff.mp hp
      obtain ⟨_, rfl⟩ := List.getElem?_eq_some_iff.mp hq
      unfold Earlier at hearlier
      dsimp only at hearlier
      by_cases hsame : k = i
      · subst hsame
        omega
      · have hpriority := List.pairwise_iff_getElem.mp hrising k i hk hi (by omega)
        omega

theorem orderFrom_range (hback : PointBack subs)
    (hrising : subs.Pairwise fun p q => p.priority ≤ q.priority) (n k : Nat)
    (hlength : k + n = subs.length) :
    orderFrom subs n (List.range k) = List.range subs.length := by
  induction n generalizing k with
  | zero =>
    rw [← hlength]
    rfl
  | succ n ih =>
    rw [orderFrom, next?_range hback hrising (by omega), ← ih (k + 1) (by omega), List.range_succ]

/-- Subproblems that depend on earlier ones only, and whose priorities never fall, are executed in
the order in which they stand. -/
theorem executionOrder_eq_range (hback : PointBack subs)
    (hrising : subs.Pairwise fun p q => p.priority ≤ q.priority) :
    executionOrder subs = List.range subs.length :=
  orderFrom_range hback hrising subs.length 0 (Nat.zero_add _)

theorem InLine.fault?_eq_none (h : InLine subs) : fault? subs = none := by
  refine Decomposition.fault?_eq_none h.pointBack fun p hp => ?_
  obtain ⟨i, hi⟩ := List.mem_iff_getElem?.mp hp
  exact (h i p hi).once

theorem InLine.executionOrder_eq (h : InLine subs) :
    executionOrder subs = List.range subs.length := by
  refine executionOrder_eq_range h.pointBack (List.pairwise_iff_getElem.mpr ?_)
  intro i j hi hj hij
  rw [(h i subs[i] (List.getElem?_eq_getElem hi)).priority,
    (h j subs[j] (List.getElem?_eq_getElem hj)).priority]
  omega

end Decomposition

namespace Strategy

open Decomposition

theorem nodup_range_ofNat (n : Nat) : ((List.range n).map Int.ofNat).Nodup :=
  List.nodup_range.map fun _ _ h => Int.ofNat.inj h

theorem range_ofNat_back (n : Nat) : ∀ d ∈ (List.range n).map Int.ofNat, 0 ≤ d ∧ d < (n : Int) := by
  intro d hd
  obtain ⟨j, hj, rfl⟩ := List.mem_map.mp hd
  have hlt := List.mem_range.mp hj
  exact ⟨Int.natCast_nonneg j, by simpa using hlt⟩

theorem Clusters.inPlace_partOf (s : Specification) (x : Clusters.Trait) (i : Nat) :
    (partOf s x i).InPlace i := by
  refine ⟨rfl, ?_, ?_⟩
  · rw [dependencies_partOf]
    cases x with
    | category c => exact range_ofNat_back i
    | operation op => exact fun d hd => by cases hd
  · rw [dependencies_partOf]
    cases x with
    | category c => exact nodup_range_ofNat i
    | operation op => exact List.nodup_nil

theorem Clusters.decompose_inLine (s : Specification) :
    InLine (decompose s) ∧ (decompose s = [] ∨ 2 ≤ (decompose s).length) := by
  rw [decompose_eq]
  split
  · exact ⟨inLine_nil, Or.inl rfl⟩
  · rename_i hmany
    refine ⟨inLine_zipIdx (inPlace_partOf s), Or.inr ?_⟩
    rw [List.length_map, List.length_zipIdx]
    omega

/-- The part that prepares a parameter. -/
def Parameters.preparing (s : Specification) (sig : Signature) (p : Param) (i : Nat) : Subproblem :=
  { specification := preparation s sig p, priority := i, slot := "param:" ++ p.name }

/-- The part that combines the prepared parameters. -/
def Parameters.combining (s : Specification) (sig : Signature) : Subproblem :=
  { specification := combination s sig
    dependencies := (List.range sig.params.length).map Int.ofNat
    priority := sig.params.length
    slot := "combine" }

theorem Parameters.split_eq (s : Specification) (sig : Signature) :
    split s sig = (sig.params.zipIdx.map fun x => preparing s sig x.1 x.2) ++ [combining s sig] :=
  rfl

theorem Parameters.split_inLine (s : Specification) (sig : Signature) : InLine (split s sig) := by
  have hpreparing : ∀ p i, (preparing s sig p i).InPlace i := fun p i =>
    ⟨rfl, fun d hd => (List.not_mem_nil hd).elim, List.nodup_nil⟩
  have hcombining : (combining s sig).InPlace sig.params.length :=
    ⟨rfl, range_ofNat_back _, nodup_range_ofNat _⟩
  rw [split_eq]
  refine (inLine_zipIdx hpreparing).append fun i p hp => ?_
  obtain ⟨hi, hp⟩ := List.getElem?_eq_some_iff.mp hp
  obtain rfl : i = 0 := by simpa using hi
  rw [← hp, List.length_map, List.length_zipIdx]
  exact hcombining

theorem Parameters.decompose_inLine (s : Specification) :
    InLine (decompose s) ∧ (decompose s = [] ∨ 2 ≤ (decompose s).length) := by
  unfold decompose
  split
  · rename_i sig _
    split
    · exact ⟨inLine_nil, Or.inl rfl⟩
    · refine ⟨split_inLine s sig, Or.inr ?_⟩
      rw [split_eq, List.length_append, List.length_map, List.length_zipIdx, List.length_singleton]
      omega
  · exact ⟨inLine_nil, Or.inl rfl⟩

theorem Stages.inPlace_stageSubproblem (s : Specification) (q : Stages.Step) (i : Nat) :
    (stageSubproblem s q i).InPlace i := by
  unfold stageSubproblem
  by_cases hi : i = 0
  · rw [if_pos hi]
    exact ⟨rfl, fun d hd => (List.not_mem_nil hd).elim, List.nodup_nil⟩
  · rw [if_neg hi]
    refine ⟨rfl, fun d hd => ?_, List.nodup_singleton _⟩
    rw [List.mem_singleton.mp hd]
    omega

theorem Stages.inPlace_operationSubproblem (s : Specification) (q : Stages.Step) (i : Nat) :
    (operationSubproblem s q i).InPlace i :=
  ⟨rfl, fun _ hd => (List.not_mem_nil hd).elim, List.nodup_nil⟩

/-- The parts for stages and for record operations, in this order. -/
def Stages.parts (s : Specification) (ss ops : List Stages.Step) : List Subproblem :=
  (ss.zipIdx.map fun x => stageSubproblem s x.1 x.2) ++
    ops.zipIdx.map fun x => operationSubproblem s x.1 (ss.length + x.2)

theorem Stages.decompose_eq (s : Specification) :
    decompose s =
      if (stages s.description).length + (operations s.description).length < 2 then []
      else parts s (stages s.description) (operations s.description) :=
  rfl

theorem Stages.parts_inLine (s : Specification) (ss ops : List Stages.Step) :
    InLine (parts s ss ops) := by
  have hstages : InLine (ss.zipIdx.map fun x => stageSubproblem s x.1 x.2) :=
    inLine_zipIdx (inPlace_stageSubproblem s)
  have hoperations : ∀ q i, (operationSubproblem s q (ss.length + i)).InPlace (ss.length + i) :=
    fun q i => inPlace_operationSubproblem s q (ss.length + i)
  refine hstages.append ?_
  rw [List.length_map, List.length_zipIdx]
  exact inPlace_of_zipIdx hoperations

theorem Stages.decompose_inLine (s : Specification) :
    InLine (decompose s) ∧ (decompose s = [] ∨ 2 ≤ (decompose s).length) := by
  rw [decompose_eq]
  split
  · exact ⟨inLine_nil, Or.inl rfl⟩
  · refine ⟨parts_inLine s _ _, Or.inr ?_⟩
    rw [parts, List.length_append, List.length_map, List.length_map, List.length_zipIdx,
      List.length_zipIdx]
    omega

/-- The parts made by a built-in strategy fit their indices, and there is never just one. -/
theorem exists_inLine_of_builtin {strategy : Strategy} (hbuiltin : strategy ∈ builtin)
    (s : Specification) (c : Context) :
    ∃ subs, strategy.decompose s c = .ok subs ∧ InLine subs ∧ (subs = [] ∨ 2 ≤ subs.length) := by
  simp only [builtin, List.mem_cons, List.not_mem_nil, or_false] at hbuiltin
  rcases hbuiltin with rfl | rfl | rfl | rfl
  · exact ⟨Parameters.decompose s, rfl, Parameters.decompose_inLine s⟩
  · exact ⟨Clusters.decompose s, rfl, Clusters.decompose_inLine s⟩
  · exact ⟨Stages.decompose s, rfl, Stages.decompose_inLine s⟩
  · exact ⟨[], rfl, inLine_nil, Or.inl rfl⟩

end Strategy

namespace Composition

open Decomposition

/-- The parts of a decomposition in which every subproblem is solved. -/
def solvedBy (subs : List Subproblem) (choice : Nat → Artifact) : List Part :=
  subs.zipIdx.map fun x => { index := x.2, subproblem := x.1, solution := some (choice x.2) }

variable {subs : List Subproblem} {choice : Nat → Artifact}

theorem slots_solvedBy (subs : List Subproblem) (choice : Nat → Artifact) :
    (solvedBy subs choice).map Part.slot = slotNames subs := by
  rw [solvedBy, List.map_map]
  rfl

theorem index_solvedBy (j : Nat) (p : Part) (hp : (solvedBy subs choice)[j]? = some p) :
    p.index = j := by
  rw [solvedBy, List.getElem?_map, List.getElem?_zipIdx, Option.map_map, Nat.zero_add] at hp
  obtain ⟨q, _, rfl⟩ := Option.map_eq_some_iff.mp hp
  rfl

/-- Solved parts in their places with different slots pass as they are. -/
theorem solved_eq_of_nodup {parts : List Part} {solutions : List (Subproblem × Artifact)}
    (hplaces : ∀ (j : Nat) (p : Part), parts[j]? = some p → p.index = j)
    (hsolutions : parts.map (fun p => (p.subproblem, p.solution)) =
      solutions.map fun x => (x.1, some x.2))
    (hslots : (parts.map Part.slot).Nodup) : solved parts = .ok solutions := by
  have hchecked : Checked parts (solved parts) := solved_checked hplaces
  cases hout : solved parts with
  | ok found =>
    have hinjective : Function.Injective fun x : Subproblem × Artifact => (x.1, some x.2) := by
      intro x y hxy
      obtain ⟨hfirst, hsecond⟩ := Prod.mk.inj hxy
      exact Prod.ext hfirst (Option.some.inj hsecond)
    congr 1
    apply List.map_injective_iff.mpr hinjective
    rw [← solvedFrom_eq_ok hout, hsolutions]
  | error fault =>
    rw [hout] at hchecked
    cases hchecked with
    | missing before p after hsplit _ _ hmissing =>
      have hp : (p.subproblem, p.solution) ∈ solutions.map fun x => (x.1, some x.2) := by
        rw [← hsolutions]
        exact List.mem_map_of_mem (by simp [hsplit])
      obtain ⟨x, _, hx⟩ := List.mem_map.mp hp
      exact absurd ((Prod.mk.inj hx).2.trans hmissing) (Option.some_ne_none _)
    | clash before p after first hsplit _ hclash =>
      rw [hsplit, List.append_cons, List.map_append] at hslots
      exact absurd (List.nodup_append.mp hslots).1 hclash

theorem solved_solvedBy (hslots : (slotNames subs).Nodup) (choice : Nat → Artifact) :
    solved (solvedBy subs choice) = .ok (subs.zipIdx.map fun x => (x.1, choice x.2)) := by
  refine solved_eq_of_nodup index_solvedBy ?_ ?_
  · rw [solvedBy, List.map_map, List.map_map]
    rfl
  · rwa [slots_solvedBy]

/-- Parts whose solutions are composed have different slots. -/
theorem nodup_of_solvedFrom {i : Nat} {slots : Table Int} {parts : List Part}
    {solutions : List (Subproblem × Artifact)} (h : solvedFrom i slots parts = .ok solutions) :
    (parts.map Part.slot).Nodup ∧ ∀ name ∈ parts.map Part.slot, slots.get? name = none := by
  induction parts generalizing i slots solutions with
  | nil => exact ⟨List.nodup_nil, by simp⟩
  | cons p rest ih =>
    unfold solvedFrom at h
    dsimp only at h
    split at h
    · cases h
    · split at h
      · cases h
      · split at h
        · cases h
        next hfree =>
          cases hlater : solvedFrom (i + 1)
              (slots.insert (p.subproblem.slotName p.index) p.index) rest with
          | error fault =>
            rw [hlater] at h
            cases h
          | ok later =>
            obtain ⟨hnodup, huntaken⟩ := ih hlater
            have hnew : ∀ name ∈ rest.map Part.slot, name ≠ p.slot ∧ slots.get? name = none := by
              intro name hname
              have hnone := huntaken name hname
              rw [Table.get?_insert] at hnone
              split at hnone
              · cases hnone
              · rename_i hne
                exact ⟨Ne.symm hne, hnone⟩
            rw [List.map_cons, List.nodup_cons, List.forall_mem_cons]
            exact ⟨⟨fun hmem => (hnew _ hmem).1 rfl, hnodup⟩, hfree, fun name hname =>
              (hnew name hname).2⟩

theorem filterMap_range_getElem? {α : Type} (xs : List α) :
    (List.range xs.length).filterMap (xs[·]?) = xs := by
  induction xs using List.reverseRecOn with
  | nil => rfl
  | append_singleton xs x ih =>
    have hsame : (List.range xs.length).filterMap ((xs ++ [x])[·]?) = xs := by
      refine Eq.trans (List.filterMap_congr fun i hi => ?_) ih
      exact List.getElem?_append_left (List.mem_range.mp hi)
    rw [List.length_append, List.length_singleton, List.range_succ, List.filterMap_append, hsame]
    simp

/-- The lines in front of the bodies in assembled code: the imports and a blank line, if any. -/
def headText (codes : List String) : String :=
  let heads := Text.distinct (codes.flatMap imports)
  if heads.isEmpty then "" else Text.join "\n" heads ++ "\n\n"

theorem assembledCode_eq (codes : List String) :
    assembledCode codes =
      headText codes ++ Text.join "\n\n" ((codes.map body).filter (· != "")) := by
  unfold assembledCode headText
  dsimp only
  split
  · rw [String.empty_append]
  · rfl

end Composition

namespace Composer

open Decomposition Synthesis.Composition

variable {subs : List Subproblem}

theorem compose_of_codeOf {composer : Composer} {parts : List Part} {s : Specification}
    {solutions : List (Subproblem × Artifact)} {code : String}
    (hsolved : solved parts = .ok solutions) (hcode : composer.codeOf s solutions = .ok code) :
    composer.compose parts s =
      .ok ⟨code, confidence (solutions.map (·.2)), "compose/" ++ composer.name⟩ := by
  unfold compose
  rw [hsolved]
  simp only [bind, Except.bind, hcode]
  rfl

/-- The code composer takes solutions that stand in the order of execution as they are. -/
theorem codeOf_code_in_order {solutions : List (Subproblem × Artifact)}
    (hvalid : fault? (solutions.map (·.1)) = none)
    (horder : executionOrder (solutions.map (·.1)) = List.range solutions.length)
    (s : Specification) :
    Composer.code.codeOf s solutions = .ok (assembledCode (solutions.map (·.2.code))) := by
  unfold codeOf
  dsimp only
  rw [hvalid, horder]
  dsimp only
  rw [← List.map_filterMap, filterMap_range_getElem?]

theorem codeOf_code_of_inLine (h : InLine subs) (s : Specification) (choice : Nat → Artifact) :
    Composer.code.codeOf s (subs.zipIdx.map fun x => (x.1, choice x.2)) =
      .ok (assembledCode ((List.range subs.length).map fun i => (choice i).code)) := by
  have hsubs : (subs.zipIdx.map fun x => (x.1, choice x.2)).map (·.1) = subs := by
    rw [List.map_map]
    exact List.zipIdx_map_fst 0 subs
  have hcodes : (subs.zipIdx.map fun x => (x.1, choice x.2)).map (·.2.code) =
      (List.range subs.length).map fun i => (choice i).code := by
    rw [List.map_map, List.range_eq_range', ← List.zipIdx_map_snd 0 subs, List.map_map]
    rfl
  rw [codeOf_code_in_order, hcodes]
  · rw [hsubs]
    exact h.fault?_eq_none
  · rw [hsubs, List.length_map, List.length_zipIdx]
    exact h.executionOrder_eq

theorem exists_codeOf_of_inLine (composer : Composer) (h : InLine subs) (s : Specification)
    (choice : Nat → Artifact) :
    ∃ code, composer.codeOf s (subs.zipIdx.map fun x => (x.1, choice x.2)) = .ok code := by
  cases composer with
  | sequential => exact ⟨_, rfl⟩
  | function => exact ⟨_, rfl⟩
  | code => exact ⟨_, codeOf_code_of_inLine h s choice⟩

theorem nodup_of_compose {composer : Composer} {choice : Nat → Artifact} {s : Specification}
    {a : Artifact} (h : composer.compose (solvedBy subs choice) s = .ok a) :
    (slotNames subs).Nodup := by
  obtain ⟨solutions, hsolved, _⟩ := compose_eq_ok h
  rw [← slots_solvedBy subs choice]
  exact (nodup_of_solvedFrom hsolved).1

/-- Solved subproblems in line are composed exactly when their slots are different. -/
theorem compose_solvedBy_iff (composer : Composer) (h : InLine subs) (choice : Nat → Artifact)
    (s : Specification) :
    (∃ a, composer.compose (solvedBy subs choice) s = .ok a) ↔ (slotNames subs).Nodup := by
  constructor
  · rintro ⟨a, ha⟩
    exact nodup_of_compose ha
  · intro hslots
    obtain ⟨code, hcode⟩ := composer.exists_codeOf_of_inLine h s choice
    exact ⟨_, compose_of_codeOf (solved_solvedBy hslots choice) hcode⟩

/-- The code composed from subproblems in line has their bodies in their order. -/
theorem code_of_inLine (h : InLine subs) {choice : Nat → Artifact} {s : Specification}
    {a : Artifact} (ha : Composer.code.compose (solvedBy subs choice) s = .ok a) :
    a.code = assembledCode ((List.range subs.length).map fun i => (choice i).code) := by
  obtain ⟨solutions, hsolved, hcode⟩ := compose_eq_ok ha
  rw [solved_solvedBy (nodup_of_compose ha) choice] at hsolved
  cases hsolved
  rw [codeOf_code_of_inLine h s choice] at hcode
  exact (Except.ok.inj hcode).symm

end Composer

namespace Engine

open Decomposition

variable {ω : Type}

/-- Solved one after the other, subproblems in line are started as they stand, until one fails. -/
theorem starts_of_inLine {e : Engine ω} (hsequential : e.settings.parallelSubproblems = false)
    {subs : List Subproblem} (h : InLine subs) (solve : Solver ω) (c : Context) (σ : Session ω) :
    ∃ starts, Runs solve subs σ starts (e.solveChildren solve subs c σ).2 ∧
      starts.map (·.index) <+: List.range subs.length ∧
      ((∀ x ∈ starts, x.Solved) → starts.map (·.index) = List.range subs.length) := by
  have hschedule : e.schedule subs = oneByOne (List.range subs.length) := by
    rw [schedule, if_neg (by simp [hsequential]), h.executionOrder_eq]
  have hrespects := e.schedule_respects h.fault?_eq_none
  have hnone : (Children.start subs).failures = [] := rfl
  obtain ⟨groups, hruns, hprogress⟩ :=
    solveWaves_progress solve (fun _ h => hrespects.of_mem h) c hnone σ
  rw [hschedule] at hprogress
  have hindices : groups.flatten.map (·.index) = (groups.map (·.map (·.index))).flatten :=
    List.map_flatten
  rw [e.solveChildren_eq_solveWaves solve subs c σ]
  refine ⟨groups.flatten, hruns, ?_, ?_⟩
  · obtain ⟨rest, hrest⟩ := hprogress.indices_prefix
    refine ⟨rest.flatten, ?_⟩
    rw [hindices, ← List.flatten_append, hrest, flatten_oneByOne]
  · intro hsolved
    rw [hindices, hprogress.indices_eq hsolved, flatten_oneByOne]

end Engine

namespace Strategy

open Decomposition Synthesis.Composition

/-- The parts of a built-in strategy stand in the order of their execution. -/
theorem builtin_in_emission_order {strategy : Strategy} (hbuiltin : strategy ∈ builtin)
    (s : Specification) (c : Context) :
    ∃ subs, strategy.decompose s c = .ok subs ∧
      (subs = [] ∨ 2 ≤ subs.length) ∧
      fault? subs = none ∧
      (∀ (i : Nat) (p : Subproblem), subs[i]? = some p → p.priority = i) ∧
      executionOrder subs = List.range subs.length ∧
      (∀ (ω : Type) (e : Engine ω), e.settings.parallelSubproblems = false →
        ∀ (solve : Engine.Solver ω) (d : Context) (σ : Session ω),
        ∃ starts, Engine.Runs solve subs σ starts (e.solveChildren solve subs d σ).2 ∧
          starts.map (·.index) <+: List.range subs.length ∧
          ((∀ x ∈ starts, x.Solved) → starts.map (·.index) = List.range subs.length)) ∧
      ∀ (choice : Nat → Artifact) (t : Specification),
        ((∃ a, Composer.code.compose (solvedBy subs choice) t = .ok a) ↔
          (slotNames subs).Nodup) ∧
        ∀ a, Composer.code.compose (solvedBy subs choice) t = .ok a →
          a.code = headText ((List.range subs.length).map fun i => (choice i).code) ++
            Text.join "\n\n"
              (((List.range subs.length).map fun i => body (choice i).code).filter (· != "")) := by
  obtain ⟨subs, hsubs, hline, hmany⟩ := exists_inLine_of_builtin hbuiltin s c
  refine ⟨subs, hsubs, hmany, hline.fault?_eq_none, fun i p hp => (hline i p hp).priority,
    hline.executionOrder_eq, ?_, ?_⟩
  · intro ω e hsequential solve d σ
    exact Engine.starts_of_inLine hsequential hline solve d σ
  · intro choice t
    refine ⟨Composer.code.compose_solvedBy_iff hline choice t, fun a ha => ?_⟩
    rw [Composer.code_of_inLine hline ha, assembledCode_eq, List.map_map]
    rfl

/-- Two stages of a pipeline and an operation on records. -/
def rows : Specification := { description := "parse the rows, sort them and create a record" }

theorem builtin_in_emission_order_rows :
    stages ∈ builtin ∧ ∃ subs, stages.decompose rows {} = .ok subs ∧
      subs.map (·.slot) = ["stage:parse", "stage:sort", "op:create"] ∧
      executionOrder subs = [0, 1, 2] ∧
      ∀ (e : Engine Unit) (σ : Session Unit), e.settings.parallelSubproblems = false →
        ∃ starts,
          Engine.Runs Engine.answering subs σ starts
            (e.solveChildren Engine.answering subs {} σ).2 ∧
          starts.map (·.index) = [0, 1, 2] := by
  have hbuiltin : stages ∈ builtin := by simp [builtin]
  have hslots : (Stages.decompose rows).map (·.slot) =
      ["stage:parse", "stage:sort", "op:create"] := by
    decide +kernel
  obtain ⟨subs, hsubs, _, _, _, horder, hstarts, _⟩ :=
    builtin_in_emission_order hbuiltin rows {}
  obtain rfl : Stages.decompose rows = subs := Except.ok.inj hsubs
  have hlength : (Stages.decompose rows).length = 3 := by
    simpa using congrArg List.length hslots
  rw [hlength] at horder
  refine ⟨hbuiltin, _, hsubs, hslots, horder, ?_⟩
  intro e σ hsequential
  obtain ⟨starts, hruns, _, hall⟩ := hstarts Unit e hsequential Engine.answering {} σ
  rw [hlength] at hall
  exact ⟨starts, hruns, hall (hruns.solved fun s c σ => ⟨_, rfl⟩)⟩

end Strategy

end Synthesis
