import Synthesis.Strategy.Builtin
import Synthesis.Proofs.ParamText
import Synthesis.Proofs.TestKinds

/-!
Chains of decompositions by the built-in strategies. A part is written from the description, the
signature and the tests of what was split, so one strategy can make work for another; but the
tests can be split only as long as they differ, a signature only once, and a recognised step not
at all. So a chain has at most four decompositions.
-/
namespace Synthesis.Strategy

/-- A chain of decompositions, each of a part made by the one before it, by the names of their
strategies. -/
inductive Chain : Specification → List String → Specification → Prop
  | stop (s : Specification) : Chain s [] s
  | split {s t : Specification} {strategy : Strategy} {c : Context} {subs : List Subproblem}
      {p : Subproblem} {names : List String} (hbuiltin : strategy ∈ builtin)
      (hsubs : strategy.decompose s c = .ok subs) (hp : p ∈ subs)
      (rest : Chain p.specification names t) : Chain s (strategy.name :: names) t

theorem Chain.split_at {s t : Specification} {subs : List Subproblem} {names : List String}
    (c : Context) (strategy : Strategy) (hbuiltin : strategy ∈ builtin)
    (hsubs : strategy.decompose s c = .ok subs) (i : Nat) (hi : i < subs.length)
    (rest : Chain (subs.getD i {}).specification names t) :
    Chain s (strategy.name :: names) t := by
  refine .split hbuiltin hsubs ?_ rest
  simp [hi]

namespace Parameters

/-- The signature is read and has several parameters. -/
def several (signature : String) : Bool :=
  (Signature.parse? signature).any fun sig => 2 ≤ sig.params.length

theorem decompose_eq_nil_iff (s : Specification) :
    decompose s = [] ↔ several s.typeSignature = false := by
  unfold decompose several
  cases Signature.parse? s.typeSignature with
  | none => simp
  | some sig =>
    by_cases hfew : sig.params.length < 2
    · simp [hfew]
    · simp [hfew, split]

/-- Every parameter of the signature that is read is balanced, or nothing is split by it. -/
def Readable (s : Specification) : Prop :=
  (∀ sig, Signature.parse? s.typeSignature = some sig → ∀ p ∈ sig.params, Signature.Balanced p) ∨
    several s.typeSignature = false

theorem Readable.of_typeSignature {s p : Specification} (hs : Readable s)
    (h : p.typeSignature = s.typeSignature) : Readable p := by
  unfold Readable at hs ⊢
  rwa [h]

/-- The parts along a signature have no signature to be split, and no tests that are new. -/
theorem of_mem_decompose {s : Specification} {p : Subproblem} (hs : Readable s)
    (hp : p ∈ decompose s) :
    several s.typeSignature = true ∧ several p.specification.typeSignature = false ∧
      (p.specification.testList = [] ∨ p.specification.testList = s.testList) := by
  have hseveral : several s.typeSignature = true := by
    cases h : several s.typeSignature with
    | true => rfl
    | false => simp [(decompose_eq_nil_iff s).mpr h] at hp
  refine ⟨hseveral, ?_⟩
  have hbalanced := hs.resolve_right (by simp [hseveral])
  unfold decompose at hp
  split at hp
  next sig hparse =>
    split at hp
    · simp at hp
    · rcases List.mem_append.mp hp with hp | hp
      · obtain ⟨⟨q, i⟩, hq, rfl⟩ := List.mem_map.mp hp
        have hmem : q ∈ sig.params := List.fst_mem_of_mem_zipIdx hq
        have hnil := decompose_preparation hparse hmem (hbalanced sig hparse q hmem)
        exact ⟨(decompose_eq_nil_iff _).mp hnil, Or.inl (testList_preparation s sig q)⟩
      · obtain rfl := List.mem_singleton.mp hp
        have hnil := decompose_combination s sig
        exact ⟨(decompose_eq_nil_iff _).mp hnil, Or.inr (testList_combination s sig)⟩
  next => simp at hp

end Parameters

namespace Stages

/-- The description of a step names no second step. -/
theorem recognised_step : ∀ p ∈ pipeline ++ recordOperations,
    (stages p.description).length + (operations p.description).length < 2 := by
  decide +kernel

theorem exists_step {s : Specification} {p : Subproblem} (hp : p ∈ decompose s) :
    ∃ q ∈ pipeline ++ recordOperations, p.specification = part s q := by
  unfold decompose at hp
  dsimp only at hp
  split at hp
  · simp at hp
  · rcases List.mem_append.mp hp with hp | hp
    · obtain ⟨⟨q, i⟩, hq, rfl⟩ := List.mem_map.mp hp
      have hmem := (List.mem_filter.mp (List.fst_mem_of_mem_zipIdx hq)).1
      exact ⟨q, List.mem_append_left _ hmem, rfl⟩
    · obtain ⟨⟨q, i⟩, hq, rfl⟩ := List.mem_map.mp hp
      have hmem := (List.mem_filter.mp (List.fst_mem_of_mem_zipIdx hq)).1
      exact ⟨q, List.mem_append_right _ hmem, rfl⟩

end Stages

theorem clusters_nil {s : Specification} (h : s.testList = []) : Clusters.decompose s = [] := by
  cases hsubs : Clusters.decompose s with
  | nil => rfl
  | cons p rest =>
    have hp : p ∈ Clusters.decompose s := by simp [hsubs]
    have hlt := Clusters.differences_lt hp
    simp [h, Clusters.differences, Clusters.Uniform] at hlt

/-- A part made by a built-in strategy is made by one of the three that split anything. -/
theorem mem_decompose {strategy : Strategy} {s : Specification} {c : Context}
    {subs : List Subproblem} {p : Subproblem} (hbuiltin : strategy ∈ builtin)
    (hsubs : strategy.decompose s c = .ok subs) (hp : p ∈ subs) :
    (strategy = parameters ∧ p ∈ Parameters.decompose s) ∨
      (strategy = clusters ∧ p ∈ Clusters.decompose s) ∨
        (strategy = stages ∧ p ∈ Stages.decompose s) := by
  simp only [builtin, List.mem_cons, List.not_mem_nil, or_false] at hbuiltin
  rcases hbuiltin with rfl | rfl | rfl | rfl
  · have heq : Parameters.decompose s = subs := Except.ok.inj hsubs
    exact Or.inl ⟨rfl, heq ▸ hp⟩
  · have heq : Clusters.decompose s = subs := Except.ok.inj hsubs
    exact Or.inr (Or.inl ⟨rfl, heq ▸ hp⟩)
  · have heq : Stages.decompose s = subs := Except.ok.inj hsubs
    exact Or.inr (Or.inr ⟨rfl, heq ▸ hp⟩)
  · have heq : [] = subs := Except.ok.inj hsubs
    simp [← heq] at hp

/-- Nothing splits a recognised step. -/
theorem Chain.of_step {s t : Specification} {q : Stages.Step} {names : List String}
    (hq : q ∈ Stages.pipeline ++ Stages.recordOperations)
    (h : Chain (Stages.part s q) names t) : names = [] := by
  have hsignature : (Stages.part s q).typeSignature = "" := rfl
  have htests : (Stages.part s q).testList = [] := rfl
  have hsteps : Stages.decompose (Stages.part s q) = [] := by
    have hdescription : (Stages.part s q).description = q.description := rfl
    unfold Stages.decompose
    rw [hdescription]
    exact if_pos (Stages.recognised_step q hq)
  cases h with
  | stop => rfl
  | split hbuiltin hsubs hp rest =>
    rcases mem_decompose hbuiltin hsubs hp with ⟨_, hp⟩ | ⟨_, hp⟩ | ⟨_, hp⟩
    · rw [Parameters.decompose_of_typeSignature hsignature] at hp
      exact absurd hp List.not_mem_nil
    · rw [clusters_nil htests] at hp
      exact absurd hp List.not_mem_nil
    · rw [hsteps] at hp
      exact absurd hp List.not_mem_nil

/-- What a chain may hold. -/
structure Bounded (s : Specification) (names : List String) : Prop where
  clusters_le : names.count clusters.name ≤ Clusters.differences s.testList
  parameters_le : names.count parameters.name ≤ (Parameters.several s.typeSignature).toNat
  stages_le : names.count stages.name ≤ 1
  stages_last : stages.name ∉ names.dropLast
  length_eq : names.length =
    names.count clusters.name + names.count parameters.name + names.count stages.name

namespace Bounded

theorem nil (s : Specification) : Bounded s [] where
  clusters_le := Nat.zero_le _
  parameters_le := Nat.zero_le _
  stages_le := Nat.zero_le _
  stages_last := by simp
  length_eq := rfl

theorem stages_last_cons {p : Specification} {names : List String} (h : Bounded p names)
    {name : String} (hname : stages.name ≠ name) : stages.name ∉ (name :: names).dropLast := by
  cases names with
  | nil => simp
  | cons first rest =>
    rw [List.dropLast_cons_cons, List.mem_cons, not_or]
    exact ⟨hname, h.stages_last⟩

theorem cons_parameters {s p : Specification} {names : List String} (h : Bounded p names)
    (htests : Clusters.differences p.testList ≤ Clusters.differences s.testList)
    (hseveral : Parameters.several s.typeSignature = true)
    (hsingle : Parameters.several p.typeSignature = false) :
    Bounded s (parameters.name :: names) where
  clusters_le := by
    rw [List.count_cons_of_ne (by decide)]
    exact Nat.le_trans h.clusters_le htests
  parameters_le := by
    have hnone := h.parameters_le
    rw [hsingle] at hnone
    rw [List.count_cons_self, hseveral]
    exact Nat.succ_le_succ hnone
  stages_le := by
    rw [List.count_cons_of_ne (by decide)]
    exact h.stages_le
  stages_last := h.stages_last_cons (by decide)
  length_eq := by
    have hlength := h.length_eq
    rw [List.count_cons_of_ne (by decide), List.count_cons_self, List.count_cons_of_ne (by decide),
      List.length_cons]
    omega

theorem cons_clusters {s p : Specification} {names : List String} (h : Bounded p names)
    (htests : Clusters.differences p.testList < Clusters.differences s.testList)
    (hsignature : p.typeSignature = s.typeSignature) : Bounded s (clusters.name :: names) where
  clusters_le := by
    rw [List.count_cons_self]
    exact Nat.lt_of_le_of_lt h.clusters_le htests
  parameters_le := by
    rw [List.count_cons_of_ne (by decide), ← hsignature]
    exact h.parameters_le
  stages_le := by
    rw [List.count_cons_of_ne (by decide)]
    exact h.stages_le
  stages_last := h.stages_last_cons (by decide)
  length_eq := by
    have hlength := h.length_eq
    rw [List.count_cons_self, List.count_cons_of_ne (by decide), List.count_cons_of_ne (by decide),
      List.length_cons]
    omega

theorem stages_alone (s : Specification) : Bounded s [stages.name] where
  clusters_le := Nat.zero_le _
  parameters_le := Nat.zero_le _
  stages_le := Nat.le_refl 1
  stages_last := by simp
  length_eq := by decide

theorem length_le {s : Specification} {names : List String} (h : Bounded s names) :
    names.count clusters.name ≤ 2 ∧ names.count parameters.name ≤ 1 ∧ names.length ≤ 4 := by
  have hclusters := h.clusters_le
  have hparameters := h.parameters_le
  have hstages := h.stages_le
  have hlength := h.length_eq
  have hdifferences := Clusters.differences_le s.testList
  have hbool := Bool.toNat_le (Parameters.several s.typeSignature)
  omega

end Bounded

/-- A chain splits the tests only as often as they differ, a signature once, and steps last. -/
theorem Chain.bounded {s t : Specification} {names : List String} (h : Chain s names t)
    (hs : Parameters.Readable s) : Bounded s names := by
  induction h with
  | stop s => exact .nil s
  | split hbuiltin hsubs hp rest ih =>
    rcases mem_decompose hbuiltin hsubs hp with ⟨rfl, hp⟩ | ⟨rfl, hp⟩ | ⟨rfl, hp⟩
    -- From here on no signature is split, so nothing has to be known of its parentheses.
    · obtain ⟨hseveral, hsingle, htests⟩ := Parameters.of_mem_decompose hs hp
      refine (ih (Or.inr hsingle)).cons_parameters ?_ hseveral hsingle
      rcases htests with htests | htests
      · rw [htests]
        exact Nat.zero_le _
      · rw [htests]
    · have hsignature := Clusters.typeSignature_of_mem hp
      exact (ih (hs.of_typeSignature hsignature)).cons_clusters (Clusters.differences_lt hp)
        hsignature
    · obtain ⟨q, hq, hpart⟩ := Stages.exists_step hp
      rw [hpart] at rest
      rw [rest.of_step hq]
      exact .stages_alone _

end Synthesis.Strategy
