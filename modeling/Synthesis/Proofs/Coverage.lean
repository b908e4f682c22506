import Synthesis.Proofs.TestKinds
import Mathlib.Data.List.Induction

/-!
Which tests the parts of a split by tests carry. A cluster is made for a trait, which is a category
or a primary operation, and holds the tests that have it, in their order. The traits whose clusters
are neither too small nor everything stand in a fixed order: the categories first, then the
operations as they are first used. Each of them becomes one part, unless there are fewer than two.
-/
namespace Synthesis

/-- What is made of members alone does not depend on their places. -/
theorem map_zipIdx {α β : Type} {f : α × Nat → β} {g : α → β} (h : ∀ x i, f (x, i) = g x)
    (xs : List α) : xs.zipIdx.map f = xs.map g :=
  calc xs.zipIdx.map f = xs.zipIdx.map (g ∘ Prod.fst) := List.map_congr_left fun x _ => h x.1 x.2
    _ = (xs.zipIdx.map Prod.fst).map g := List.map_map.symm
    _ = xs.map g := by rw [List.zipIdx_map_fst]

theorem Text.distinct_concat (xs : List String) (y : String) :
    distinct (xs ++ [y]) =
      if (distinct xs).contains y then distinct xs else distinct xs ++ [y] := by
  rw [distinct, List.foldl_append]
  rfl

/-- Distinct members stand in the order in which they are first met. -/
theorem Text.pairwise_distinct_filterMap {α : Type} (f : α → Option String) (xs : List α) :
    (distinct (xs.filterMap f)).Pairwise fun a b =>
      xs.findIdx (f · == some a) < xs.findIdx (f · == some b) := by
  induction xs using List.reverseRecOn with
  | nil => exact List.Pairwise.nil
  | append_singleton xs x ih =>
    have hmet : ∀ a ∈ distinct (xs.filterMap f), xs.findIdx (f · == some a) < xs.length := by
      intro a ha
      obtain ⟨y, hy, hfy⟩ := List.mem_filterMap.mp (mem_distinct.mp ha)
      exact List.findIdx_lt_length_of_exists ⟨y, hy, by simp [hfy]⟩
    -- Where a member is first met does not change when more follow.
    have hsame : ∀ a ∈ distinct (xs.filterMap f),
        (xs ++ [x]).findIdx (f · == some a) = xs.findIdx (f · == some a) := by
      intro a ha
      rw [List.findIdx_append, if_pos (hmet a ha)]
    have hold : (distinct (xs.filterMap f)).Pairwise fun a b =>
        (xs ++ [x]).findIdx (f · == some a) < (xs ++ [x]).findIdx (f · == some b) := by
      refine ih.imp_of_mem fun ha hb hlt => ?_
      rwa [hsame _ ha, hsame _ hb]
    cases hx : f x with
    | none =>
      rw [List.filterMap_append, List.filterMap_cons_none hx, List.filterMap_nil, List.append_nil]
      exact hold
    | some y =>
      rw [List.filterMap_append, List.filterMap_cons_some hx, List.filterMap_nil, distinct_concat]
      split
      · exact hold
      · rename_i hnew
        refine List.pairwise_append.mpr ⟨hold, List.pairwise_singleton _ y, ?_⟩
        intro a ha b hb
        obtain rfl := List.mem_singleton.mp hb
        have hunmet : ¬ xs.findIdx (f · == some b) < xs.length := by
          intro hlt
          have hfound := List.findIdx_getElem (w := hlt)
          refine hnew (List.contains_iff_mem.mpr (mem_distinct.mpr (List.mem_filterMap.mpr ?_)))
          exact ⟨_, List.getElem_mem hlt, eq_of_beq hfound⟩
        have hmeta := hmet a ha
        rw [hsame a ha, List.findIdx_append, if_neg hunmet]
        omega

namespace TestView

/-- An operation has a name. -/
theorem primary?_ne_empty {t : TestCase} {i : Int} {op : String}
    (h : (ofTest t i).primary? = some op) : op ≠ "" := by
  have hmem : op ∈ (ofTest t i).operations := List.mem_of_head? h
  have hnamed : ∀ xs : List String, op ∈ distinctNonEmpty xs → op ≠ "" := by
    intro xs hop
    exact bne_iff_ne.mp (List.mem_filter.mp (Text.mem_distinct.mp hop)).2
  simp only [ofTest] at hmem
  split at hmem
  · exact hnamed _ hmem
  · exact hnamed _ hmem

theorem primary?_ofTest (t : TestCase) (i j : Int) :
    (ofTest t i).primary? = (ofTest t j).primary? := by
  unfold primary?
  rw [operations_ofTest t i j]

end TestView

/-- The place of a category among the parts. -/
def Category.place : Category → Nat
  | .happyPath => 0
  | .validation => 1
  | .errorHandling => 2
  | .edgeCase => 3
  | .general => 4

namespace Strategy.Clusters

/-- What the tests of a cluster have in common. -/
inductive Trait where
  | category (c : Category)
  | operation (op : String)
  deriving DecidableEq

namespace Trait

/-- A test that is looked at has the trait. -/
def isOf (x : Trait) (v : TestView) : Bool :=
  match x with
  | .category c => v.category = c
  | .operation op => v.primary? == some op

/-- What the part at an index depends on: a category on all before it, an operation on nothing. -/
def dependencies (x : Trait) (i : Nat) : List Int :=
  match x with
  | .category _ => (List.range i).map Int.ofNat
  | .operation _ => []

theorem isOf_iff {x : Trait} {v : TestView} :
    x.isOf v = true ↔
      x = .category v.category ∨ ∃ op, v.primary? = some op ∧ x = .operation op := by
  cases x with
  | category c => simp [isOf, eq_comm]
  | operation op => simp [isOf]

/-- Whether a test has a trait does not depend on its place. -/
theorem isOf_ofTest (x : Trait) (t : TestCase) (i j : Int) :
    x.isOf (.ofTest t i) = x.isOf (.ofTest t j) := by
  unfold isOf
  rw [TestView.category_ofTest t i j, TestView.primary?_ofTest t i j]

end Trait

/-- The tests with a trait, each looked at in its place, in their order. -/
def sharing (s : Specification) (x : Trait) : List TestCase :=
  (s.testList.zipIdx.filter fun p => x.isOf (.ofTest p.1 p.2)).map (·.1)

/-- A cluster is of use: its trait tells something, it has members, two for an operation, and some
test is outside. -/
def Qualifies (s : Specification) : Trait → Prop
  | .category c => c ≠ .general ∧ 1 ≤ (sharing s (.category c)).length ∧
      (sharing s (.category c)).length < s.testList.length
  | .operation op => op ≠ "" ∧ 2 ≤ (sharing s (.operation op)).length ∧
      (sharing s (.operation op)).length < s.testList.length

instance (s : Specification) : DecidablePred (Qualifies s) := fun x =>
  match x with
  | .category c => inferInstanceAs (Decidable (c ≠ .general ∧
      1 ≤ (sharing s (.category c)).length ∧
      (sharing s (.category c)).length < s.testList.length))
  | .operation op => inferInstanceAs (Decidable (op ≠ "" ∧
      2 ≤ (sharing s (.operation op)).length ∧
      (sharing s (.operation op)).length < s.testList.length))

/-- The place of the first test with a primary operation. -/
def firstUse (s : Specification) (op : String) : Nat :=
  s.testList.zipIdx.findIdx fun p => (TestView.ofTest p.1 p.2).primary? == some op

/-- Categories come in their order and before all operations, which come as they are first used. -/
def Precedes (s : Specification) : Trait → Trait → Prop
  | .category c, .category d => c.place < d.place
  | .category _, .operation _ => True
  | .operation _, .category _ => False
  | .operation a, .operation b => firstUse s a < firstUse s b

/-- The traits that qualify, in their order. -/
def traits (s : Specification) : List Trait :=
  (categories.map Trait.category ++ (operations (viewed s)).map Trait.operation).filter
    fun x => Qualifies s x

/-- The cluster of a trait. -/
def clusterOf (s : Specification) : Trait → Cluster
  | .category c =>
    { slot := c.name, label := label c, condition := condition c, chained := true
      members := (viewed s).filter (·.view.category = c) }
  | .operation op =>
    { slot := "op:" ++ op, label := "operation " ++ op, condition := "", chained := false
      members := (viewed s).filter (·.view.primary? == some op) }

theorem tests_clusterOf (s : Specification) (x : Trait) :
    (clusterOf s x).members.map (·.test) = sharing s x := by
  have hmembers : (clusterOf s x).members = (viewed s).filter fun v => x.isOf v.view := by
    cases x with
    | category c => rfl
    | operation op => rfl
  rw [hmembers, viewed, List.filter_map, List.map_map]
  rfl

theorem length_members (s : Specification) (x : Trait) :
    (clusterOf s x).members.length = (sharing s x).length := by
  rw [← tests_clusterOf, List.length_map]

theorem length_viewed (s : Specification) : (viewed s).length = s.testList.length := by
  rw [← map_test_viewed, List.length_map]

theorem ne_empty_of_mem_operations {s : Specification} {op : String}
    (h : op ∈ operations (viewed s)) : op ≠ "" := by
  obtain ⟨v, hv, hop⟩ := List.mem_filterMap.mp (Text.mem_distinct.mp h)
  obtain ⟨⟨t, i⟩, _, rfl⟩ := List.mem_map.mp hv
  exact TestView.primary?_ne_empty hop

theorem length_members_le (s : Specification) (x : Trait) :
    (clusterOf s x).members.length ≤ (viewed s).length := by
  cases x with
  | category c => exact List.length_filter_le _ _
  | operation op => exact List.length_filter_le _ _

theorem filter_map_clusterOf {s : Specification} {xs : List Trait} {keeps : Cluster → Bool}
    (h : ∀ x ∈ xs, keeps (clusterOf s x) = true ↔ Qualifies s x) :
    (xs.map (clusterOf s)).filter keeps =
      (xs.filter fun x => Qualifies s x).map (clusterOf s) := by
  rw [List.filter_map]
  congr 1
  refine List.filter_congr fun x hx => ?_
  rw [Bool.eq_iff_iff, decide_eq_true_iff]
  exact h x hx

theorem categoryClusters_eq_map (s : Specification) :
    categoryClusters (viewed s) =
      ((categories.map Trait.category).filter fun x => Qualifies s x).map (clusterOf s) := by
  have hmade : categoryClusters (viewed s) =
      ((categories.map Trait.category).map (clusterOf s)).filter fun k =>
        !k.members.isEmpty && k.members.length != (viewed s).length := by
    rw [List.map_map]
    rfl
  rw [hmade]
  refine filter_map_clusterOf fun x hx => ?_
  obtain ⟨c, hc, rfl⟩ := List.mem_map.mp hx
  have hspecial : c ≠ .general := by
    rintro rfl
    exact absurd hc (by decide)
  have hle := length_members_le s (.category c)
  simp only [Bool.and_eq_true, Bool.not_eq_true', List.isEmpty_eq_false_iff,
    ← List.length_pos_iff, bne_iff_ne, Qualifies, ← length_members, ← length_viewed, hspecial,
    ne_eq, not_false_eq_true, true_and]
  omega

theorem operationClusters_eq_map (s : Specification) :
    operationClusters (viewed s) =
      (((operations (viewed s)).map Trait.operation).filter fun x => Qualifies s x).map
        (clusterOf s) := by
  have hmade : operationClusters (viewed s) =
      (((operations (viewed s)).map Trait.operation).map (clusterOf s)).filter fun k =>
        2 ≤ k.members.length && k.members.length != (viewed s).length := by
    rw [List.map_map]
    rfl
  rw [hmade]
  refine filter_map_clusterOf fun x hx => ?_
  obtain ⟨op, hop, rfl⟩ := List.mem_map.mp hx
  have hle := length_members_le s (.operation op)
  simp only [Bool.and_eq_true, bne_iff_ne, decide_eq_true_eq, Qualifies, ← length_members,
    ← length_viewed, ne_empty_of_mem_operations hop, ne_eq, not_false_eq_true, true_and]
  omega

/-- The clusters that are kept are those of the traits that qualify. -/
theorem clusters_eq_map (s : Specification) :
    clusters (viewed s) = (traits s).map (clusterOf s) := by
  rw [clusters, traits, List.filter_append, List.map_append, categoryClusters_eq_map,
    operationClusters_eq_map]

theorem mem_traits {s : Specification} {x : Trait} : x ∈ traits s ↔ Qualifies s x := by
  unfold traits
  rw [List.mem_filter, decide_eq_true_iff]
  refine and_iff_right_of_imp fun hx => ?_
  cases x with
  | category c =>
    refine List.mem_append_left _ (List.mem_map_of_mem ?_)
    have hspecial : c ≠ .general := hx.1
    cases c with
    | general => exact absurd rfl hspecial
    | happyPath => decide
    | validation => decide
    | errorHandling => decide
    | edgeCase => decide
  | operation op =>
    refine List.mem_append_right _ (List.mem_map_of_mem ?_)
    have hsome : 0 < (clusterOf s (.operation op)).members.length := by
      have htwo : 2 ≤ (sharing s (.operation op)).length := hx.2.1
      rw [length_members]
      omega
    obtain ⟨v, hv⟩ := List.exists_mem_of_length_pos hsome
    obtain ⟨hmem, hop⟩ := List.mem_filter.mp hv
    exact Text.mem_distinct.mpr (List.mem_filterMap.mpr ⟨v, hmem, eq_of_beq hop⟩)

theorem firstUse_eq (s : Specification) (op : String) :
    firstUse s op = (viewed s).findIdx (·.view.primary? == some op) := by
  rw [viewed, List.findIdx_map]
  rfl

theorem pairwise_traits (s : Specification) : (traits s).Pairwise (Precedes s) := by
  refine List.Pairwise.filter _ (List.pairwise_append.mpr ⟨?_, ?_, ?_⟩)
  · rw [List.pairwise_map]
    change categories.Pairwise fun c d => c.place < d.place
    decide
  · rw [List.pairwise_map]
    refine (Text.pairwise_distinct_filterMap _ (viewed s)).imp fun hlt => ?_
    rw [Precedes, firstUse_eq, firstUse_eq]
    exact hlt
  · intro x hx y hy
    obtain ⟨c, _, rfl⟩ := List.mem_map.mp hx
    obtain ⟨op, _, rfl⟩ := List.mem_map.mp hy
    trivial

/-- The part made for a trait at an index. -/
def partOf (s : Specification) (x : Trait) (i : Nat) : Subproblem := subproblem s (clusterOf s x) i

theorem testList_partOf (s : Specification) (x : Trait) (i : Nat) :
    (partOf s x i).specification.testList = sharing s x :=
  (Specification.testList_derive s _ _).trans (tests_clusterOf s x)

theorem dependencies_partOf (s : Specification) (x : Trait) (i : Nat) :
    (partOf s x i).dependencies = x.dependencies i := by
  cases x with
  | category c => rfl
  | operation op => rfl

theorem decompose_eq (s : Specification) :
    decompose s = if (traits s).length < 2 then []
      else (traits s).zipIdx.map fun x => partOf s x.1 x.2 := by
  unfold decompose
  dsimp only
  rw [clusters_eq_map, List.length_map]
  split
  · rfl
  · rw [List.zipIdx_map, List.map_map]
    rfl

theorem mem_sharing {s : Specification} {x : Trait} {t : TestCase} {i : Nat}
    (ht : s.testList[i]? = some t) : t ∈ sharing s x ↔ x.isOf (.ofTest t i) = true := by
  unfold sharing
  rw [List.mem_map]
  constructor
  · rintro ⟨⟨u, j⟩, hmem, rfl⟩
    have hu : x.isOf (.ofTest u j) = true := (List.mem_filter.mp hmem).2
    rw [Trait.isOf_ofTest x u i j]
    exact hu
  · intro hx
    exact ⟨(t, i), List.mem_filter.mpr ⟨List.mem_zipIdx_iff_getElem?.mpr ht, hx⟩, rfl⟩

/-- A test is in no cluster that qualifies if neither that of its category nor that of its operation
does. -/
theorem notMem_sharing_iff {s : Specification} {t : TestCase} {i : Nat}
    (ht : s.testList[i]? = some t) :
    (∀ x ∈ traits s, t ∉ sharing s x) ↔
      ¬ Qualifies s (.category (TestView.ofTest t i).category) ∧
        ∀ op, (TestView.ofTest t i).primary? = some op → ¬ Qualifies s (.operation op) := by
  simp only [mem_traits, mem_sharing ht, Trait.isOf_iff]
  constructor
  · intro h
    exact ⟨fun hq => h _ hq (Or.inl rfl), fun op hop hq => h _ hq (Or.inr ⟨op, hop, rfl⟩)⟩
  · rintro ⟨hcategory, hoperation⟩ x hq (rfl | ⟨op, hop, rfl⟩)
    · exact hcategory hq
    · exact hoperation op hop hq

/-- Splitting by tests, the traits whose clusters qualify, in their order, make the parts, unless
there are fewer than two of them: then there are no parts. The part of a trait carries just the
tests that have it, unchanged and in their order; a category depends on all parts before it, an
operation on none. So a test is carried by no part just when neither the cluster of its category
nor that of its operation qualifies. -/
theorem parts_carry_clusters (s : Specification) (c : Context) :
    ∃ (subs : List Subproblem) (traits : List Trait),
      Strategy.clusters.decompose s c = .ok subs ∧
      (∀ x, x ∈ traits ↔ Qualifies s x) ∧ traits.Pairwise (Precedes s) ∧
      (subs = [] ↔ traits.length < 2) ∧
      (2 ≤ traits.length →
        subs.map (·.specification.testList) = traits.map (sharing s) ∧
        (∀ (i : Nat) p x, subs[i]? = some p → traits[i]? = some x →
          p.dependencies = x.dependencies i) ∧
        ∀ (i : Nat) t, s.testList[i]? = some t →
          ((∀ p ∈ subs, t ∉ p.specification.testList) ↔
            ¬ Qualifies s (.category (TestView.ofTest t i).category) ∧
              ∀ op, (TestView.ofTest t i).primary? = some op → ¬ Qualifies s (.operation op))) := by
  refine ⟨decompose s, traits s, rfl, fun x => mem_traits, pairwise_traits s, ?_, ?_⟩
  · rw [decompose_eq]
    split
    · rename_i hfew
      exact iff_of_true rfl hfew
    · rename_i hmany
      refine iff_of_false ?_ hmany
      intro hnil
      rw [List.map_eq_nil_iff, List.zipIdx_eq_nil_iff] at hnil
      simp [hnil] at hmany
  · intro htwo
    have hparts : decompose s = (traits s).zipIdx.map fun x => partOf s x.1 x.2 :=
      (decompose_eq s).trans (if_neg (by omega))
    have htests : (decompose s).map (·.specification.testList) = (traits s).map (sharing s) := by
      rw [hparts, List.map_map]
      exact map_zipIdx (testList_partOf s) (traits s)
    refine ⟨htests, ?_, ?_⟩
    · intro i p x hp hx
      rw [hparts, List.getElem?_map, List.getElem?_zipIdx, hx] at hp
      obtain rfl : partOf s x i = p := by simpa using hp
      exact dependencies_partOf s x i
    · intro i t ht
      rw [← notMem_sharing_iff ht]
      have hcarried : ∀ tests : List TestCase,
          tests ∈ (decompose s).map (·.specification.testList) ↔
            tests ∈ (traits s).map (sharing s) := by
        intro tests
        rw [htests]
      constructor
      · intro h x hx
        obtain ⟨p, hp, heq⟩ := List.mem_map.mp ((hcarried _).mpr (List.mem_map_of_mem hx))
        exact heq ▸ h p hp
      · intro h p hp
        obtain ⟨x, hx, heq⟩ := List.mem_map.mp ((hcarried _).mp (List.mem_map_of_mem hp))
        exact heq ▸ h x hx

/-- Two categories with one test each, an operation that two tests share, and a test apart. -/
def stack : Specification :=
  { description := "stack"
    tests := some [{ name := "happy path", calls := some ["push"] },
      { name := "invalid input", calls := some ["pop"] },
      { name := "twice", calls := some ["push", "pop"] },
      { name := "depth", calls := some ["size"] }] }

theorem parts_carry_clusters_stack :
    ∃ subs, Strategy.clusters.decompose stack {} = .ok subs ∧
      (∃ p ∈ subs, { name := "twice", calls := some ["push", "pop"] } ∈ p.specification.testList) ∧
      ∀ p ∈ subs, { name := "depth", calls := some ["size"] } ∉ p.specification.testList := by
  obtain ⟨subs, traits, hsubs, hmem, -, -, hparts⟩ := parts_carry_clusters stack {}
  have hhappy : Trait.category .happyPath ∈ traits := (hmem _).mpr (by decide +kernel)
  have hpush : Trait.operation "push" ∈ traits := (hmem _).mpr (by decide +kernel)
  have htwo : 2 ≤ traits.length := by
    rcases traits with _ | ⟨x, _ | ⟨y, rest⟩⟩
    · cases hhappy
    · rw [List.mem_singleton] at hhappy hpush
      exact absurd (hhappy.trans hpush.symm) (by decide)
    · simp
  obtain ⟨-, -, hcarried⟩ := hparts htwo
  refine ⟨subs, hsubs, ?_, ?_⟩
  · by_contra hnone
    push Not at hnone
    have hunqualified := ((hcarried 2 _ rfl).mp hnone).2 "push" (by decide +kernel)
    exact hunqualified ((hmem _).mp hpush)
  · refine (hcarried 3 _ rfl).mpr ⟨by decide +kernel, ?_⟩
    intro op hop
    have hsize : op = "size" := by
      have hprimary : (TestView.ofTest { name := "depth", calls := some ["size"] } 3).primary? =
          some "size" := by decide +kernel
      exact Option.some.inj (hop.symm.trans hprimary)
    rw [hsize]
    decide +kernel

end Strategy.Clusters

end Synthesis
