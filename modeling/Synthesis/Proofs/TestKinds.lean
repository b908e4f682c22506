import Synthesis.Strategy.Clusters

/-!
Splitting by tests makes the tests more alike. The category and the primary operation of a test
do not depend on its place in the list, although its name may; so the tests of one cluster still
agree in what they were put together for when they are looked at again. As a cluster with every
test is left out, each split removes one of two differences for good.
-/
namespace Synthesis

open Text

theorem Text.mem_of_hasPart {part cs : List Char} (h : hasPart part cs = true) :
    ∀ c ∈ part, c ∈ cs := by
  induction cs with
  | nil =>
    rw [hasPart, List.isEmpty_iff] at h
    simp [h]
  | cons d cs ih =>
    rw [hasPart, Bool.or_eq_true, List.isPrefixOf_iff_prefix] at h
    intro c hc
    rcases h with hlead | hpart
    · exact hlead.subset hc
    · exact List.mem_cons_of_mem d (ih hpart c hc)

theorem Text.flatten_splitAt (sep : Char) (cs : List Char) :
    (splitAt sep cs).flatten = cs.filter (· != sep) := by
  induction cs with
  | nil => rfl
  | cons c cs ih =>
    unfold splitAt
    by_cases hc : c = sep
    · rw [if_pos hc, List.filter_cons_of_neg (by simp [hc]), List.flatten_cons, ih]
      rfl
    · rw [if_neg hc, List.filter_cons_of_pos (by simp [hc]), ← ih]
      cases splitAt sep cs with
      | nil => rfl
      | cons w ws => rfl

theorem Text.le_iff_toNat (c d : Char) : c ≤ d ↔ c.toNat ≤ d.toNat := Iff.rfl

theorem Text.not_isWordChar_of_isBlank {c : Char} (hc : isBlank c = true) :
    isWordChar c = false := by
  simp only [isBlank, Bool.or_eq_true, Bool.and_eq_true, decide_eq_true_eq, beq_iff_eq] at hc
  have hunderscore : c ≠ '_' := by
    rintro rfl
    revert hc
    decide
  simp only [isWordChar, isAsciiLetter, isAsciiLower, isAsciiUpper, isAsciiDigit,
    Bool.or_eq_false_iff, decide_eq_false_iff_not, le_iff_toNat, beq_eq_false_iff_ne]
  refine ⟨⟨⟨?_, ?_⟩, ?_⟩, hunderscore⟩ <;> simp only [Char.reduceToNat] <;> omega

theorem Text.lowerChar_of_isDigit {c : Char} (hc : c.isDigit = true) : lowerChar c = c := by
  have hrange : 48 ≤ c.toNat ∧ c.toNat ≤ 57 := by
    simpa [Char.isDigit, UInt32.le_iff_toNat_le] using hc
  unfold lowerChar lowerAscii
  rw [if_neg (by omega), if_neg (by omega), if_neg]
  simp only [le_iff_toNat, Char.reduceToNat]
  omega

namespace Category

/-- The characters of a name made of an index, in lower case. -/
theorem mem_lower_indexName {i : Int} {c : Char}
    (hc : c ∈ (lower ("test_" ++ Decimal.intText i)).toList) :
    c ∈ "test_-".toList ∨ c.isDigit = true := by
  rw [lower, String.toList_ofList, String.toList_append] at hc
  obtain ⟨d, hd, rfl⟩ := List.mem_map.mp hc
  have hdigits : ∀ n : Nat, d ∈ (Decimal.natText n).toList → (lowerChar d).isDigit = true := by
    intro n hmem
    rw [Decimal.natText, String.toList_ofList] at hmem
    have hdigit : d.isDigit = true := Nat.isDigit_of_mem_toDigits (by decide) (by decide) hmem
    rw [lowerChar_of_isDigit hdigit, hdigit]
  have hfixed : ∀ e ∈ "test_-".toList, lowerChar e ∈ "test_-".toList := by
    have hall : "test_-".toList.all (fun e => "test_-".toList.contains (lowerChar e)) = true := by
      decide
    intro e he
    exact List.contains_iff_mem.mp (List.all_eq_true.mp hall e he)
  rcases List.mem_append.mp hd with hlead | hindex
  · exact Or.inl (hfixed d (List.mem_append_left ['-'] hlead))
  · cases i with
    | ofNat n => exact Or.inr (hdigits n hindex)
    | negSucc n =>
      rw [Decimal.intText, String.toList_append] at hindex
      rcases List.mem_append.mp hindex with hsign | hindex
      · exact Or.inl (hfixed d (List.mem_append_right "test_".toList hsign))
      · exact Or.inr (hdigits (n + 1) hindex)

/-- Every word that decides a category has a character that is in no name made of an index. -/
theorem ofText_indexName (i : Int) : ofText ("test_" ++ Decimal.intText i) = .general := by
  have hother : ((rules.flatMap (·.2)).all fun word =>
      word.toList.any fun c => !"test_-".toList.contains c && !c.isDigit) = true := by
    decide
  have hmissing : ∀ word ∈ rules.flatMap (·.2),
      contains (lower ("test_" ++ Decimal.intText i)) word = false := by
    intro word hword
    obtain ⟨c, hc, hchar⟩ := List.any_eq_true.mp (List.all_eq_true.mp hother word hword)
    simp only [Bool.and_eq_true, Bool.not_eq_true', List.contains_eq_mem,
      decide_eq_false_iff_not] at hchar
    cases hcontains : contains (lower ("test_" ++ Decimal.intText i)) word with
    | false => rfl
    | true =>
      rcases mem_lower_indexName (mem_of_hasPart hcontains c hc) with hmem | hmem
      · exact absurd hmem hchar.1
      · simp [hchar.2] at hmem
  unfold ofText
  dsimp only
  split
  next category keywords hfind =>
    have hmem := List.mem_of_find?_eq_some hfind
    have htrue := List.find?_some hfind
    obtain ⟨word, hword, hcontains⟩ := List.any_eq_true.mp htrue
    rw [hmissing word (List.mem_flatMap.mpr ⟨_, hmem, hword⟩)] at hcontains
    cases hcontains
  next => rfl

end Category

namespace TestView

theorem isBlank_of_lineName? {source : String} (h : lineName? source = none) :
    ∀ c ∈ source.toList, isBlank c = true := by
  intro c hc
  by_cases hnewline : c = '\n'
  · subst hnewline
    decide
  · have hmem : c ∈ (splitAt '\n' source.toList).flatten := by
      rw [flatten_splitAt]
      exact List.mem_filter.mpr ⟨hc, by simp [hnewline]⟩
    obtain ⟨line, hline, hcline⟩ := List.mem_flatten.mp hmem
    have htrim : strip isBlank line = [] := by
      have hnone := List.find?_eq_none.mp h (trim (String.ofList line))
        (List.mem_map_of_mem (List.mem_map_of_mem hline))
      simpa [trim] using hnone
    have hrest : line.filter (!isBlank ·) = [] := by
      rw [← filter_strip (p := isBlank) (by simp), htrim]
      rfl
    simpa using List.filter_eq_nil_iff.mp hrest c hcline

theorem calls_eq_nil {cs : List Char} (h : ∀ c ∈ cs, isBlank c = true) (inWord : Bool) :
    calls inWord cs = [] := by
  induction cs generalizing inWord with
  | nil => rfl
  | cons c cs ih =>
    have hword := not_isWordChar_of_isBlank (h c List.mem_cons_self)
    rw [calls, if_neg (by simp [hword])]
    exact ih (fun d hd => h d (List.mem_cons_of_mem c hd)) false

/-- Only a test without a name and without any text is named after its index. -/
theorem nameOf_index (t : TestCase) :
    (∃ name, ∀ i, nameOf t i = name) ∨
      (∀ c ∈ t.source.toList, isBlank c = true) ∧
        ∀ i, nameOf t i = "test_" ++ Decimal.intText i := by
  unfold nameOf
  by_cases hname : t.name ≠ ""
  · exact Or.inl ⟨t.name, fun i => if_pos hname⟩
  · simp only [if_neg hname]
    cases findDefinedName? t.source.toList with
    | some n => exact Or.inl ⟨String.ofList n, fun _ => rfl⟩
    | none =>
      cases hline : lineName? t.source with
      | some line => exact Or.inl ⟨_, fun _ => rfl⟩
      | none => exact Or.inr ⟨isBlank_of_lineName? hline, fun _ => rfl⟩

theorem category_ofTest (t : TestCase) (i j : Int) :
    (ofTest t i).category = (ofTest t j).category := by
  have hname : Category.ofText (nameOf t i) = Category.ofText (nameOf t j) := by
    rcases nameOf_index t with ⟨name, hname⟩ | ⟨_, hname⟩
    · rw [hname, hname]
    · rw [hname, hname, Category.ofText_indexName, Category.ofText_indexName]
  simp only [ofTest, hname]

theorem operations_ofTest (t : TestCase) (i j : Int) :
    (ofTest t i).operations = (ofTest t j).operations := by
  have hsource : sourceOperations t.source (nameOf t i) =
      sourceOperations t.source (nameOf t j) := by
    rcases nameOf_index t with ⟨name, hname⟩ | ⟨hblank, _⟩
    · rw [hname, hname]
    · unfold sourceOperations
      rw [calls_eq_nil hblank]
      rfl
  simp only [ofTest, hsource]

end TestView

namespace Strategy.Clusters

/-- The category of a test, wherever it stands. -/
def category (t : TestCase) : Category := (TestView.ofTest t 0).category

/-- The primary operation of a test, wherever it stands. -/
def primary? (t : TestCase) : Option String := (TestView.ofTest t 0).primary?

theorem viewed_spec {s : Specification} {v : Viewed} (hv : v ∈ viewed s) :
    v.view.category = category v.test ∧ v.view.primary? = primary? v.test := by
  obtain ⟨⟨t, i⟩, _, rfl⟩ := List.mem_map.mp hv
  refine ⟨TestView.category_ofTest t i 0, ?_⟩
  unfold primary? TestView.primary?
  rw [TestView.operations_ofTest t i 0]

theorem map_test_viewed (s : Specification) : (viewed s).map (·.test) = s.testList := by
  rw [viewed, List.map_map]
  exact List.zipIdx_map_fst 0 s.testList

/-- All tests agree. -/
def Uniform {κ : Type} (key : TestCase → κ) (tests : List TestCase) : Prop :=
  ∀ t ∈ tests, ∀ u ∈ tests, key t = key u

instance {κ : Type} [DecidableEq κ] (key : TestCase → κ) (tests : List TestCase) :
    Decidable (Uniform key tests) :=
  inferInstanceAs (Decidable (∀ t ∈ tests, ∀ u ∈ tests, key t = key u))

/-- In how many of two respects the tests still differ. -/
def differences (tests : List TestCase) : Nat :=
  (if Uniform category tests then 0 else 1) + (if Uniform primary? tests then 0 else 1)

theorem differences_le (tests : List TestCase) : differences tests ≤ 2 := by
  unfold differences
  split <;> split <;> omega

theorem Uniform.mono {κ : Type} {key : TestCase → κ} {tests few : List TestCase}
    (h : Uniform key tests) (hfew : few ⊆ tests) : Uniform key few :=
  fun t ht u hu => h t (hfew ht) u (hfew hu)

/-- A proper and non-empty part of the tests, chosen by what `key` says, agrees where all the
tests did not. -/
theorem uniform_members {κ : Type} {key : TestCase → κ} (x : κ) {tests : List Viewed}
    {keep : Viewed → Bool} (hkeep : ∀ v ∈ tests, keep v = true ↔ key v.test = x)
    (hsome : tests.filter keep ≠ [])
    (hfew : (tests.filter keep).length ≠ tests.length) :
    ¬ Uniform key (tests.map (·.test)) ∧ Uniform key ((tests.filter keep).map (·.test)) := by
  constructor
  · intro huniform
    obtain ⟨v, hv⟩ := List.exists_mem_of_ne_nil _ hsome
    obtain ⟨hvtests, hvkeep⟩ := List.mem_filter.mp hv
    refine hfew (List.length_filter_eq_length_iff.mpr ?_)
    intro w hw
    rw [hkeep w hw, ← (hkeep v hvtests).mp hvkeep]
    exact huniform _ (List.mem_map_of_mem hw) _ (List.mem_map_of_mem hvtests)
  · intro t ht u hu
    obtain ⟨v, hv, rfl⟩ := List.mem_map.mp ht
    obtain ⟨w, hw, rfl⟩ := List.mem_map.mp hu
    obtain ⟨hvtests, hvkeep⟩ := List.mem_filter.mp hv
    obtain ⟨hwtests, hwkeep⟩ := List.mem_filter.mp hw
    rw [(hkeep v hvtests).mp hvkeep, (hkeep w hwtests).mp hwkeep]

theorem uniform_of_categoryClusters {s : Specification} {k : Cluster}
    (hk : k ∈ categoryClusters (viewed s)) :
    ¬ Uniform category s.testList ∧ Uniform category (k.members.map (·.test)) := by
  obtain ⟨hmade, hproper⟩ := List.mem_filter.mp hk
  obtain ⟨x, _, rfl⟩ := List.mem_map.mp hmade
  simp only [Bool.and_eq_true, Bool.not_eq_true', List.isEmpty_eq_false_iff, bne_iff_ne]
    at hproper
  rw [← map_test_viewed s]
  refine uniform_members x ?_ hproper.1 hproper.2
  intro v hv
  rw [decide_eq_true_iff, (viewed_spec hv).1]

theorem uniform_of_operationClusters {s : Specification} {k : Cluster}
    (hk : k ∈ operationClusters (viewed s)) :
    ¬ Uniform primary? s.testList ∧ Uniform primary? (k.members.map (·.test)) := by
  obtain ⟨hmade, hproper⟩ := List.mem_filter.mp hk
  obtain ⟨op, _, rfl⟩ := List.mem_map.mp hmade
  simp only [Bool.and_eq_true, decide_eq_true_eq, bne_iff_ne] at hproper
  rw [← map_test_viewed s]
  refine uniform_members (some op) ?_ (List.ne_nil_of_length_pos (by omega)) hproper.2
  intro v hv
  rw [beq_iff_eq, (viewed_spec hv).2]

/-- A cluster is a part of the tests. -/
theorem members_subset {tests : List Viewed} {k : Cluster} (hk : k ∈ clusters tests) :
    k.members ⊆ tests := by
  rcases List.mem_append.mp hk with hk | hk
  · obtain ⟨x, _, rfl⟩ := List.mem_map.mp (List.mem_filter.mp hk).1
    exact fun v hv => (List.mem_filter.mp hv).1
  · obtain ⟨op, _, rfl⟩ := List.mem_map.mp (List.mem_filter.mp hk).1
    exact fun v hv => (List.mem_filter.mp hv).1

theorem exists_cluster {s : Specification} {p : Subproblem} (hp : p ∈ decompose s) :
    ∃ k ∈ clusters (viewed s), ∃ i, p = subproblem s k i := by
  unfold decompose at hp
  dsimp only at hp
  split at hp
  · simp at hp
  · obtain ⟨⟨k, i⟩, hki, rfl⟩ := List.mem_map.mp hp
    exact ⟨k, List.fst_mem_of_mem_zipIdx hki, i, rfl⟩

/-- The tests of a subproblem differ in fewer respects than all the tests. -/
theorem differences_lt {s : Specification} {p : Subproblem} (hp : p ∈ decompose s) :
    differences p.specification.testList < differences s.testList := by
  obtain ⟨k, hk, i, rfl⟩ := exists_cluster hp
  have htests : (subproblem s k i).specification.testList = k.members.map (·.test) :=
    Specification.testList_derive s _ _
  have hfew : k.members.map (·.test) ⊆ s.testList := by
    rw [← map_test_viewed s]
    exact List.map_subset _ (members_subset hk)
  have hcategory : Uniform category s.testList → Uniform category (k.members.map (·.test)) :=
    fun h => h.mono hfew
  have hprimary : Uniform primary? s.testList → Uniform primary? (k.members.map (·.test)) :=
    fun h => h.mono hfew
  rw [htests]
  unfold differences
  rcases List.mem_append.mp hk with hk | hk
  · obtain ⟨hmixed, huniform⟩ := uniform_of_categoryClusters hk
    rw [if_neg hmixed, if_pos huniform]
    split <;> split <;> simp_all
  · obtain ⟨hmixed, huniform⟩ := uniform_of_operationClusters hk
    rw [if_neg hmixed, if_pos huniform]
    split <;> split <;> simp_all

theorem typeSignature_of_mem {s : Specification} {p : Subproblem} (hp : p ∈ decompose s) :
    p.specification.typeSignature = s.typeSignature := by
  obtain ⟨k, _, i, rfl⟩ := exists_cluster hp
  rfl

end Strategy.Clusters

end Synthesis
