import Synthesis.Similarity.Vector
import Mathlib.Algebra.Order.BigOperators.Ring.Finset
import Mathlib.Algebra.Order.Field.Basic
import Mathlib.Data.List.Perm.Basic

/-!
Term vectors in exact arithmetic. The vector of a token list has a coordinate for every term, which
is zero for all but finitely many of them, and both the dot product and the squared norm are sums of
coordinates over any finite set that holds the tokens. So they are the same for every walk, the
squared dot product is bounded by the squared norms, with equality for token lists that repeat the
same tokens; and with positive weights the dot product is positive just when the lists have a token
in common that has a weight.
-/
namespace Synthesis.TermVector

section Sums

variable {α : Type} [Field α] {walk left right : Walk} {weight : String → Option α}
  {tokens xs ys : List String} {term : String}

/-- What a term counts in the vector of a token list. -/
def coordinate (weight : String → Option α) (tokens : List String) (term : String) : α :=
  share term tokens * (weight term).getD 0

theorem coordinate_of_notMem (h : term ∉ tokens) : coordinate weight tokens term = 0 := by
  simp [coordinate, share, List.count_eq_zero.mpr h]

theorem find_slots (terms : List String) :
    Table.find term (terms.filterMap (slot? weight tokens)) =
      if term ∈ terms then (weight term).map (share term tokens * ·) else none := by
  induction terms with
  | nil => rfl
  | cons t terms ih =>
    cases hweight : weight t with
    | none =>
      rw [List.filterMap_cons_none (by rw [slot?, hweight]; rfl), ih]
      by_cases ht : term = t
      · simp [ht, hweight]
      · simp [ht]
    | some w =>
      rw [List.filterMap_cons_some (by rw [slot?, hweight]; rfl), Table.find, ih]
      by_cases ht : term = t
      · simp [ht, hweight]
      · simp [ht, Ne.symm ht]

theorem mem_order : term ∈ walk.order (Text.distinct tokens) ↔ term ∈ tokens :=
  (walk.perm _).mem_iff.trans Text.mem_distinct

theorem coefficient_ofTokens : coefficient (ofTokens walk weight tokens) term =
    coordinate weight tokens term := by
  unfold coefficient ofTokens
  rw [find_slots]
  by_cases hterm : term ∈ tokens
  · rw [if_pos (mem_order.mpr hterm), coordinate]
    cases weight term with
    | none => simp
    | some w => rfl
  · rw [if_neg (mt mem_order.mp hterm), coordinate_of_notMem hterm]
    rfl

theorem sum_slots {f : String × α → α} (hf : ∀ t, f (t, 0) = 0) (terms : List String) :
    sum ((terms.filterMap (slot? weight tokens)).map f) =
      (terms.map fun t => f (t, coordinate weight tokens t)).sum := by
  have hsum (values : List α) : sum values = values.sum := List.sum_eq_foldl.symm
  rw [hsum]
  induction terms with
  | nil => rfl
  | cons t terms ih =>
    cases hweight : weight t with
    | none =>
      rw [List.filterMap_cons_none (by rw [slot?, hweight]; rfl), ih]
      simp [coordinate, hweight, hf]
    | some w =>
      rw [List.filterMap_cons_some (by rw [slot?, hweight]; rfl), List.map_cons, List.sum_cons, ih]
      simp [coordinate, hweight]

/-- A sum over the entries of a vector, as a sum over any set that holds the tokens. -/
theorem sum_ofTokens {f : String × α → α} (hf : ∀ t, f (t, 0) = 0) {S : Finset String}
    (hS : ∀ t ∈ tokens, t ∈ S) :
    sum ((ofTokens walk weight tokens).map f) = ∑ t ∈ S, f (t, coordinate weight tokens t) := by
  have hnodup : (walk.order (Text.distinct tokens)).Nodup :=
    (walk.perm _).nodup_iff.mpr (Text.nodup_distinct tokens)
  rw [ofTokens, sum_slots hf, ← List.sum_toFinset _ hnodup]
  apply Finset.sum_subset
  · intro t ht
    exact hS t (mem_order.mp (List.mem_toFinset.mp ht))
  · intro t _ ht
    rw [coordinate_of_notMem, hf]
    exact fun hmem => ht (List.mem_toFinset.mpr (mem_order.mpr hmem))

theorem dot_eq (weight : String → Option α) {S : Finset String} (hS : ∀ t ∈ xs, t ∈ S) :
    dot (ofTokens left weight xs) (ofTokens right weight ys) =
      ∑ t ∈ S, coordinate weight xs t * coordinate weight ys t := by
  have hdot : dot (ofTokens left weight xs) (ofTokens right weight ys) =
      sum ((ofTokens left weight xs).map fun x =>
        x.2 * coefficient (ofTokens right weight ys) x.1) := rfl
  rw [hdot, sum_ofTokens (fun t => zero_mul _) hS]
  simp only [coefficient_ofTokens]

theorem normSquared_eq (weight : String → Option α) {S : Finset String} (hS : ∀ t ∈ xs, t ∈ S) :
    normSquared (ofTokens walk weight xs) = ∑ t ∈ S, coordinate weight xs t ^ 2 := by
  simp only [sq]
  exact sum_ofTokens (f := fun x => x.2 * x.2) (fun t => zero_mul _) hS

/-- In exact arithmetic a dot product is the same for all walks. -/
theorem dot_walk (left right left' right' : Walk) (weight : String → Option α)
    (xs ys : List String) :
    dot (ofTokens left weight xs) (ofTokens right weight ys) =
      dot (ofTokens left' weight xs) (ofTokens right' weight ys) := by
  have hterms : ∀ t ∈ xs, t ∈ xs.toFinset := fun t => List.mem_toFinset.mpr
  rw [dot_eq weight hterms, dot_eq weight hterms]

theorem normSquared_walk (walk walk' : Walk) (weight : String → Option α) (xs : List String) :
    normSquared (ofTokens walk weight xs) = normSquared (ofTokens walk' weight xs) := by
  have hterms : ∀ t ∈ xs, t ∈ xs.toFinset := fun t => List.mem_toFinset.mpr
  rw [normSquared_eq weight hterms, normSquared_eq weight hterms]

end Sums

/-- Two token lists have the same tokens equally often, up to how often the whole is repeated. -/
def Repeats (xs ys : List String) : Prop :=
  ∃ m n, 0 < m ∧ 0 < n ∧ (List.replicate m xs).flatten.Perm (List.replicate n ys).flatten

section Bounds

variable {α : Type} [Field α] [LinearOrder α] [IsStrictOrderedRing α] {left right walk : Walk}
  {weight : String → Option α} {tokens xs ys : List String} {term : String}

theorem sq_dot_le (weight : String → Option α) (xs ys : List String) :
    dot (ofTokens left weight xs) (ofTokens right weight ys) ^ 2 ≤
      normSquared (ofTokens left weight xs) * normSquared (ofTokens right weight ys) := by
  have hleft : ∀ t ∈ xs, t ∈ (xs ++ ys).toFinset := fun t ht => by simp [ht]
  have hright : ∀ t ∈ ys, t ∈ (xs ++ ys).toFinset := fun t ht => by simp [ht]
  rw [dot_eq weight hleft, normSquared_eq weight hleft, normSquared_eq weight hright]
  exact Finset.sum_mul_sq_le_sq_mul_sq _ _ _

theorem normSquared_nonneg (weight : String → Option α) (xs : List String) :
    0 ≤ normSquared (ofTokens walk weight xs) := by
  rw [normSquared_eq weight (S := xs.toFinset) fun t => List.mem_toFinset.mpr]
  exact Finset.sum_nonneg fun t _ => sq_nonneg _

theorem share_nonneg (term : String) (tokens : List String) : (0 : α) ≤ share term tokens :=
  div_nonneg (Nat.cast_nonneg _) (Nat.cast_nonneg _)

theorem share_pos_iff : (0 : α) < share term tokens ↔ term ∈ tokens := by
  constructor
  · intro hpos
    by_contra hterm
    rw [share, List.count_eq_zero.mpr hterm, Nat.cast_zero, zero_div] at hpos
    exact lt_irrefl 0 hpos
  · intro hterm
    have hlength : 0 < tokens.length := List.length_pos_of_mem hterm
    exact div_pos (Nat.cast_pos.mpr (List.count_pos_iff.mpr hterm)) (Nat.cast_pos.mpr hlength)

/-- The weights that there are, are positive. -/
def Positive (weight : String → Option α) : Prop := ∀ t w, weight t = some w → 0 < w

theorem coordinate_nonneg (hweight : Positive weight) (tokens : List String) (term : String) :
    0 ≤ coordinate weight tokens term := by
  unfold coordinate
  cases hterm : weight term with
  | none => simp
  | some w => exact mul_nonneg (share_nonneg _ _) (hweight term w hterm).le

theorem coordinate_pos_iff (hweight : Positive weight) :
    0 < coordinate weight tokens term ↔ term ∈ tokens ∧ (weight term).isSome := by
  unfold coordinate
  cases hterm : weight term with
  | none => simp
  | some w => simp [mul_pos_iff_of_pos_right (hweight term w hterm), share_pos_iff]

theorem dot_nonneg (hweight : Positive weight) (xs ys : List String) :
    0 ≤ dot (ofTokens left weight xs) (ofTokens right weight ys) := by
  rw [dot_eq weight (S := xs.toFinset) fun t => List.mem_toFinset.mpr]
  exact Finset.sum_nonneg fun t _ =>
    mul_nonneg (coordinate_nonneg hweight _ _) (coordinate_nonneg hweight _ _)

theorem dot_pos_iff (hweight : Positive weight) :
    0 < dot (ofTokens left weight xs) (ofTokens right weight ys) ↔
      ∃ t ∈ xs, t ∈ ys ∧ (weight t).isSome := by
  have hterms : ∀ t ∈ xs.toFinset, 0 ≤ coordinate weight xs t * coordinate weight ys t :=
    fun t _ => mul_nonneg (coordinate_nonneg hweight _ _) (coordinate_nonneg hweight _ _)
  rw [dot_eq weight (S := xs.toFinset) fun t => List.mem_toFinset.mpr,
    Finset.sum_pos_iff_of_nonneg hterms]
  constructor
  · rintro ⟨t, ht, hpos⟩
    have hright := pos_of_mul_pos_right hpos (coordinate_nonneg hweight xs t)
    obtain ⟨hmem, hsome⟩ := (coordinate_pos_iff hweight).mp hright
    exact ⟨t, List.mem_toFinset.mp ht, hmem, hsome⟩
  · rintro ⟨t, hxs, hys, hsome⟩
    exact ⟨t, List.mem_toFinset.mpr hxs, mul_pos ((coordinate_pos_iff hweight).mpr ⟨hxs, hsome⟩)
      ((coordinate_pos_iff hweight).mpr ⟨hys, hsome⟩)⟩

theorem Repeats.share_eq (h : Repeats xs ys) (term : String) :
    (share term xs : α) = share term ys := by
  obtain ⟨m, n, hm, hn, hperm⟩ := h
  have hcount : m * xs.count term = n * ys.count term := by
    simpa [List.count_flatten] using hperm.count_eq term
  have hlength : m * xs.length = n * ys.length := by simpa using hperm.length_eq
  unfold share
  rcases xs.length.eq_zero_or_pos with hxs | hxs
  · have hys : ys.length = 0 := by simpa [hxs, hn.ne'] using hlength
    simp [hxs, hys]
  · have hys : 0 < ys.length := Nat.pos_of_mul_pos_left (hlength ▸ Nat.mul_pos hm hxs)
    rw [div_eq_div_iff (Nat.cast_ne_zero.mpr hxs.ne') (Nat.cast_ne_zero.mpr hys.ne')]
    have hcross : xs.count term * ys.length = ys.count term * xs.length := by
      apply Nat.eq_of_mul_eq_mul_left hm
      calc m * (xs.count term * ys.length)
          = n * ys.count term * ys.length := by rw [← hcount, Nat.mul_assoc]
        _ = ys.count term * (m * xs.length) := by rw [hlength]; ring
        _ = m * (ys.count term * xs.length) := by ring
    exact_mod_cast hcross

/-- Token lists that repeat the same tokens have one vector, and its squared norm is the dot
product. -/
theorem Repeats.dot_eq_normSquared (h : Repeats xs ys) (weight : String → Option α) :
    dot (ofTokens left weight xs) (ofTokens right weight ys) =
        normSquared (ofTokens left weight xs) ∧
      dot (ofTokens left weight xs) (ofTokens right weight ys) =
        normSquared (ofTokens right weight ys) := by
  have hleft : ∀ t ∈ xs, t ∈ (xs ++ ys).toFinset := fun t ht => by simp [ht]
  have hright : ∀ t ∈ ys, t ∈ (xs ++ ys).toFinset := fun t ht => by simp [ht]
  have hsame (t : String) : coordinate weight xs t = coordinate weight ys t := by
    rw [coordinate, coordinate, h.share_eq]
  rw [dot_eq weight hleft, normSquared_eq weight hleft, normSquared_eq weight hright]
  simp only [hsame, sq, and_self]

end Bounds

end Synthesis.TermVector
