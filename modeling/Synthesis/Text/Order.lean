/-!
The order of lists by their first difference, and the order of texts by code points, which is also
the order of their UTF-8 bytes.
-/
namespace Synthesis

section Order

variable {α : Type}

/-- The order of lists by their first difference in rank. -/
def lexLe (rank : α → Nat) : List α → List α → Bool
  | [], _ => true
  | _ :: _, [] => false
  | a :: as, b :: bs => rank a < rank b || (rank a == rank b && lexLe rank as bs)

theorem lexLe_total (rank : α → Nat) (as bs : List α) :
    (lexLe rank as bs || lexLe rank bs as) = true := by
  induction as generalizing bs with
  | nil => rfl
  | cons a as ih =>
    cases bs with
    | nil => rfl
    | cons b bs =>
      have hrest := ih bs
      simp only [lexLe, Bool.or_eq_true, Bool.and_eq_true, decide_eq_true_eq, beq_iff_eq]
        at hrest ⊢
      rcases Nat.lt_trichotomy (rank a) (rank b) with hlt | heq | hgt
      · exact Or.inl (Or.inl hlt)
      · rcases hrest with hrest | hrest
        · exact Or.inl (Or.inr ⟨heq, hrest⟩)
        · exact Or.inr (Or.inr ⟨heq.symm, hrest⟩)
      · exact Or.inr (Or.inl hgt)

theorem lexLe_refl (rank : α → Nat) (as : List α) : lexLe rank as as = true := by
  have htotal := lexLe_total rank as as
  rwa [Bool.or_self] at htotal

theorem lexLe_trans (rank : α → Nat) {as bs cs : List α} (hab : lexLe rank as bs = true)
    (hbc : lexLe rank bs cs = true) : lexLe rank as cs = true := by
  induction as generalizing bs cs with
  | nil => rfl
  | cons a as ih =>
    cases bs with
    | nil => cases hab
    | cons b bs =>
      cases cs with
      | nil => cases hbc
      | cons c cs =>
        simp only [lexLe, Bool.or_eq_true, Bool.and_eq_true, decide_eq_true_eq, beq_iff_eq]
          at hab hbc ⊢
        rcases hab with hab | ⟨hab, hleft⟩
        · omega
        · rcases hbc with hbc | ⟨hbc, hright⟩
          · omega
          · exact Or.inr ⟨hab.trans hbc, ih hleft hright⟩

theorem lexLe_antisymm {rank : α → Nat} (hrank : ∀ a b, rank a = rank b → a = b)
    {as bs : List α} (hab : lexLe rank as bs = true) (hba : lexLe rank bs as = true) :
    as = bs := by
  induction as generalizing bs with
  | nil =>
    cases bs with
    | nil => rfl
    | cons b bs => cases hba
  | cons a as ih =>
    cases bs with
    | nil => cases hab
    | cons b bs =>
      simp only [lexLe, Bool.or_eq_true, Bool.and_eq_true, decide_eq_true_eq, beq_iff_eq]
        at hab hba
      rcases hab with hab | ⟨hab, hleft⟩
      · omega
      · rcases hba with hba | ⟨_, hright⟩
        · omega
        · rw [hrank a b hab, ih hleft hright]

end Order

namespace Text

def charsLe : List Char → List Char → Bool
  | [], _ => true
  | _ :: _, [] => false
  | a :: as, b :: bs => a.toNat < b.toNat || (a.toNat == b.toNat && charsLe as bs)

def le (a b : String) : Bool := charsLe a.toList b.toList

def lt (a b : String) : Bool := !le b a

def sort (xs : List String) : List String := xs.mergeSort le

/-- The distinct members, each where it first stands. -/
def distinct (xs : List String) : List String :=
  xs.foldl (fun seen x => if seen.contains x then seen else seen ++ [x]) []

/-- What is collected behind the members seen already: each once, and nothing else. -/
theorem foldl_distinct (xs seen : List String) (hseen : seen.Nodup) :
    (xs.foldl (fun seen x => if seen.contains x then seen else seen ++ [x]) seen).Nodup ∧
      ∀ x, x ∈ xs.foldl (fun seen x => if seen.contains x then seen else seen ++ [x]) seen ↔
        x ∈ seen ∨ x ∈ xs := by
  induction xs generalizing seen with
  | nil => exact ⟨hseen, fun x => by simp⟩
  | cons y xs ih =>
    rw [List.foldl_cons]
    split
    · rename_i hy
      obtain ⟨hnodup, hmem⟩ := ih seen hseen
      refine ⟨hnodup, fun x => ?_⟩
      rw [hmem, List.mem_cons]
      have hold : x = y → x ∈ seen := fun h => h ▸ List.contains_iff_mem.mp hy
      grind
    · rename_i hy
      have hnew : y ∉ seen := fun h => hy (List.contains_iff_mem.mpr h)
      have hgrown : (seen ++ [y]).Nodup := by
        rw [List.nodup_append]
        refine ⟨hseen, List.pairwise_singleton _ y, ?_⟩
        intro a ha b hb hab
        rw [List.mem_singleton] at hb
        exact hnew (hb ▸ hab ▸ ha)
      obtain ⟨hnodup, hmem⟩ := ih (seen ++ [y]) hgrown
      refine ⟨hnodup, fun x => ?_⟩
      rw [hmem, List.mem_append, List.mem_singleton, List.mem_cons, or_assoc]

theorem nodup_distinct (xs : List String) : (distinct xs).Nodup :=
  (foldl_distinct xs [] List.nodup_nil).1

theorem mem_distinct {xs : List String} {x : String} : x ∈ distinct xs ↔ x ∈ xs := by
  rw [distinct, (foldl_distinct xs [] List.nodup_nil).2]
  simp

end Text

end Synthesis
