import Synthesis.Similarity.Corpus
import Synthesis.Proofs.TermVectors
import Mathlib.Analysis.Real.Sqrt

/-!
Searching a corpus. A search finds the documents of positive score, each once. In exact arithmetic
the scores are the same for all walks; and with positive weights of the terms, the score of a
document is the cosine of its vector and that of the query, between zero and one as it is, and it is
positive just when the document and the query have a token in common. So a search without a limit
finds exactly the documents that do.
-/
namespace Synthesis.Corpus

section Found

variable {α : Type} {c : Corpus} {scores : List α}

/-- Every document with its place and its score. -/
def scored (c : Corpus) (scores : List α) : List (Found α) :=
  (c.documents.zip scores).zipIdx.map fun x => ⟨x.1.1.name, x.2, x.1.2⟩

theorem found_perm [Zero α] [LT α] [DecidableLT α] {limit : Int} (h : limit ≤ 0) :
    (c.found scores limit).Perm ((c.scored scores).filter fun x => 0 < x.score) := by
  unfold found limited
  rw [if_neg (Int.not_lt.mpr h)]
  exact List.mergeSort_perm _ _

end Found

section Walks

variable {α : Type} [Field α] [BEq α]

/-- In exact arithmetic neither the walks of a search nor those of the index matter. -/
theorem scoresBy_walks (root clamp : α → α) (rarity : String → α) (walks walks' : Walks)
    (c c' : Corpus) (h : c'.tokens = c.tokens) (query : String) :
    c.scoresBy root clamp rarity walks query = c'.scoresBy root clamp rarity walks' query := by
  have hweight : c'.weightBy rarity = c.weightBy rarity := by
    funext term
    unfold weightBy documentCount
    rw [h]
  unfold scoresBy vectorBy
  rw [h, hweight]
  refine List.map_congr_left fun x _ => ?_
  dsimp only
  rw [TermVector.dot_walk _ _ (walks' (x.2 + 1)) (c'.walks x.2),
    TermVector.normSquared_walk (walks 0) (walks' 0),
    TermVector.normSquared_walk (c.walks x.2) (c'.walks x.2)]

end Walks

section Exact

variable {rarity : String → ℝ} {clamp : ℝ → ℝ} {documents : List Document} {query : String}

theorem documentCount_pos_iff {c : Corpus} {term : String} :
    0 < c.documentCount term ↔ ∃ tokens ∈ c.tokens, term ∈ tokens := by
  simp [documentCount, List.countP_pos_iff]

theorem weightBy_isSome_iff {c : Corpus} {term : String} :
    (c.weightBy rarity term).isSome ↔ ∃ tokens ∈ c.tokens, term ∈ tokens := by
  rw [← documentCount_pos_iff, weightBy]
  split
  next hzero => simp [hzero]
  next n hother => simpa using Nat.pos_of_ne_zero hother

theorem positive_weightBy (h : ∀ t, 0 < rarity t) (c : Corpus) :
    TermVector.Positive (c.weightBy rarity) := by
  intro t w hw
  unfold weightBy at hw
  split at hw
  · cases hw
  · exact Option.some.inj hw ▸ h t

/-- The cosine of two vectors as it is before it is clamped. -/
noncomputable def plainCosine (u v : List (String × ℝ)) : ℝ :=
  TermVector.dot u v /
    (Real.sqrt (TermVector.normSquared u) * Real.sqrt (TermVector.normSquared v))

section Cosine

variable {u v : List (String × ℝ)}

theorem plainCosine_nonneg (hdot : 0 ≤ TermVector.dot u v) : 0 ≤ plainCosine u v :=
  div_nonneg hdot (mul_nonneg (Real.sqrt_nonneg _) (Real.sqrt_nonneg _))

theorem plainCosine_le_one (hu : 0 ≤ TermVector.normSquared u)
    (hsq : TermVector.dot u v ^ 2 ≤ TermVector.normSquared u * TermVector.normSquared v) :
    plainCosine u v ≤ 1 := by
  unfold plainCosine
  rw [← Real.sqrt_mul hu]
  exact div_le_one_of_le₀ (Real.le_sqrt_of_sq_le hsq) (Real.sqrt_nonneg _)

/-- A vector without length has no cosine that is not zero. -/
theorem plainCosine_pos_iff (hu : 0 ≤ TermVector.normSquared u)
    (hv : 0 ≤ TermVector.normSquared v) (hdot : 0 ≤ TermVector.dot u v)
    (hsq : TermVector.dot u v ^ 2 ≤ TermVector.normSquared u * TermVector.normSquared v) :
    0 < plainCosine u v ↔ 0 < TermVector.dot u v := by
  constructor
  · intro hpos
    refine hdot.lt_of_ne fun hzero => ?_
    rw [plainCosine, ← hzero, zero_div] at hpos
    exact lt_irrefl 0 hpos
  · intro hpos
    have hproduct := (pow_pos hpos 2).trans_le hsq
    have hu' := pos_of_mul_pos_left hproduct hv
    have hv' := pos_of_mul_pos_right hproduct hu
    exact div_pos hpos (mul_pos (Real.sqrt_pos.mpr hu') (Real.sqrt_pos.mpr hv'))

/-- Between zero and one there is nothing to clamp. -/
theorem cosineBy_eq (hclamp : ∀ x, 0 ≤ x → x ≤ 1 → clamp x = x) (hnonneg : 0 ≤ plainCosine u v)
    (hle : plainCosine u v ≤ 1) :
    cosineBy Real.sqrt clamp (TermVector.dot u v) (TermVector.normSquared u)
      (TermVector.normSquared v) = plainCosine u v := by
  unfold cosineBy
  dsimp only
  split
  next hflat =>
    rw [Bool.or_eq_true, beq_iff_eq, beq_iff_eq] at hflat
    rcases hflat with hu | hv
    · rw [plainCosine, hu, zero_mul, div_zero]
    · rw [plainCosine, hv, mul_zero, div_zero]
  next => exact hclamp _ hnonneg hle

end Cosine

section Tokens

variable {c : Corpus} {left right : Walk} {xs ys : List String}

theorem cosine_mem_unit (hrarity : ∀ t, 0 < rarity t) (c : Corpus) (left right : Walk)
    (xs ys : List String) :
    0 ≤ plainCosine (c.vectorBy rarity left xs) (c.vectorBy rarity right ys) ∧
      plainCosine (c.vectorBy rarity left xs) (c.vectorBy rarity right ys) ≤ 1 :=
  ⟨plainCosine_nonneg (TermVector.dot_nonneg (positive_weightBy hrarity c) xs ys),
    plainCosine_le_one (TermVector.normSquared_nonneg (c.weightBy rarity) xs)
      (TermVector.sq_dot_le (c.weightBy rarity) xs ys)⟩

/-- All tokens of a document have a weight, so every shared one counts. -/
theorem cosine_pos_iff (hrarity : ∀ t, 0 < rarity t) (hys : ys ∈ c.tokens) :
    0 < plainCosine (c.vectorBy rarity left xs) (c.vectorBy rarity right ys) ↔
      ∃ t ∈ xs, t ∈ ys := by
  have hpositive := positive_weightBy hrarity c
  rw [vectorBy, vectorBy, plainCosine_pos_iff (TermVector.normSquared_nonneg _ _)
    (TermVector.normSquared_nonneg _ _) (TermVector.dot_nonneg hpositive _ _)
    (TermVector.sq_dot_le _ _ _), TermVector.dot_pos_iff hpositive]
  constructor
  · rintro ⟨t, hleft, hright, _⟩
    exact ⟨t, hleft, hright⟩
  · rintro ⟨t, hleft, hright⟩
    exact ⟨t, hleft, hright, weightBy_isSome_iff.mpr ⟨ys, hys, hright⟩⟩

theorem scoresBy_eq (hrarity : ∀ t, 0 < rarity t) (hclamp : ∀ x, 0 ≤ x → x ≤ 1 → clamp x = x)
    (c : Corpus) (walks : Walks) (query : String) (left right : Walk) :
    c.scoresBy Real.sqrt clamp rarity walks query = c.tokens.map fun ys =>
      plainCosine (c.vectorBy rarity left (Tokens.ofText query)) (c.vectorBy rarity right ys) := by
  have hwhole : c.tokens.zipIdx.map Prod.fst = c.tokens := List.zipIdx_map_fst 0 c.tokens
  rw [scoresBy_walks _ _ _ walks (fun _ => left) c { c with walks := fun _ => right } rfl]
  conv_rhs => rw [← hwhole, List.map_map]
  unfold scoresBy
  refine List.map_congr_left fun x _ => ?_
  obtain ⟨hnonneg, hle⟩ := cosine_mem_unit hrarity c left right (Tokens.ofText query) x.1
  exact cosineBy_eq hclamp hnonneg hle

end Tokens

/-- What a search without a limit finds, where the score depends on the document alone. -/
theorem found_map_perm {score : Document → ℝ} {limit : Int} (h : limit ≤ 0) (built : Walks)
    (documents : List Document) :
    (((ofDocuments built documents).found (documents.map score) limit).map fun x =>
      (x.name, x.index)).Perm ((documents.zipIdx.filter fun x => 0 < score x.1).map fun x =>
        (x.1.name, x.2)) := by
  have hpairs : documents.zip (documents.map score) = documents.map fun d => (d, score d) := by
    rw [← List.zip_map', List.map_id']
  have hscored : (ofDocuments built documents).scored (documents.map score) =
      documents.zipIdx.map fun x => ⟨x.1.name, x.2, score x.1⟩ := by
    unfold scored ofDocuments
    dsimp only
    rw [hpairs, List.zipIdx_map, List.map_map]
    rfl
  refine ((found_perm h).map _).trans ?_
  rw [hscored, List.filter_map, List.map_map]
  exact .refl _

/-- The documents that have a token in common with a query, by name and place. -/
def sharing (documents : List Document) (query : String) : List (String × Nat) :=
  (documents.zipIdx.filter fun x =>
    (Tokens.ofText query).any (Tokens.ofText x.1.text).contains).map fun x => (x.1.name, x.2)

/-- Similarity in exact arithmetic, for any positive weights of the terms, any clamp that leaves the
numbers from zero to one alone, and whatever walks the sums take. The score of a document is the
cosine of its vector and that of the query. By the bound of the squared dot product, which is
reached when the two repeat the same tokens, it lies between zero and one before it is clamped, and
it is positive just when the two have a token in common. So a search without a limit finds each
document that shares a token with the query once, and no other. -/
theorem search_finds_sharing (hrarity : ∀ t, 0 < rarity t)
    (hclamp : ∀ x, 0 ≤ x → x ≤ 1 → clamp x = x) (built walks : Walks)
    (documents : List Document) (query : String) :
    let c := ofDocuments built documents
    let scores := c.scoresBy Real.sqrt clamp rarity walks query
    (∀ (i : Nat) (d : Document), documents[i]? = some d → ∀ left right : Walk,
      let q := c.vectorBy rarity left (Tokens.ofText query)
      let v := c.vectorBy rarity right (Tokens.ofText d.text)
      let cosine := TermVector.dot q v /
        (Real.sqrt (TermVector.normSquared q) * Real.sqrt (TermVector.normSquared v))
      scores[i]? = some cosine ∧
      (0 < cosine ↔ ∃ token ∈ Tokens.ofText query, token ∈ Tokens.ofText d.text) ∧
      TermVector.dot q v ^ 2 ≤ TermVector.normSquared q * TermVector.normSquared v ∧
      (0 ≤ cosine ∧ cosine ≤ 1) ∧
      (TermVector.Repeats (Tokens.ofText query) (Tokens.ofText d.text) →
        TermVector.dot q v ^ 2 = TermVector.normSquared q * TermVector.normSquared v)) ∧
    ∀ limit ≤ 0, ((c.found scores limit).map fun x => (x.name, x.index)).Perm
      (sharing documents query) := by
  intro c scores
  have hscores (left right : Walk) : scores = documents.map fun d =>
      plainCosine (c.vectorBy rarity left (Tokens.ofText query))
        (c.vectorBy rarity right (Tokens.ofText d.text)) := by
    rw [show scores = _ from scoresBy_eq hrarity hclamp c walks query left right]
    exact List.map_map
  have htokens {d : Document} (hd : d ∈ documents) : Tokens.ofText d.text ∈ c.tokens :=
    List.mem_map_of_mem hd
  refine ⟨?_, ?_⟩
  · intro i d hd left right q v cosine
    refine ⟨?_, cosine_pos_iff hrarity (htokens (List.mem_of_getElem? hd)),
      TermVector.sq_dot_le (c.weightBy rarity) _ _, cosine_mem_unit hrarity c left right _ _, ?_⟩
    · rw [hscores left right, List.getElem?_map, hd]
      rfl
    · intro hrepeats
      obtain ⟨hquery, hdocument⟩ := hrepeats.dot_eq_normSquared (c.weightBy rarity)
      calc TermVector.dot q v ^ 2 = TermVector.dot q v * TermVector.dot q v := sq _
        _ = TermVector.normSquared q * TermVector.normSquared v := congrArg₂ _ hquery hdocument
  · intro limit hlimit
    rw [hscores .inOrder .inOrder]
    refine (found_map_perm hlimit built documents).trans (.of_eq (congrArg _ ?_))
    refine List.filter_congr fun x hx => ?_
    rw [Bool.eq_iff_iff, decide_eq_true_iff,
      cosine_pos_iff hrarity (htokens (List.fst_mem_of_mem_zipIdx hx))]
    simp [List.any_eq_true]

end Exact

/-- A document that repeats its tokens, one of stop words, one of other tokens. -/
def shelf : List Document :=
  [⟨"sums", "Sum the even, sum the EVEN!"⟩, ⟨"stops", "of the"⟩, ⟨"dates", "parse dates"⟩,
    ⟨"mixed", "parse even dates"⟩]

/-- Meets the last term first. -/
def backwards : Walk := ⟨List.reverse, List.reverse_perm⟩

theorem search_finds_sharing_shelf :
    (∀ _ : String, (0 : ℝ) < 1) ∧ (∀ x : ℝ, 0 ≤ x → x ≤ 1 → max 0 (min 1 x) = x) ∧
      TermVector.Repeats (Tokens.ofText "the even sum")
        (Tokens.ofText "Sum the even, sum the EVEN!") ∧
      (((ofDocuments .inOrder shelf).found ((ofDocuments .inOrder shelf).scoresBy Real.sqrt
        (fun x => max 0 (min 1 x)) (fun _ => 1) (fun _ => backwards) "the even sum") 0).map fun x =>
          (x.name, x.index)).Perm [("sums", 0), ("mixed", 3)] := by
  have hpositive : ∀ _ : String, (0 : ℝ) < 1 := fun _ => one_pos
  have hclamp : ∀ x : ℝ, 0 ≤ x → x ≤ 1 → max 0 (min 1 x) = x := fun x hnonneg hle => by
    rw [min_eq_right hle, max_eq_right hnonneg]
  have hsharing : sharing shelf "the even sum" = [("sums", 0), ("mixed", 3)] := by decide +kernel
  have hfound := (search_finds_sharing hpositive hclamp .inOrder (fun _ => backwards) shelf
    "the even sum").2 0 le_rfl
  rw [hsharing] at hfound
  exact ⟨hpositive, hclamp, ⟨2, 1, by decide, by decide, by decide +kernel⟩, hfound⟩

end Synthesis.Corpus
