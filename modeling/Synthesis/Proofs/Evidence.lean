import Synthesis.Proofs.Window
import Mathlib.Algebra.Group.Prod
import Mathlib.Algebra.Order.Field.Basic
import Mathlib.Algebra.Order.Field.Rat
import Mathlib.Data.Nat.Dist
import Mathlib.Tactic.FieldSimp
import Mathlib.Tactic.Linarith
import Mathlib.Tactic.Positivity

/-!
Scores go along with the evidence. In exact arithmetic, and by any measure of similarity that is at
most one, a recorded success never lowers the score of its strategy for its specification and a
recorded failure never raises it, whatever the window holds and whatever falls out of it. The reason
is that a new outcome weighs as much as an outcome can, so it outweighs the one it pushes out.
-/
namespace Synthesis.Experience

section Shares

variable {α : Type} [Field α]

/-- The weights of successes and of the whole, with successes and failures exchanged. -/
def mirrored (p : α × α) : α × α := (p.2 - p.1, p.2)

theorem mirrored_add (p q : α × α) : mirrored (p + q) = mirrored p + mirrored q :=
  Prod.ext (add_sub_add_comm _ _ _ _) rfl

theorem mirrored_failure : mirrored ((0, 1) : α × α) = (1, 1) := by simp [mirrored]

variable [LinearOrder α]

/-- What a piece of evidence adds to the weight of the successes and to the whole weight. -/
def contribution (x : α × Bool) : α × α := (if x.2 then max 0 x.1 else 0, max 0 x.1)

theorem weigh_eq (acc : α × α) (x : α × Bool) : weigh acc x = acc + contribution x := by
  obtain ⟨similarity, success⟩ := x
  unfold weigh contribution
  dsimp only
  split
  next hnone => cases success <;> simp [max_eq_left hnone]
  next hsome =>
    rw [max_eq_right (not_le.mp hsome).le]
    cases success <;> simp [Prod.ext_iff]

/-- The weight of the successes in some evidence, and its whole weight. -/
def balance (evidence : List (α × Bool)) : α × α := evidence.foldl weigh (0, 0)

theorem foldl_weigh (acc : α × α) (evidence : List (α × Bool)) :
    evidence.foldl weigh acc = acc + balance evidence := by
  unfold balance
  induction evidence generalizing acc with
  | nil => simp
  | cons x evidence ih =>
    rw [List.foldl_cons, List.foldl_cons, ih, ih (weigh (0, 0) x), weigh_eq, weigh_eq, add_assoc]
    simp [Prod.ext_iff]

theorem balance_append (earlier later : List (α × Bool)) :
    balance (earlier ++ later) = balance earlier + balance later := by
  rw [← foldl_weigh, balance, List.foldl_append]
  rfl

theorem balance_singleton (x : α × Bool) : balance [x] = contribution x := by
  change weigh (0, 0) x = contribution x
  rw [weigh_eq]
  simp [Prod.ext_iff]

/-- The score that some weights give. -/
def share (neutral : α) (p : α × α) : α := if p.2 = 0 then neutral else p.1 / p.2

theorem weightedShare_eq (neutral : α) (evidence : List (α × Bool)) :
    weightedShare neutral evidence = share neutral (balance evidence) := by
  unfold weightedShare share balance
  simp only [beq_iff_eq]

theorem share_mirrored (neutral : α) (p : α × α) :
    share (1 - neutral) (mirrored p) = 1 - share neutral p := by
  unfold share mirrored
  dsimp only
  split
  · rfl
  · field_simp

/-- Weights as evidence can have them: the successes weigh no more than the whole. -/
structure IsBalance (p : α × α) : Prop where
  nonneg : 0 ≤ p.1
  le : p.1 ≤ p.2

theorem isBalance_contribution (x : α × Bool) : IsBalance (contribution x) := by
  have hweight : 0 ≤ max 0 x.1 := le_max_left 0 x.1
  unfold contribution
  split
  · exact ⟨hweight, le_rfl⟩
  · exact ⟨le_rfl, hweight⟩

variable {neutral : α} {p q rest gone : α × α}

theorem share_of_pos (h : 0 < p.2) : share neutral p = p.1 / p.2 := if_neg h.ne'

variable [IsStrictOrderedRing α]

theorem IsBalance.add (hp : IsBalance p) (hq : IsBalance q) : IsBalance (p + q) :=
  ⟨add_nonneg hp.nonneg hq.nonneg, add_le_add hp.le hq.le⟩

theorem IsBalance.mirrored (hp : IsBalance p) : IsBalance (mirrored p) :=
  ⟨sub_nonneg.mpr hp.le, sub_le_self _ hp.nonneg⟩

theorem isBalance_balance (evidence : List (α × Bool)) : IsBalance (balance evidence) := by
  induction evidence with
  | nil => exact ⟨le_rfl, le_rfl⟩
  | cons x evidence ih =>
    rw [← List.singleton_append, balance_append, balance_singleton]
    exact (isBalance_contribution x).add ih

theorem share_nonneg (hneutral : 0 ≤ neutral) (hp : IsBalance p) : 0 ≤ share neutral p := by
  unfold share
  split
  · exact hneutral
  · exact div_nonneg hp.nonneg (hp.nonneg.trans hp.le)

theorem share_le_one (hneutral : neutral ≤ 1) (hp : IsBalance p) : share neutral p ≤ 1 := by
  unfold share
  split
  · exact hneutral
  · exact div_le_one_of_le₀ hp.le (hp.nonneg.trans hp.le)

/-- A success that weighs as much as anything can outweighs whatever goes for it. -/
theorem share_le_add_success (hneutral : neutral ≤ 1) (hrest : IsBalance rest)
    (hgone : IsBalance gone) (hone : gone.2 ≤ 1) :
    share neutral (gone + rest) ≤ share neutral (rest + (1, 1)) := by
  obtain ⟨S, T⟩ := rest
  obtain ⟨a, b⟩ := gone
  obtain ⟨hS, hST⟩ := hrest
  obtain ⟨ha, hab⟩ := hgone
  dsimp only at hS hST ha hab hone
  have hnew : 0 < T + 1 := by linarith
  rw [share_of_pos (p := (S, T) + (1, 1)) hnew]
  rcases (add_nonneg (ha.trans hab) (hS.trans hST)).eq_or_lt with hzero | hpos
  · have hT : T = 0 := by linarith
    have hS0 : S = 0 := by linarith
    have hnone : share neutral ((a, b) + (S, T)) = neutral := if_pos hzero.symm
    rw [hnone]
    simpa [hT, hS0] using hneutral
  · rw [share_of_pos (p := (a, b) + (S, T)) hpos]
    change (a + S) / (b + T) ≤ (S + 1) / (T + 1)
    rw [div_le_div_iff₀ hpos hnew]
    have hkept : S * (1 - b) ≤ T * (1 - b) := mul_le_mul_of_nonneg_right hST (by linarith)
    have hlost : a * (T + 1) ≤ b * (T + 1) := mul_le_mul_of_nonneg_right hab hnew.le
    linarith

/-- A success that pushes nothing out raises every score but the highest. -/
theorem share_lt_add_success (hp : IsBalance p) (hbelow : share neutral p < 1) :
    share neutral p < share neutral (p + (1, 1)) := by
  obtain ⟨S, T⟩ := p
  obtain ⟨hS, hST⟩ := hp
  dsimp only at hS hST
  have hnew : 0 < T + 1 := by linarith
  rw [share_of_pos (p := (S, T) + (1, 1)) hnew]
  change share neutral (S, T) < (S + 1) / (T + 1)
  rcases (hS.trans hST).eq_or_lt with hzero | hpos
  · have hS0 : S = 0 := by linarith
    rw [hS0, ← hzero] at hbelow ⊢
    rwa [zero_add, div_one]
  · rw [share_of_pos (p := (S, T)) hpos] at hbelow ⊢
    have hless : S < T := (div_lt_one hpos).mp hbelow
    rw [div_lt_div_iff₀ hpos hnew]
    linarith

-- A failure is a success of the mirrored weights.

theorem share_add_failure_le (hneutral : 0 ≤ neutral) (hrest : IsBalance rest)
    (hgone : IsBalance gone) (hone : gone.2 ≤ 1) :
    share neutral (rest + (0, 1)) ≤ share neutral (gone + rest) := by
  have hmirror := share_le_add_success (sub_le_self 1 hneutral) hrest.mirrored hgone.mirrored hone
  rw [← mirrored_failure, ← mirrored_add, ← mirrored_add, share_mirrored, share_mirrored] at hmirror
  exact (sub_le_sub_iff_left 1).mp hmirror

theorem share_add_failure_lt (hp : IsBalance p) (habove : 0 < share neutral p) :
    share neutral (p + (0, 1)) < share neutral p := by
  have hbelow : share (1 - neutral) (mirrored p) < 1 := by
    rw [share_mirrored]
    exact sub_lt_self 1 habove
  have hmirror := share_lt_add_success hp.mirrored hbelow
  rw [← mirrored_failure, ← mirrored_add, share_mirrored, share_mirrored] at hmirror
  exact (sub_lt_sub_iff_left 1).mp hmirror

end Shares

/-- A window that is not too large loses at most its oldest outcome, and none before it is full. -/
theorem push_window {e : Experience} (hfits : e.size ≤ e.limit) (hlimit : 0 < e.limit) :
    ∃ gone rest, e.window = gone ++ rest ∧ (∀ o, (e.push o).window = rest ++ [o]) ∧
      gone.length ≤ 1 ∧ (e.size < e.limit → gone = []) := by
  unfold size at hfits ⊢
  have hdropped : e.window.length + 1 - e.limit ≤ 1 := by omega
  refine ⟨e.window.take (e.window.length + 1 - e.limit),
    e.window.drop (e.window.length + 1 - e.limit), (List.take_append_drop _ _).symm, ?_, ?_, ?_⟩
  · intro o
    unfold push newest
    dsimp only
    rw [List.length_append, List.length_singleton, List.drop_append_of_le_length (by omega)]
  · exact (List.length_take_le _ _).trans hdropped
  · intro hroom
    have hnone : e.window.length + 1 - e.limit = 0 := by omega
    rw [hnone, List.take_zero]

theorem limit_after_pos (limit : Int) (acts : List Act) : 0 < ((new limit).after acts).limit := by
  rw [(after_window limit acts).1]
  unfold new
  dsimp only
  split
  · decide
  · omega

/-- Whatever has been done with experience, its window is not too large. -/
theorem size_after_le (limit : Int) (acts : List Act) :
    ((new limit).after acts).size ≤ ((new limit).after acts).limit := by
  obtain ⟨hlimit, hwindow⟩ := after_window limit acts
  rw [size, hwindow, hlimit, newest, List.length_drop]
  omega

section Record

variable {α : Type} [Field α] [LinearOrder α] {measure : Features → Features → α}

/-- The weights that the outcomes of a strategy give. -/
def balanceOf (measure : Features → Features → α) (f : Features) (strategy : String)
    (outcomes : List Outcome) : α × α := balance (evidence measure outcomes f strategy)

theorem scoreBy_eq (neutral : α) (e : Experience) (f : Features) (strategy : String) :
    e.scoreBy neutral measure f strategy = share neutral (balanceOf measure f strategy e.window) :=
  weightedShare_eq neutral _

theorem balanceOf_append (f : Features) (strategy : String) (earlier later : List Outcome) :
    balanceOf measure f strategy (earlier ++ later) =
      balanceOf measure f strategy earlier + balanceOf measure f strategy later := by
  unfold balanceOf evidence
  rw [List.filter_append, List.map_append, balance_append]

theorem balanceOf_singleton (f : Features) (strategy : String) (o : Outcome) :
    balanceOf measure f strategy [o] =
      if o.strategy = strategy then contribution (measure f o.features, o.success) else 0 := by
  unfold balanceOf evidence
  split
  next hown => rw [List.filter_cons_of_pos (by simpa using hown)]; exact balance_singleton _
  next hother => rw [List.filter_cons_of_neg (by simpa using hother)]; rfl

variable [IsStrictOrderedRing α]

theorem isBalance_balanceOf (f : Features) (strategy : String) (outcomes : List Outcome) :
    IsBalance (balanceOf measure f strategy outcomes) := isBalance_balance _

/-- A single outcome weighs at most as much as the measure can be. -/
theorem balanceOf_le_one (hmeasure : ∀ f g, measure f g ≤ 1) (f : Features) (strategy : String)
    {outcomes : List Outcome} (hfew : outcomes.length ≤ 1) :
    (balanceOf measure f strategy outcomes).2 ≤ 1 := by
  cases outcomes with
  | nil => exact zero_le_one
  | cons o others =>
    obtain rfl : others = [] := by simpa using hfew
    rw [balanceOf_singleton]
    split
    · exact max_le zero_le_one (hmeasure _ _)
    · exact zero_le_one

/-- What recording does to the weights: one full outcome for at most one that is gone. -/
theorem balanceOf_record (hmeasure : ∀ f g, measure f g ≤ 1) {s : Specification}
    (hself : measure (.ofSpecification s) (.ofSpecification s) = 1) {e : Experience}
    (hfits : e.size ≤ e.limit) (hlimit : 0 < e.limit) (strategy : String) :
    ∃ gone rest : α × α, IsBalance gone ∧ IsBalance rest ∧ gone.2 ≤ 1 ∧
      (e.size < e.limit → gone = 0) ∧
      balanceOf measure (.ofSpecification s) strategy e.window = gone + rest ∧
      ∀ now success iterations, balanceOf measure (.ofSpecification s) strategy
        (e.record now s strategy success iterations).window =
          rest + (if success then 1 else 0, 1) := by
  obtain ⟨gone, rest, hwindow, hpush, hfew, hroom⟩ := push_window hfits hlimit
  refine ⟨balanceOf measure _ strategy gone, balanceOf measure _ strategy rest,
    isBalance_balanceOf _ _ _, isBalance_balanceOf _ _ _, balanceOf_le_one hmeasure _ _ hfew, ?_,
    by rw [hwindow, balanceOf_append], ?_⟩
  · intro hsize
    rw [hroom hsize]
    rfl
  · intro now success iterations
    rw [record, hpush, balanceOf_append, balanceOf_singleton, if_pos rfl, contribution, hself,
      max_eq_right zero_le_one]

/-- The score of a strategy for a specification, by any measure of similarity that is at most one
and is one on the specification's own features. After any acts on experience it lies between zero
and one. A success recorded for the two never lowers it and a failure never raises it, also when an
older outcome is pushed out; while there is room in the window, every score but the highest rises
and every score but the lowest falls. -/
theorem score_follows_record (hmeasure : ∀ f g, measure f g ≤ 1) {s : Specification}
    (hself : measure (.ofSpecification s) (.ofSpecification s) = 1) (limit : Int) (acts : List Act)
    (strategy : String) :
    let e := (Experience.new limit).after acts
    let score := fun e : Experience => e.scoreBy (1 / 2) measure (.ofSpecification s) strategy
    (0 ≤ score e ∧ score e ≤ 1) ∧
      ∀ now iterations,
        score e ≤ score (e.record now s strategy true iterations) ∧
        score (e.record now s strategy false iterations) ≤ score e ∧
        (e.size < e.limit →
          (score e ≠ 1 → score e < score (e.record now s strategy true iterations)) ∧
          (score e ≠ 0 → score (e.record now s strategy false iterations) < score e)) := by
  intro e score
  have hhalf : (0 : α) ≤ 1 / 2 := by norm_num
  have hhalf' : (1 / 2 : α) ≤ 1 := by norm_num
  obtain ⟨gone, rest, hgone, hrest, hone, hroom, hbefore, hafter⟩ :=
    balanceOf_record hmeasure hself (size_after_le limit acts) (limit_after_pos limit acts) strategy
  have hscore : score e = share (1 / 2) (gone + rest) := by rw [← hbefore]; exact scoreBy_eq _ _ _ _
  have hsuccess (now iterations) :
      score (e.record now s strategy true iterations) = share (1 / 2) (rest + (1, 1)) :=
    (scoreBy_eq _ _ _ _).trans (congrArg _ (hafter now true iterations))
  have hfailure (now iterations) :
      score (e.record now s strategy false iterations) = share (1 / 2) (rest + (0, 1)) :=
    (scoreBy_eq _ _ _ _).trans (congrArg _ (hafter now false iterations))
  have hnonneg := share_nonneg hhalf (hgone.add hrest)
  have hle := share_le_one hhalf' (hgone.add hrest)
  refine ⟨by rw [hscore]; exact ⟨hnonneg, hle⟩, fun now iterations => ?_⟩
  rw [hsuccess, hfailure, hscore]
  refine ⟨share_le_add_success hhalf' hrest hgone hone, share_add_failure_le hhalf hrest hgone hone,
    fun hsize => ?_⟩
  rw [hroom hsize, zero_add] at hnonneg hle ⊢
  exact ⟨fun hbelow => share_lt_add_success hrest (hle.lt_of_ne hbelow),
    fun habove => share_add_failure_lt hrest (hnonneg.lt_of_ne habove.symm)⟩

end Record

/-- The number of constraints that a feature vector counts. -/
def constraintCount (f : Features) : Nat :=
  match f.get? "constraint_count" with
  | some (.count n) => n
  | _ => 0

/-- How near two feature vectors are by the constraints they count. -/
def nearness (f g : Features) : ℚ := 1 / (1 + Nat.dist (constraintCount f) (constraintCount g))

theorem nearness_le_one (f g : Features) : nearness f g ≤ 1 := by
  unfold nearness
  rw [div_le_one (by positivity)]
  simp

theorem nearness_self (f : Features) : nearness f f = 1 := by simp [nearness]

/-- A success, and then a failure under a constraint. -/
def trials : List Act :=
  [.record Outcome.noTime {} "hole" true 1,
    .record Outcome.noTime { constraints := some ["fast"] } "hole" false 2]

/-- In a full window a success takes the place of a success, so that the score stays. -/
theorem score_follows_record_trials :
    (∀ f g, nearness f g ≤ 1) ∧ nearness (.ofSpecification {}) (.ofSpecification {}) = 1 ∧
      ((Experience.new 2).after trials).scoreBy (1 / 2) nearness (.ofSpecification {}) "hole" =
        2 / 3 ∧
      2 / 3 ≤ (((Experience.new 2).after trials).record Outcome.noTime {} "hole" true 3).scoreBy
        (1 / 2) nearness (.ofSpecification {}) "hole" ∧
      (((Experience.new 3).after trials).record Outcome.noTime {} "hole" false 3).scoreBy
        (1 / 2) nearness (.ofSpecification {}) "hole" < 2 / 3 := by
  have hfull : ((Experience.new 2).after trials).scoreBy (1 / 2) nearness (.ofSpecification {})
      "hole" = 2 / 3 := by decide +kernel
  have hroomy : ((Experience.new 3).after trials).scoreBy (1 / 2) nearness (.ofSpecification {})
      "hole" = 2 / 3 := by decide +kernel
  have hsize :
      ((Experience.new 3).after trials).size < ((Experience.new 3).after trials).limit := by
    decide +kernel
  have hrise := (score_follows_record nearness_le_one (nearness_self (.ofSpecification {})) 2 trials
    "hole").2 Outcome.noTime 3
  have hfall := (score_follows_record nearness_le_one (nearness_self (.ofSpecification {})) 3 trials
    "hole").2 Outcome.noTime 3
  dsimp only at hrise hfall
  rw [hfull] at hrise
  rw [hroomy] at hfall
  exact ⟨nearness_le_one, nearness_self _, hfull, hrise.1, (hfall.2.2 hsize).2 (by norm_num)⟩

end Synthesis.Experience
