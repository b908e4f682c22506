import Synthesis.Proofs.Audit
import Synthesis.Proofs.Budget
import Mathlib.Algebra.Order.Ring.Int
import Mathlib.Tactic.Ring

/-!
The work of a call is bounded. Each visit that is admitted pays for all the calls of the generator
that its own attempts can make, so many strategies with so many candidates of so many tries each;
its subproblems are visits and pay for themselves. However often strategies split and fail, the
calls are therefore bounded by the admitted visits, and those by the settings. That visits end at
the greatest depth is seen from the depths that they enter into the tally when they begin.
-/
namespace Synthesis

def Action.isAdmitted : Action → Bool
  | .admitted _ => true
  | _ => false

theorem Action.isAdmitted_of_asks {a : Action} (h : a.asks = true) : a.isAdmitted = false := by
  cases a with
  | admitted depth => cases h
  | _ => rfl

namespace Session

variable {ω : Type}

/-- The visits that were admitted so far. -/
def admitted (σ : Session ω) : Nat := σ.actions.countP Action.isAdmitted

/-- No more visits were admitted than were counted, and no more than may be. -/
structure Within (e : Engine ω) (σ : Session ω) : Prop where
  le_visits : σ.admitted ≤ σ.visits
  le_most : (σ.admitted : Int) ≤ e.settings.maxIterations

end Session

namespace Engine

variable {ω : Type}

/-- The most calls of the generator for the attempts of a visit. -/
def visitCalls (e : Engine ω) : Nat := (e.settings.maxValidationRetries.toNat + 1) * e.leafCalls

/-- Enters the depth of a visit before anything else is done. -/
def entering (depth : Int) (solve : Solver (Audited ω)) : Solver (Audited ω) := fun s c σ =>
  solve s c { σ with world := { σ.world with tally := σ.world.tally.visit depth } }

/-- Solves under audit, each visit entering its depth. -/
def auditedSolve (e : Engine ω) : Nat → Int → Solver (Audited ω)
  | 0, depth => entering depth (e.audited.visit none depth)
  | n + 1, depth =>
    entering depth (e.audited.visit (some (auditedSolve e n (depth + 1))) depth)

/-- A whole call under audit, with an empty tally at first. -/
def auditedCall (e : Engine ω) (s : Specification) (c : Context) (session : Session ω) :
    Result × Session (Audited ω) :=
  let (r, session) := e.auditedSolve e.settings.maxDepth.toNat 0 s c
    ({ session with visits := 0, actions := [] }.audited {})
  ({ r with iterations := session.visits }, session)

/-- What is spent from one session and tally to later ones: the calls of the generator that the
newly admitted visits do not pay for are at most so many. -/
structure Spends (e : Engine ω) (deepest : Int) (extra : Nat) (σ : Session ω) (t : Tally)
    (σ' : Session ω) (t' : Tally) : Prop where
  calls : t'.calls + e.visitCalls * σ.admitted ≤ t.calls + e.visitCalls * σ'.admitted + extra
  depths : (∀ d ∈ t.depths, d ≤ deepest) → ∀ d ∈ t'.depths, d ≤ deepest
  within : σ.Within e → σ'.Within e

namespace Spends

variable {e : Engine ω} {deepest : Int} {extra more : Nat} {σ σ₁ σ₂ : Session ω}
  {t t₁ t₂ : Tally}

theorem refl (σ : Session ω) (t : Tally) : Spends e deepest 0 σ t σ t :=
  ⟨Nat.le_refl _, id, id⟩

theorem trans (h : Spends e deepest extra σ t σ₁ t₁) (h' : Spends e deepest more σ₁ t₁ σ₂ t₂) :
    Spends e deepest (extra + more) σ t σ₂ t₂ where
  calls := by
    have hfirst := h.calls
    have hthen := h'.calls
    omega
  depths := fun hdepths => h'.depths (h.depths hdepths)
  within := fun hwithin => h'.within (h.within hwithin)

theorem mono (h : Spends e deepest extra σ t σ₁ t₁) (hle : extra ≤ more) :
    Spends e deepest more σ t σ₁ t₁ :=
  { h with calls := Nat.le_trans h.calls (Nat.add_le_add_left hle _) }

/-- Actions other than admitting a visit cost only what they add to the tally. -/
theorem of_grow (new : List Action) (t : Tally) (n : Nat) (hvisits : σ.visits ≤ σ₁.visits)
    (hactions : σ₁.actions = new ++ σ.actions) (hnew : ∀ a ∈ new, a.isAdmitted = false) :
    Spends e deepest n σ t σ₁ (t.add n) := by
  have hadmitted : σ₁.admitted = σ.admitted := by
    rw [Session.admitted, hactions, List.countP_append, Session.admitted]
    simpa [List.countP_eq_zero] using hnew
  refine ⟨?_, id, ?_⟩
  · rw [hadmitted, Tally.add]
    dsimp only
    omega
  · intro hwithin
    refine ⟨?_, ?_⟩
    · rw [hadmitted]
      exact Nat.le_trans hwithin.le_visits hvisits
    · rw [hadmitted]
      exact hwithin.le_most

theorem calm (new : List Action) (t : Tally) (hvisits : σ₁.visits = σ.visits)
    (hactions : σ₁.actions = new ++ σ.actions) (hnew : ∀ a ∈ new, a.isAdmitted = false) :
    Spends e deepest 0 σ t σ₁ t :=
  of_grow new t 0 (Nat.le_of_eq hvisits.symm) hactions hnew

/-- An admitted visit pays for its attempts. -/
theorem paid (h : Spends e deepest e.visitCalls σ₁ t σ₂ t₂)
    (hadmitted : σ₁.admitted = σ.admitted + 1) (hvisits : σ₁.visits = σ.visits + 1)
    (hwithin : σ.visits + 1 ≤ e.settings.maxIterations) : Spends e deepest 0 σ t σ₂ t₂ where
  calls := by
    have hcalls := h.calls
    rw [hadmitted, Nat.mul_succ] at hcalls
    omega
  depths := h.depths
  within := by
    intro hbefore
    have hle := hbefore.le_visits
    refine h.within ⟨?_, ?_⟩
    · omega
    · omega

end Spends

/-- Under audit it comes to the same, and this is what it spends. -/
def Tracks {α : Type} (e : Engine ω) (deepest : Int) (extra : Nat) (σ : Session ω) (t : Tally)
    (out : α × Session ω) (out' : α × Session (Audited ω)) : Prop :=
  ∃ t', out' = (out.1, out.2.audited t') ∧ Spends e deepest extra σ t out.2 t'

/-- The second solver is the first under audit, and its visits pay for all calls. -/
def Pays (e : Engine ω) (deepest : Int) (solve : Solver ω) (solve' : Solver (Audited ω)) : Prop :=
  ∀ s c σ t, Tracks e deepest 0 σ t (solve s c σ) (solve' s c (σ.audited t))

section

variable {e : Engine ω} {deepest : Int} {solve : Solver ω} {solve' : Solver (Audited ω)}

theorem solveWave_tracks (hsolve : Pays e deepest solve solve') (subs : List Subproblem)
    (c : Context) (wave : List Nat) (σ : Session ω) (t : Tally) :
    Tracks e deepest 0 σ t (solveWave solve subs c wave σ)
      (solveWave solve' subs c wave (σ.audited t)) := by
  induction wave generalizing σ t with
  | nil => exact ⟨t, rfl, .refl σ t⟩
  | cons i rest ih =>
    cases hsub : subs[i]? with
    | none =>
      rw [solveWave_none rest c hsub, solveWave_none rest c hsub]
      exact ih σ t
    | some p =>
      obtain ⟨t₁, hr', hspends⟩ := hsolve p.specification c σ t
      rcases hr : solve p.specification c σ with ⟨r, σ₁⟩
      rw [hr] at hr' hspends
      obtain ⟨t₂, hrest, hlater⟩ := ih σ₁ t₁
      rw [solveWave_some rest c hsub hr, solveWave_some rest c hsub hr', hrest]
      exact ⟨t₂, rfl, hspends.trans hlater⟩

theorem solveWaves_tracks (hsolve : Pays e deepest solve solve') (subs : List Subproblem)
    (waves : List (List Nat)) (c : Context) (children : Children) (σ : Session ω) (t : Tally) :
    Tracks e deepest 0 σ t (solveWaves solve subs waves c children σ)
      (solveWaves solve' subs waves c children (σ.audited t)) := by
  induction waves generalizing c children σ t with
  | nil => exact ⟨t, rfl, .refl σ t⟩
  | cons wave rest ih =>
    obtain ⟨t₁, hr', hspends⟩ := solveWave_tracks hsolve subs c wave σ t
    rcases hr : solveWave solve subs c wave σ with ⟨results, σ₁⟩
    rw [hr] at hr' hspends
    cases hfailure : (children.enterAll (inIndexOrder results)).failure with
    | some f =>
      rw [solveWaves_failed rest c children hr hfailure,
        solveWaves_failed rest c children hr' hfailure]
      exact ⟨t₁, rfl, hspends⟩
    | none =>
      rw [solveWaves_passed rest c children hr hfailure,
        solveWaves_passed rest c children hr' hfailure]
      obtain ⟨t₂, hrest, hlater⟩ := ih _ _ σ₁ t₁
      exact ⟨t₂, hrest, hspends.trans hlater⟩

theorem solveChildren_tracks (hsolve : Pays e deepest solve solve') (subs : List Subproblem)
    (c : Context) (σ : Session ω) (t : Tally) :
    Tracks e deepest 0 σ t (e.solveChildren solve subs c σ)
      (e.audited.solveChildren solve' subs c (σ.audited t)) := by
  rw [solveChildren_eq_solveWaves, solveChildren_eq_solveWaves]
  exact solveWaves_tracks hsolve subs _ c _ σ t

theorem leafAttempt_tracks (depth : Int) (s : Specification) (c : Context) (σ : Session ω)
    (t : Tally) :
    Tracks e deepest e.leafCalls σ t (e.leafAttempt depth s c σ)
      (e.audited.leafAttempt depth s c (σ.audited t)) := by
  obtain ⟨hvisits, asked, hactions, hasks⟩ := leaf_asked e depth s c σ
  obtain ⟨calls, hcalls, heq⟩ := e.leaf_audited depth s c σ t
  unfold leafAttempt
  rw [heq]
  refine ⟨t.add calls, rfl, ?_⟩
  have hspends : Spends e deepest calls σ t (e.leaf depth s c σ).2 (t.add calls) :=
    .of_grow asked t calls (Nat.le_of_eq hvisits.symm) hactions fun a ha =>
      Action.isAdmitted_of_asks (hasks a ha)
  exact hspends.mono hcalls

variable {below : Option (Solver ω)} {below' : Option (Solver (Audited ω))}

/-- An attempt makes the calls of a leaf at most; those of its subproblems are paid for. -/
theorem attempt_tracks (hbelow : Option.Rel (Pays e deepest) below below') (depth : Int)
    (s : Specification) (c : Context) (strategy : Strategy) (σ : Session ω) (t : Tally) :
    Tracks e deepest e.leafCalls σ t (e.attempt below depth s c strategy σ)
      (e.audited.attempt below' depth s c strategy (σ.audited t)) := by
  have hmarked : Spends e deepest 0 σ t (σ.mark (.decomposed s strategy.name)) t :=
    .calm [.decomposed s strategy.name] t rfl rfl (by simp [Action.isAdmitted])
  have hleaf : Tracks e deepest e.leafCalls σ t
      (e.leafAttempt depth s c (σ.mark (.decomposed s strategy.name)))
      (e.audited.leafAttempt depth s c ((σ.mark (.decomposed s strategy.name)).audited t)) := by
    obtain ⟨t₁, heq, hspends⟩ := leafAttempt_tracks depth s c
      (σ.mark (.decomposed s strategy.name)) t
    exact ⟨t₁, heq, (hmarked.trans hspends).mono (by omega)⟩
  unfold attempt
  cases hbelow with
  | none => exact hleaf
  | @some solve solve' hsolve =>
    dsimp only
    cases hsplit : decompose s c strategy with
    | error f => exact ⟨t, rfl, hmarked.mono (Nat.zero_le _)⟩
    | ok subs =>
      cases subs with
      | nil => exact hleaf
      | cons p rest =>
        obtain ⟨t₁, heq, hspends⟩ := solveChildren_tracks hsolve (p :: rest) c
          (σ.mark (.decomposed s strategy.name)) t
        change e.audited.solveChildren solve' (p :: rest) c
          ((σ.audited t).mark (.decomposed s strategy.name)) = _ at heq
        dsimp only [splitAttempt]
        rw [heq]
        rcases hr : e.solveChildren solve (p :: rest) c (σ.mark (.decomposed s strategy.name))
          with ⟨children, σ₁⟩
        rw [hr] at hspends
        have hgathered : Spends e deepest 0 σ₁ t₁ (σ₁.mark (.gathered children.failures)) t₁ :=
          .calm [.gathered children.failures] t₁ rfl rfl (by simp [Action.isAdmitted])
        have hall := (hmarked.trans hspends).trans hgathered
        exact ⟨t₁, rfl, hall.mono (Nat.zero_le _)⟩

/-- Each attempt makes the calls of a leaf at most. -/
theorem attempts_tracks (hbelow : Option.Rel (Pays e deepest) below below') (depth : Int)
    (s : Specification) (c : Context) (retries : Nat) (tried : List String) (m : Match)
    (iterations : Int) (phases : List Phase) (σ : Session ω) (t : Tally) :
    Tracks e deepest ((retries + 1) * e.leafCalls) σ t
      (e.attempts below depth s c retries tried m iterations phases σ)
      (e.audited.attempts below' depth s c retries tried m iterations phases (σ.audited t)) := by
  induction retries using Nat.strongRecOn generalizing tried m iterations phases σ t with
  | ind retries ih =>
    obtain ⟨t₁, ha', hspends⟩ := attempt_tracks hbelow depth s c m.strategy σ t
    rcases ha : e.attempt below depth s c m.strategy σ with ⟨a, σ₁⟩
    rw [ha] at ha' hspends
    -- what follows an attempt, apart from a further one, costs nothing
    have hthen (new : List Action) (σ₂ : Session ω) (hvisits : σ₂.visits = σ₁.visits)
        (hactions : σ₂.actions = new ++ σ₁.actions) (hnew : ∀ a ∈ new, a.isAdmitted = false) :
        Spends e deepest e.leafCalls σ t σ₂ t₁ :=
      (hspends.trans (.calm new t₁ hvisits hactions hnew)).mono (Nat.le_refl _)
    have hone : e.leafCalls ≤ (retries + 1) * e.leafCalls :=
      Nat.le_mul_of_pos_left _ (Nat.succ_pos retries)
    unfold attempts
    rw [ha, ha']
    dsimp only
    cases a.outcome with
    | ok artifact =>
      have hsolved := hthen [.recorded s m.name true]
        ((σ₁.remember e s c artifact).note e s m.name true (iterations + a.iterations))
        rfl rfl (by simp [Action.isAdmitted])
      have hnoted := (σ₁.remember e s c artifact).note_audited e s m.name true
        (iterations + a.iterations) t₁
      exact ⟨t₁, congrArg _ hnoted, hsolved.mono hone⟩
    | error f =>
      have hfailed := hthen [.recorded s m.name false]
        (σ₁.note e s m.name false (iterations + a.iterations))
        rfl rfl (by simp [Action.isAdmitted])
      have hranked := hthen [.ranked s, .recorded s m.name false]
        ((σ₁.note e s m.name false (iterations + a.iterations)).mark (.ranked s))
        rfl rfl (by simp [Action.isAdmitted])
      rw [σ₁.note_audited]
      generalize σ₁.note e s m.name false (iterations + a.iterations) = σ₂ at hfailed hranked
      cases retries with
      | zero => exact ⟨t₁, rfl, hfailed.mono hone⟩
      | succ n =>
        dsimp only
        by_cases hend : (e.settings.stopOnFirstValid || !f.kind.isRetryable ||
            σ₂.stopped.isSome) = true
        · have hend' : (e.audited.settings.stopOnFirstValid || !f.kind.isRetryable ||
              (σ₂.audited t₁).stopped.isSome) = true := hend
          rw [if_pos hend, if_pos hend']
          exact ⟨t₁, rfl, hfailed.mono hone⟩
        · have hend' : ¬ (e.audited.settings.stopOnFirstValid || !f.kind.isRetryable ||
              (σ₂.audited t₁).stopped.isSome) = true := hend
          have hmarked : (σ₂.audited t₁).mark (.ranked s) =
              (σ₂.mark (.ranked s)).audited t₁ := rfl
          rw [if_neg hend, if_neg hend', hmarked, nextStrategy?_audited]
          cases e.nextStrategy? s c tried (σ₂.mark (.ranked s)) with
          | none => exact ⟨t₁, rfl, hranked.mono hone⟩
          | some next =>
            obtain ⟨t₂, hrest, hlater⟩ := ih n (Nat.lt_succ_self n) (tried ++ [next.name]) next
              (iterations + a.iterations) (a.passed phases ++ [.route]) (σ₂.mark (.ranked s)) t₁
            refine ⟨t₂, hrest, (hranked.trans hlater).mono ?_⟩
            rw [Nat.succ_mul (n + 1)]
            omega

/-- A visit pays for its attempts with its admission, and costs nothing if it is not admitted. -/
theorem visit_pays (hbelow : Option.Rel (Pays e deepest) below below') (depth : Int) :
    Pays e deepest (e.visit below depth) (e.audited.visit below' depth) := by
  intro s c σ t
  unfold visit
  have hstopped : (σ.audited t).stopped = σ.stopped := rfl
  rw [hstopped]
  cases σ.stopped with
  | some why => exact ⟨t, rfl, .calm [.turnedAway] t rfl rfl (by simp [Action.isAdmitted])⟩
  | none =>
    dsimp only
    by_cases hover : e.settings.maxIterations < σ.visits + 1
    · have hover' : e.audited.settings.maxIterations < (σ.audited t).visits + 1 := hover
      rw [if_pos hover, if_pos hover']
      exact ⟨t, rfl, .of_grow [.refused] t 0 (Nat.le_succ _) rfl (by simp [Action.isAdmitted])⟩
    · have hover' : ¬ e.audited.settings.maxIterations < (σ.audited t).visits + 1 := hover
      rw [if_neg hover, if_neg hover']
      have hwithin : σ.visits + 1 ≤ e.settings.maxIterations := by omega
      have hretrieve : ((σ.audited t).enter (.admitted depth)).retrieve e.audited s c =
          (((σ.enter (.admitted depth)).retrieve e s c).1,
            ((σ.enter (.admitted depth)).retrieve e s c).2.audited t) := rfl
      have hadmitted : ((σ.enter (.admitted depth)).retrieve e s c).2.admitted =
          σ.admitted + 1 := List.countP_cons_of_pos rfl
      have hvisits : ((σ.enter (.admitted depth)).retrieve e s c).2.visits = σ.visits + 1 := rfl
      rw [hretrieve]
      generalize (σ.enter (.admitted depth)).retrieve e s c = retrieved at hadmitted hvisits ⊢
      obtain ⟨remembered, σ₁⟩ := retrieved
      cases remembered with
      | some artifact =>
        have hfree : Spends e deepest e.visitCalls σ₁ t σ₁ t :=
          (Spends.refl σ₁ t).mono (Nat.zero_le _)
        exact ⟨t, rfl, hfree.paid hadmitted hvisits hwithin⟩
      | none =>
        have hchoose := σ₁.choose_audited e s c t
        have hranked : Spends e deepest 0 σ₁ t (σ₁.choose e s c).2 t :=
          .calm [.ranked s] t rfl rfl (by simp [Action.isAdmitted])
        dsimp only
        rw [hchoose]
        generalize σ₁.choose e s c = chosen at hranked ⊢
        obtain ⟨selected, σ₂⟩ := chosen
        cases selected with
        | error f =>
          have hfree := hranked.mono (Nat.zero_le e.visitCalls)
          exact ⟨t, rfl, hfree.paid hadmitted hvisits hwithin⟩
        | ok m =>
          obtain ⟨t₁, heq, hspends⟩ := attempts_tracks hbelow depth s c
            e.settings.maxValidationRetries.toNat [m.name] m 1 [.start, .cacheCheck, .route] σ₂ t
          have hall : Spends e deepest e.visitCalls σ₁ t _ t₁ :=
            (hranked.trans hspends).mono (Nat.le_of_eq (Nat.zero_add _))
          exact ⟨t₁, heq, hall.paid hadmitted hvisits hwithin⟩

theorem entering_pays (hsolve : Pays e deepest solve solve') {depth : Int}
    (hdepth : depth ≤ deepest) : Pays e deepest solve (entering depth solve') := by
  intro s c σ t
  obtain ⟨t₁, heq, hspends⟩ := hsolve s c σ (t.visit depth)
  refine ⟨t₁, heq, hspends.calls, ?_, hspends.within⟩
  intro hdepths
  exact hspends.depths (List.forall_mem_cons.mpr ⟨hdepth, hdepths⟩)

theorem solve_pays (n : Nat) (depth : Int) (hdepth : depth + n ≤ deepest) :
    Pays e deepest (e.solve n depth) (e.auditedSolve n depth) := by
  induction n generalizing depth with
  | zero => exact entering_pays (visit_pays .none depth) (by omega)
  | succ n ih =>
    have hbelow := ih (depth + 1) (by omega)
    exact entering_pays (visit_pays (.some hbelow) depth) (by omega)

end

end Engine

theorem RetryPolicy.attempts_le {p : RetryPolicy} (h : 0 ≤ p.maxRetries) :
    (p.attempts : Int) ≤ 1 + p.maxRetries := by
  -- a number that wraps around becomes smaller
  have hwrap : Decimal.wrap64 (p.maxRetries + 1) ≤ p.maxRetries + 1 := by
    unfold Decimal.wrap64 Int.bmod
    dsimp only
    split
    · omega
    · omega
  unfold attempts
  omega

namespace Engine

variable {ω : Type}

theorem visitCalls_le (e : Engine ω) (hvalid : e.settings.error? = none) :
    (e.visitCalls : Int) ≤
      (1 + e.settings.maxValidationRetries) ^ 2 * (1 + e.settings.maxRetries) := by
  have hvalidation := Settings.zero_le_maxValidationRetries hvalid
  have hretries := Settings.zero_le_maxRetries hvalid
  have hattempts : (e.retryPolicy.attempts : Int) ≤ 1 + e.settings.maxRetries :=
    RetryPolicy.attempts_le hretries
  have hcalls : (e.visitCalls : Int) =
      (1 + e.settings.maxValidationRetries) ^ 2 * e.retryPolicy.attempts := by
    unfold visitCalls leafCalls
    push_cast
    rw [Int.toNat_of_nonneg hvalidation, Int.toNat_of_nonneg (by omega)]
    ring
  rw [hcalls]
  exact Int.mul_le_mul_of_nonneg_left hattempts (sq_nonneg _)

/-- Under audit a call comes to the same. At most so many of its visits are admitted, none begins
beyond the greatest depth, and the generator is called at most so often for each admitted visit:
for every strategy in turn, for every candidate, for every try. -/
theorem bounded_work (e : Engine ω) (hvalid : e.settings.error? = none) (s : Specification)
    (c : Context) (σ : Session ω) :
    ∃ t : Tally,
      e.auditedCall s c σ = ((e.synthesize s c σ).1, (e.synthesize s c σ).2.audited t) ∧
      ((e.synthesize s c σ).2.admitted : Int) ≤ e.settings.maxIterations ∧
      (∀ d ∈ t.depths, d ≤ e.settings.maxDepth) ∧
      (t.calls : Int) ≤ e.settings.maxIterations * (1 + e.settings.maxValidationRetries) ^ 2 *
        (1 + e.settings.maxRetries) := by
  have hiterations := Settings.one_le_maxIterations hvalid
  have hdepth := Settings.zero_le_maxDepth hvalid
  have hpays : Pays e e.settings.maxDepth (e.solve e.settings.maxDepth.toNat 0)
      (e.auditedSolve e.settings.maxDepth.toNat 0) := solve_pays _ 0 (by omega)
  obtain ⟨t, heq, hspends⟩ := hpays s c { σ with visits := 0, actions := [] } {}
  have hfirst : ({ σ with visits := 0, actions := [] } : Session ω).Within e := by
    have hnone : ({ σ with visits := 0, actions := [] } : Session ω).admitted = 0 := rfl
    refine ⟨Nat.le_of_eq hnone, ?_⟩
    rw [hnone]
    omega
  have hmost : ((e.synthesize s c σ).2.admitted : Int) ≤ e.settings.maxIterations :=
    (hspends.within hfirst).le_most
  refine ⟨t, ?_, hmost, hspends.depths (by simp), ?_⟩
  · unfold auditedCall
    rw [heq]
    rfl
  · have hspent : t.calls + e.visitCalls * 0 ≤
        0 + e.visitCalls * (e.synthesize s c σ).2.admitted + 0 := hspends.calls
    have hpaid : t.calls ≤ e.visitCalls * (e.synthesize s c σ).2.admitted := by omega
    calc (t.calls : Int)
        ≤ e.visitCalls * (e.synthesize s c σ).2.admitted := by exact_mod_cast hpaid
      _ ≤ e.visitCalls * e.settings.maxIterations :=
        Int.mul_le_mul_of_nonneg_left hmost (Int.natCast_nonneg _)
      _ ≤ (1 + e.settings.maxValidationRetries) ^ 2 * (1 + e.settings.maxRetries) *
          e.settings.maxIterations :=
        Int.mul_le_mul_of_nonneg_right (e.visitCalls_le hvalid) (by omega)
      _ = e.settings.maxIterations * (1 + e.settings.maxValidationRetries) ^ 2 *
          (1 + e.settings.maxRetries) := by ring

/-- An engine whose generator is busy every other time. -/
def queueing : Engine Nat where
  settings :=
    { maxIterations := 3
      maxDepth := 2
      maxValidationRetries := 0
      maxRetries := 1
      policy := { enabled := false } }
  router := .new ⟨[intoHalves]⟩ 0 .inOrder
  collaborators :=
    { generator := fun _ _ _ call n =>
        if n % 2 = 0 then ⟨.error (.retryable (.plain "busy")), call.stopped, n + 1⟩
        else ⟨.ok { success := true, code := "done" }, call.stopped, n + 1⟩ }
  clock := fun _ => 0

def queue : Session Nat where
  solutions := queueing.settings.newSolutions
  strategies := queueing.settings.newStrategies
  results := queueing.settings.newExecutions
  experience := .new queueing.settings.maxHistory
  world := 0

/-- The call goes down as far as it may. For the left one of the deepest halves the generator is
asked twice, and the right one is a visit too many. -/
theorem bounded_work_queueing :
    queueing.settings.error? = none ∧ ∃ t : Tally,
      queueing.auditedCall both {} queue =
        ((queueing.synthesize both {} queue).1, (queueing.synthesize both {} queue).2.audited t) ∧
      ((queueing.synthesize both {} queue).2.visits = 4 ∧
        (queueing.synthesize both {} queue).2.admitted = 3 ∧
        ((queueing.synthesize both {} queue).2.admitted : Int) ≤ 3) ∧
      (t.depths = [2, 2, 1, 0] ∧ ∀ d ∈ t.depths, d ≤ 2) ∧
      t.calls = 2 ∧ (t.calls : Int) ≤ 3 * (1 + 0) ^ 2 * (1 + 1) := by
  have hvalid : queueing.settings.error? = none := by decide +kernel
  have hcall : (queueing.auditedCall both {} queue).2.visits = 4 ∧
      (queueing.auditedCall both {} queue).2.admitted = 3 ∧
      (queueing.auditedCall both {} queue).2.world.tally.depths = [2, 2, 1, 0] ∧
      (queueing.auditedCall both {} queue).2.world.tally.calls = 2 := by decide +kernel
  obtain ⟨t, heq, hmost, hdepths, hbound⟩ := bounded_work queueing hvalid both {} queue
  rw [heq] at hcall
  obtain ⟨hvisits, hadmitted, hvisited, hcalls⟩ := hcall
  exact ⟨hvalid, t, heq, ⟨hvisits, hadmitted, hmost⟩, ⟨hvisited, hdepths⟩, hcalls, hbound⟩

end Engine

end Synthesis
