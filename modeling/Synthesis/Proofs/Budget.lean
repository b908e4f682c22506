import Synthesis.Proofs.Steps
import Synthesis.Settings.Check
import Mathlib.Data.List.Basic

/-!
The budget of a call that solves subproblems one after the other. As long as no visit is refused,
the number of visits is within the bound. The first visit beyond it is refused; that failure is
passed on through every level and is tried again at none, so the call ends with it, and after
the refusal nothing is done but to take note of failed attempts.
-/
namespace Synthesis

namespace Session

variable {ω : Type} {e : Engine ω} {σ σ' : Session ω}

/-- The budget has held out so far. -/
structure Open (e : Engine ω) (σ : Session ω) : Prop where
  visits_le : (σ.visits : Int) ≤ e.settings.maxIterations
  unrefused : Action.refused ∉ σ.actions

/-- One visit was refused, and since then no work was done. -/
structure Spent (e : Engine ω) (σ : Session ω) : Prop where
  visits_eq : (σ.visits : Int) = e.settings.maxIterations + 1
  unwinding : ∃ later earlier, σ.actions = later ++ .refused :: earlier ∧
    (∀ a ∈ later, a.isWork = false) ∧ Action.refused ∉ earlier

/-- Something ended with a failure of this kind, or with none, and it is a failure of the budget
just when the budget is spent. -/
def Settled (e : Engine ω) (σ : Session ω) (kind : Option FailureKind) : Prop :=
  (σ.Open e ∧ kind ≠ some .budgetExceeded) ∨ (σ.Spent e ∧ kind = some .budgetExceeded)

theorem Open.grow (new : List Action) (h : σ.Open e) (hvisits : σ'.visits = σ.visits)
    (hactions : σ'.actions = new ++ σ.actions) (hnew : Action.refused ∉ new) : σ'.Open e := by
  constructor
  · rw [hvisits]
    exact h.visits_le
  · rw [hactions, List.mem_append]
    exact fun hmem => hmem.elim hnew h.unrefused

theorem Open.asked (h : σ.Open e) (hasked : σ.Asked σ') : σ'.Open e := by
  obtain ⟨hvisits, asked, hactions, hasks⟩ := hasked
  exact h.grow asked hvisits hactions (Action.refused_notMem_of_asks hasks)

theorem Open.mark (h : σ.Open e) (a : Action) (ha : a ≠ .refused) : (σ.mark a).Open e :=
  h.grow [a] rfl rfl (by simpa using ha.symm)

theorem Open.note (h : σ.Open e) (s : Specification) (name : String) (success : Bool)
    (iterations : Int) : (σ.note e s name success iterations).Open e :=
  h.grow [.recorded s name success] rfl rfl (by simp)

theorem Spent.grow (new : List Action) (h : σ.Spent e) (hvisits : σ'.visits = σ.visits)
    (hactions : σ'.actions = new ++ σ.actions) (hnew : ∀ a ∈ new, a.isWork = false) :
    σ'.Spent e := by
  obtain ⟨later, earlier, heq, hlater, hearlier⟩ := h.unwinding
  constructor
  · rw [hvisits]
    exact h.visits_eq
  · refine ⟨new ++ later, earlier, ?_, ?_, hearlier⟩
    · rw [hactions, heq, List.append_assoc]
    · intro a hmem
      rcases List.mem_append.mp hmem with hmem | hmem
      · exact hnew a hmem
      · exact hlater a hmem

/-- There is only one refusal, so nothing after a refusal was work. -/
theorem Spent.idle (h : σ.Spent e) {later earlier : List Action}
    (hactions : σ.actions = later ++ .refused :: earlier) : ∀ a ∈ later, a.isWork = false := by
  obtain ⟨later', earlier', heq, hlater', hearlier'⟩ := h.unwinding
  have hnot := Action.refused_notMem_of_idle hlater'
  have hsame := (List.append_cons_inj_of_notMem hnot hearlier').mp (heq.symm.trans hactions)
  rw [← hsame.1]
  exact hlater'

/-- Taking note of failures keeps a session settled. -/
theorem Settled.grow (new : List Action) {kind : Option FailureKind} (h : σ.Settled e kind)
    (hvisits : σ'.visits = σ.visits) (hactions : σ'.actions = new ++ σ.actions)
    (hnew : ∀ a ∈ new, a.isWork = false) : σ'.Settled e kind := by
  rcases h with ⟨hopen, hkind⟩ | ⟨hspent, hkind⟩
  · have hnot := Action.refused_notMem_of_idle hnew
    exact Or.inl ⟨hopen.grow new hvisits hactions hnot, hkind⟩
  · exact Or.inr ⟨hspent.grow new hvisits hactions hnew, hkind⟩

theorem Settled.open_of_ne {kind : Option FailureKind} (h : σ.Settled e kind)
    (hkind : kind ≠ some .budgetExceeded) : σ.Open e := by
  rcases h with ⟨hopen, _⟩ | ⟨_, hbudget⟩
  · exact hopen
  · exact absurd hbudget hkind

end Session

namespace Engine

open Session

variable {ω : Type} {e : Engine ω}

/-- From an open session, the solver leads to a settled one. -/
def KeepsBudget (e : Engine ω) (solve : Solver ω) : Prop :=
  ∀ s c σ, σ.Open e → (solve s c σ).2.Settled e (kindOf (solve s c σ).1.outcome)

theorem solveInOrder_settled {solve : Solver ω} (hsolve : e.KeepsBudget solve)
    (subs : List Subproblem) (order : List Nat) (c : Context) (children : Children)
    (σ : Session ω) (hnone : children.failures = []) (hopen : σ.Open e) :
    (solveInOrder solve subs order c children σ).2.Settled e
      ((solveInOrder solve subs order c children σ).1.failure.map Failure.kind) := by
  induction order generalizing c children σ with
  | nil =>
    refine Or.inl ⟨hopen, ?_⟩
    simp [solveInOrder, Children.failure, hnone]
  | cons i rest ih =>
    cases hsub : subs[i]? with
    | none =>
      rw [solveInOrder_none rest c children hsub]
      refine Or.inl ⟨hopen, ?_⟩
      simp [Children.failure, hnone]
    | some p =>
      have hchild := hsolve p.specification c σ hopen
      rcases hr : solve p.specification c σ with ⟨r, σ₁⟩
      rw [hr] at hchild
      cases hout : r.outcome with
      | error f =>
        rw [solveInOrder_error rest c children hsub hr hout]
        have hfailure : (children.enter i r).failure = some f := by
          simp [Children.failure, Children.enter, hnone, Result.failure?, hout]
        simpa [hfailure, kindOf, hout] using hchild
      | ok a =>
        rw [solveInOrder_ok rest c children hsub hr hout]
        have hentered : (children.enter i r).failures = [] := by
          simp [Children.enter, hnone, Result.failure?, hout]
        have hopen₁ : σ₁.Open e := hchild.open_of_ne (by simp [hout, kindOf])
        exact ih _ _ _ hentered hopen₁

theorem leafAttempt_settled (depth : Int) (s : Specification) (c : Context) (σ : Session ω)
    (hopen : σ.Open e) :
    (e.leafAttempt depth s c σ).2.Settled e (kindOf (e.leafAttempt depth s c σ).1.outcome) := by
  have hasked := leaf_asked e depth s c σ
  have hkind := leaf_kind e depth s c σ
  exact Or.inl ⟨hopen.asked hasked, hkind⟩

theorem splitAttempt_settled (hseq : e.settings.parallelSubproblems = false)
    {solve : Solver ω} (hsolve : e.KeepsBudget solve) (s : Specification) (c : Context)
    (subs : List Subproblem) (σ : Session ω) (hopen : σ.Open e) :
    (e.splitAttempt solve s c subs σ).2.Settled e
      (kindOf (e.splitAttempt solve s c subs σ).1.outcome) := by
  have hchildren := solveInOrder_settled hsolve subs (Decomposition.executionOrder subs) c
    (.start subs) σ rfl hopen
  unfold splitAttempt solveChildren
  rw [hseq]
  dsimp only [Bool.false_eq_true, if_false]
  rcases hr : solveInOrder solve subs (Decomposition.executionOrder subs) c (.start subs) σ
    with ⟨children, σ₁⟩
  rw [hr] at hchildren
  have hmarked : (σ₁.mark (.gathered children.failures)).Settled e
      (children.failure.map Failure.kind) :=
    hchildren.grow [.gathered children.failures] rfl rfl (by simp [Action.isWork])
  -- The composition fails for the budget just when the children do.
  have hkind := composeParts_kind s subs children
  rcases hmarked with ⟨hopen', hne⟩ | ⟨hspent, heq⟩
  · exact Or.inl ⟨hopen', fun h => hne (hkind.mp h)⟩
  · exact Or.inr ⟨hspent, hkind.mpr heq⟩

theorem attempt_settled (hseq : e.settings.parallelSubproblems = false)
    {below : Option (Solver ω)} (hbelow : ∀ solve ∈ below, e.KeepsBudget solve) (depth : Int)
    (s : Specification) (c : Context) (strategy : Strategy) (σ : Session ω)
    (hopen : σ.Open e) :
    (e.attempt below depth s c strategy σ).2.Settled e
      (kindOf (e.attempt below depth s c strategy σ).1.outcome) := by
  have hmarked := hopen.mark (.decomposed s strategy.name) (by simp)
  unfold attempt
  cases below with
  | none => exact leafAttempt_settled depth s c _ hmarked
  | some solve =>
    have hkind := decompose_kind s c strategy
    dsimp only
    cases hsubs : decompose s c strategy with
    | error f =>
      rw [hsubs] at hkind
      exact Or.inl ⟨hmarked, hkind⟩
    | ok subs =>
      cases subs with
      | nil => exact leafAttempt_settled depth s c _ hmarked
      | cons p rest =>
        exact splitAttempt_settled hseq (hbelow solve rfl) s c (p :: rest) _ hmarked

theorem attempts_settled (hseq : e.settings.parallelSubproblems = false)
    {below : Option (Solver ω)} (hbelow : ∀ solve ∈ below, e.KeepsBudget solve) (depth : Int)
    (s : Specification) (c : Context) (retries : Nat) (tried : List String) (m : Match)
    (iterations : Int) (phases : List Phase) (σ : Session ω) (hopen : σ.Open e) :
    (e.attempts below depth s c retries tried m iterations phases σ).2.Settled e
      (kindOf (e.attempts below depth s c retries tried m iterations phases σ).1.outcome) := by
  induction retries using Nat.strongRecOn generalizing tried m iterations phases σ with
  | ind retries ih =>
    have hattempt := attempt_settled hseq hbelow depth s c m.strategy σ hopen
    rcases ha : e.attempt below depth s c m.strategy σ with ⟨a, σ₁⟩
    rw [ha] at hattempt
    have hcontinues := attempts_continues e below depth s c retries tried m iterations phases σ ha
    generalize e.attempts below depth s c retries tried m iterations phases σ = out
      at hcontinues ⊢
    cases hcontinues with
    | solved artifact hout =>
      have hopen₁ : σ₁.Open e := hattempt.open_of_ne (by simp [hout, kindOf])
      have hremembered : (σ₁.remember e s c artifact).Open e :=
        hopen₁.grow [] rfl rfl (by simp)
      exact Or.inl ⟨hremembered.note s m.name true _, kindOf_ok_ne artifact _⟩
    | ended f hout hend =>
      rw [hout] at hattempt
      exact hattempt.grow [.recorded s m.name false] rfl rfl (by simp [Action.isWork])
    | exhausted f hout hretry hnext =>
      have hkind := kindOf_ne_of_isRetryable hout hretry
      have hopen₁ := hattempt.open_of_ne hkind
      rw [hout] at hkind
      exact Or.inl ⟨(hopen₁.note s m.name false _).mark _ (by simp), hkind⟩
    | retried f n next hout hretries hstop hretry hnext =>
      have hkind := kindOf_ne_of_isRetryable hout hretry
      have hopen₁ := hattempt.open_of_ne hkind
      exact ih n (by omega) _ _ _ _ _ ((hopen₁.note s m.name false _).mark _ (by simp))

theorem visit_keepsBudget (hseq : e.settings.parallelSubproblems = false)
    {below : Option (Solver ω)} (hbelow : ∀ solve ∈ below, e.KeepsBudget solve) (depth : Int) :
    e.KeepsBudget (e.visit below depth) := by
  intro s c σ hopen
  have hvisits := visit_visits e below depth s c σ
  generalize e.visit below depth s c σ = out at hvisits ⊢
  -- What a visit does before its attempts leaves the budget open once the visit is admitted.
  have hadmitted (hwithin : σ.visits + 1 ≤ e.settings.maxIterations) :
      ((σ.enter (.admitted depth)).retrieve e s c).2.Open e := by
    constructor
    · simpa [Session.enter] using hwithin
    · simpa [Session.enter] using hopen.unrefused
  cases hvisits with
  | turnedAway why hstopped =>
    exact Or.inl ⟨hopen.mark .turnedAway (by simp), fun h => by cases h⟩
  | refused hstopped hover =>
    refine Or.inr ⟨⟨?_, [], σ.actions, rfl, by simp, hopen.unrefused⟩, rfl⟩
    have hle := hopen.visits_le
    simp only [Session.enter, mark_visits]
    omega
  | remembered hstopped hwithin artifact hretrieve =>
    exact Or.inl ⟨hadmitted hwithin, kindOf_ok_ne artifact _⟩
  | unrouted hstopped hwithin hretrieve f hchoose =>
    have hkind := choose_kind e s c ((σ.enter (.admitted depth)).retrieve e s c).2
    rw [hchoose] at hkind
    exact Or.inl ⟨(hadmitted hwithin).grow [.ranked s] rfl rfl (by simp), hkind⟩
  | routed hstopped hwithin hretrieve m hchoose =>
    exact attempts_settled hseq hbelow depth s c _ _ m _ _ _
      ((hadmitted hwithin).grow [.ranked s] rfl rfl (by simp))

theorem solve_keepsBudget (hseq : e.settings.parallelSubproblems = false) (n : Nat)
    (depth : Int) :
    e.KeepsBudget (e.solve n depth) :=
  solve_induction (fun depth hbelow => visit_keepsBudget hseq hbelow depth) n depth

/-- One visit beyond the bound is counted at most, just when the call fails for its budget; once
that visit is refused, no visit is started, no strategy is ranked or splits anything, and no
collaborator is asked. -/
theorem sequential_budget (e : Engine ω) (hvalid : e.settings.error? = none)
    (hseq : e.settings.parallelSubproblems = false) (s : Specification) (c : Context)
    (session : Session ω) :
    (e.synthesize s c session).1.iterations ≤ e.settings.maxIterations + 1 ∧
      ((e.synthesize s c session).1.iterations = e.settings.maxIterations + 1 ↔
        ∃ f, (e.synthesize s c session).1.outcome = .error f ∧ f.kind = .budgetExceeded) ∧
      (Action.refused ∈ (e.synthesize s c session).2.actions ↔
        (e.synthesize s c session).1.iterations = e.settings.maxIterations + 1) ∧
      ∀ later earlier, (e.synthesize s c session).2.actions = later ++ .refused :: earlier →
        ∀ a ∈ later, a.isWork = false := by
  have hmax := Settings.one_le_maxIterations hvalid
  have hopen : ({ session with visits := 0, actions := [] } : Session ω).Open e :=
    ⟨by dsimp only; omega, by simp⟩
  have hsettled := solve_keepsBudget hseq e.settings.maxDepth.toNat 0 s c _ hopen
  unfold synthesize
  rcases hr : e.solve e.settings.maxDepth.toNat 0 s c { session with visits := 0, actions := [] }
    with ⟨r, σ⟩
  rw [hr] at hsettled
  dsimp only at hsettled ⊢
  rw [← kindOf_eq_some]
  rcases hsettled with ⟨hopen', hne⟩ | ⟨hspent, heq⟩
  · have hle := hopen'.visits_le
    refine ⟨by omega, ?_, ?_, ?_⟩
    · exact iff_of_false (by omega) hne
    · exact iff_of_false hopen'.unrefused (by omega)
    · intro later earlier hactions
      have hmem : Action.refused ∈ σ.actions := by simp [hactions]
      exact absurd hmem hopen'.unrefused
  · obtain ⟨later, earlier, hactions, _⟩ := hspent.unwinding
    refine ⟨Int.le_of_eq hspent.visits_eq, iff_of_true hspent.visits_eq heq, ?_, ?_⟩
    · exact iff_of_true (by simp [hactions]) hspent.visits_eq
    · intro later earlier hactions
      exact hspent.idle hactions

/-- Two subproblems that have nothing to do with each other. -/
def halves : List Subproblem :=
  [{ specification := { description := "left" } }, { specification := { description := "right" } }]

def intoHalves : Strategy where
  metadata := { name := "halves", description := "", keywords := [] }
  canHandle _ _ := true
  decompose _ _ := .ok halves
  estimate _ _ := 1

/-- An engine that splits everything into two halves and is not able to solve the left one. -/
def halving (settings : Settings) : Engine Unit where
  settings := settings
  router := .new ⟨[intoHalves]⟩ settings.history.queryLimit .inOrder
  collaborators :=
    { generator := fun s _ _ =>
        if s.description = "left" then Request.fail (.plain "no idea")
        else Request.answer { success := true, code := "done" } }
  clock := fun _ => 0

def freshSession (settings : Settings) : Session Unit where
  solutions := settings.newSolutions
  strategies := settings.newStrategies
  results := settings.newExecutions
  experience := .new settings.maxHistory
  world := ()

def both : Specification := { description := "both" }

/-- With a single visit allowed, the visit of the first half is refused. -/
theorem sequential_budget_halving :
    ({ maxIterations := 1 } : Settings).error? = none ∧
      ∃ f, ((halving { maxIterations := 1 }).synthesize both {} (freshSession {})).1.outcome =
        .error f ∧ f.kind = .budgetExceeded := by
  have hvalid : ({ maxIterations := 1 } : Settings).error? = none := by decide +kernel
  have hiterations : ((halving { maxIterations := 1 }).synthesize both {}
      (freshSession {})).1.iterations = 2 := by decide +kernel
  have hbudget := sequential_budget (halving { maxIterations := 1 }) hvalid rfl both {}
    (freshSession {})
  exact ⟨hvalid, hbudget.2.1.mp hiterations⟩

end Engine

end Synthesis
