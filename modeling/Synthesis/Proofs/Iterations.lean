import Synthesis.Proofs.Invariants
import Synthesis.Proofs.Starts

/-!
The iterations of a result. They are counted in two places: the session counts the visits of a
call as they are made, and a result adds one for its own visit to the iterations of the
subproblems it started, over all its attempts and failed ones included. Both counts agree for
every visit, so a call that reports the visits of its session reports what its result says anyway.
-/
namespace Synthesis.Engine

open Decomposition

variable {ω : Type}

/-- The iterations of all the results together. -/
def iterationsOf : List Start → Int
  | [] => 0
  | x :: rest => x.result.iterations + iterationsOf rest

@[simp] theorem iterationsOf_nil : iterationsOf [] = 0 := rfl

theorem iterationsOf_append (xs ys : List Start) :
    iterationsOf (xs ++ ys) = iterationsOf xs + iterationsOf ys := by
  induction xs with
  | nil => simp
  | cons x rest ih => rw [List.cons_append, iterationsOf, ih, iterationsOf, Int.add_assoc]

theorem iterationsOf_perm {xs ys : List Start} (h : xs.Perm ys) :
    iterationsOf xs = iterationsOf ys := by
  induction h with
  | nil => rfl
  | cons x _ ih => rw [iterationsOf, iterationsOf, ih]
  | swap x y rest =>
    simp only [iterationsOf]
    omega
  | trans _ _ ih ih' => exact ih.trans ih'

theorem enterAll_iterations (children : Children) (starts : List Start) :
    (children.enterAll (starts.map fun x => (x.index, x.result))).iterations =
      children.iterations + iterationsOf starts := by
  unfold Children.enterAll
  induction starts generalizing children with
  | nil => simp
  | cons x rest ih =>
    have hentered : (children.enter x.index x.result).iterations =
        children.iterations + x.result.iterations := rfl
    rw [List.map_cons, List.foldl_cons, ih, hentered, iterationsOf, Int.add_assoc]

/-- In whichever order the results of a group are entered, all their iterations are counted. -/
theorem enterGroup_iterations (children : Children) (group : List Start) :
    (children.enterAll (inIndexOrder (group.map fun x => (x.index, x.result)))).iterations =
      children.iterations + iterationsOf group := by
  rw [inIndexOrder_starts, enterAll_iterations, iterationsOf_perm (List.mergeSort_perm group _)]

theorem solveWaves_iterations (solve : Solver ω) {subs : List Subproblem}
    {schedule : List (List Nat)} (hall : ∀ wave ∈ schedule, ∀ i ∈ wave, ∃ p, subs[i]? = some p)
    (c : Context) (children : Children) (σ : Session ω) :
    ∃ starts, Runs solve subs σ starts (solveWaves solve subs schedule c children σ).2 ∧
      (solveWaves solve subs schedule c children σ).1.iterations =
        children.iterations + iterationsOf starts := by
  induction schedule generalizing c children σ with
  | nil => exact ⟨[], .nil σ, by simp [solveWaves]⟩
  | cons wave rest ih =>
    obtain ⟨group, hruns, hresults, _, _⟩ :=
      solveWave_runs solve c (hall wave List.mem_cons_self) σ
    rcases hr : solveWave solve subs c wave σ with ⟨results, σ₁⟩
    rw [hr] at hruns hresults
    dsimp only at hruns hresults
    subst hresults
    have hentered := enterGroup_iterations children group
    cases hfailure : (children.enterAll
        (inIndexOrder (group.map fun x => (x.index, x.result)))).failure with
    | some f =>
      rw [solveWaves_failed rest c children hr hfailure]
      exact ⟨group, hruns, hentered⟩
    | none =>
      rw [solveWaves_passed rest c children hr hfailure]
      obtain ⟨starts, hlater, htotal⟩ :=
        ih (fun w hw => hall w (List.mem_cons_of_mem wave hw)) _ _ σ₁
      refine ⟨group ++ starts, hruns.append hlater, ?_⟩
      rw [htotal, hentered, iterationsOf_append]
      omega

theorem fault?_of_decompose {s : Specification} {c : Context} {strategy : Strategy}
    {subs : List Subproblem} (h : decompose s c strategy = .ok subs) : fault? subs = none := by
  unfold decompose at h
  split at h
  · cases h
    rfl
  · split at h
    · cases h
    · split at h
      · cases h
      · rename_i hvalid
        cases h
        exact hvalid

section

variable (e : Engine ω) (below : Option (Solver ω)) (depth : Int) (s : Specification)
  (c : Context)

/-- What an attempt by a strategy starts: the subproblems of a decomposition, as far as it comes,
or nothing at all, and then there are no visits either. -/
inductive Tried (strategy : Strategy) (σ : Session ω) : List Start → Session ω → Prop
  | whole (σ₁ : Session ω) (hvisits : σ₁.visits = σ.visits) : Tried strategy σ [] σ₁
  | split {solve : Solver ω} {subs : List Subproblem} {starts : List Start} {σ₁ : Session ω}
      (hsolve : solve ∈ below) (hsubs : decompose s c strategy = .ok subs)
      (hruns : Runs solve subs (σ.mark (.decomposed s strategy.name)) starts σ₁)
      (failures : List Failure) : Tried strategy σ starts (σ₁.mark (.gathered failures))

theorem attempt_tried (strategy : Strategy) (σ : Session ω) :
    ∃ starts, Tried below s c strategy σ starts (e.attempt below depth s c strategy σ).2 ∧
      (e.attempt below depth s c strategy σ).1.iterations = iterationsOf starts := by
  have hgoes := attempt_goes e below depth s c strategy σ
  generalize e.attempt below depth s c strategy σ = out at hgoes ⊢
  cases hgoes with
  | leaf =>
    have hasked := leaf_asked e depth s c (σ.mark (.decomposed s strategy.name))
    exact ⟨[], .whole _ hasked.1, rfl⟩
  | broken f hsplit => exact ⟨[], .whole _ rfl, rfl⟩
  | split solve subs hsolve hsplit hsome =>
    have hrespects := e.schedule_respects (fault?_of_decompose hsplit)
    obtain ⟨starts, hruns, htotal⟩ := solveWaves_iterations solve
      (fun _ hwave => hrespects.of_mem hwave) c (.start subs)
      (σ.mark (.decomposed s strategy.name))
    rw [← solveChildren_eq_solveWaves] at hruns htotal
    refine ⟨starts, .split hsolve hsplit hruns _, ?_⟩
    exact htotal.trans (Int.zero_add _)

/-- What the attempts of a visit start, attempt by attempt. After each but the last, its failure
is recorded and the strategies are ranked again. -/
inductive Tries : Session ω → List (List Start) → Session ω → Prop
  | last {m : Match} {σ σ₁ : Session ω} {starts : List Start}
      (hattempt : (e.attempt below depth s c m.strategy σ).2 = σ₁)
      (hstarts : Tried below s c m.strategy σ starts σ₁) (σ₂ : Session ω)
      (hvisits : σ₂.visits = σ₁.visits) : Tries σ [starts] σ₂
  | more {m : Match} {σ σ₁ σ₂ : Session ω} {starts : List Start} {rest : List (List Start)}
      (hattempt : (e.attempt below depth s c m.strategy σ).2 = σ₁)
      (hstarts : Tried below s c m.strategy σ starts σ₁) (iterations : Int)
      (hrest : Tries ((σ₁.note e s m.name false iterations).mark (.ranked s)) rest σ₂) :
      Tries σ (starts :: rest) σ₂

theorem attempts_tries (retries : Nat) (tried : List String) (m : Match) (iterations : Int)
    (phases : List Phase) (σ : Session ω) :
    ∃ tries, Tries e below depth s c σ tries
        (e.attempts below depth s c retries tried m iterations phases σ).2 ∧
      (e.attempts below depth s c retries tried m iterations phases σ).1.iterations =
        iterations + iterationsOf tries.flatten := by
  induction retries using Nat.strongRecOn generalizing tried m iterations phases σ with
  | ind retries ih =>
    obtain ⟨starts, hstarts, htotal⟩ := attempt_tried e below depth s c m.strategy σ
    rcases ha : e.attempt below depth s c m.strategy σ with ⟨a, σ₁⟩
    rw [ha] at hstarts htotal
    dsimp only at hstarts htotal
    have hattempt : (e.attempt below depth s c m.strategy σ).2 = σ₁ := by rw [ha]
    have hcount : iterations + a.iterations = iterations + iterationsOf [starts].flatten := by
      simp [htotal]
    have hcontinues := attempts_continues e below depth s c retries tried m iterations phases σ ha
    generalize e.attempts below depth s c retries tried m iterations phases σ = out
      at hcontinues ⊢
    cases hcontinues with
    | solved artifact hout => exact ⟨[starts], .last hattempt hstarts _ rfl, hcount⟩
    | ended f hout hend => exact ⟨[starts], .last hattempt hstarts _ rfl, hcount⟩
    | exhausted f hout hretry hnext => exact ⟨[starts], .last hattempt hstarts _ rfl, hcount⟩
    | retried f n next hout hretries hstop hretry hnext =>
      obtain ⟨rest, hrest, hlater⟩ := ih n (by omega) (tried ++ [next.name]) next
        (iterations + a.iterations) (a.passed phases ++ [.route])
        ((σ₁.note e s m.name false (iterations + a.iterations)).mark (.ranked s))
      refine ⟨starts :: rest, .more hattempt hstarts _ hrest, ?_⟩
      rw [hlater, htotal, List.flatten_cons, iterationsOf_append]
      omega

/-- How the iterations of a visit come about. -/
inductive Accounts (σ : Session ω) (out : Result × Session ω) : Prop
  | turnedAway (why : Interruption) (hstopped : σ.stopped = some why)
      (hcount : out.1.iterations = 0) (hvisits : out.2.visits = σ.visits)
  | refused (hstopped : σ.stopped = none) (hover : e.settings.maxIterations < σ.visits + 1)
      (hcount : out.1.iterations = 1) (hvisits : out.2.visits = σ.visits + 1)
  | remembered (hstopped : σ.stopped = none) (hwithin : σ.visits + 1 ≤ e.settings.maxIterations)
      (a : Artifact) (hretrieve : ((σ.enter (.admitted depth)).retrieve e s c).1 = some a)
      (hcount : out.1.iterations = 1) (hvisits : out.2.visits = σ.visits + 1)
  | unrouted (hstopped : σ.stopped = none) (hwithin : σ.visits + 1 ≤ e.settings.maxIterations)
      (hretrieve : ((σ.enter (.admitted depth)).retrieve e s c).1 = none) (f : Failure)
      (hchoose : (((σ.enter (.admitted depth)).retrieve e s c).2.choose e s c).1 = .error f)
      (hcount : out.1.iterations = 1) (hvisits : out.2.visits = σ.visits + 1)
  | attempted (hstopped : σ.stopped = none) (hwithin : σ.visits + 1 ≤ e.settings.maxIterations)
      (hretrieve : ((σ.enter (.admitted depth)).retrieve e s c).1 = none) (m : Match)
      (hchoose : (((σ.enter (.admitted depth)).retrieve e s c).2.choose e s c).1 = .ok m)
      (tries : List (List Start))
      (htries : Tries e below depth s c
        (((σ.enter (.admitted depth)).retrieve e s c).2.choose e s c).2 tries out.2)
      (hcount : out.1.iterations = 1 + iterationsOf tries.flatten)

theorem visit_accounts (σ : Session ω) :
    Accounts e below depth s c σ (e.visit below depth s c σ) := by
  have hvisits := visit_visits e below depth s c σ
  generalize e.visit below depth s c σ = out at hvisits ⊢
  cases hvisits with
  | turnedAway why hstopped => exact .turnedAway why hstopped rfl rfl
  | refused hstopped hover => exact .refused hstopped hover rfl rfl
  | remembered hstopped hwithin a hretrieve =>
    exact .remembered hstopped hwithin a hretrieve rfl rfl
  | unrouted hstopped hwithin hretrieve f hchoose =>
    exact .unrouted hstopped hwithin hretrieve f hchoose rfl rfl
  | routed hstopped hwithin hretrieve m hchoose =>
    obtain ⟨tries, htries, hcount⟩ := attempts_tries e below depth s c
      e.settings.maxValidationRetries.toNat [m.name] m 1 [.start, .cacheCheck, .route]
      (((σ.enter (.admitted depth)).retrieve e s c).2.choose e s c).2
    exact .attempted hstopped hwithin hretrieve m hchoose tries htries hcount

end

/-- The iterations of every result of the solver are the visits made meanwhile. -/
def CountsVisits (solve : Solver ω) : Prop :=
  ∀ s c σ, ((solve s c σ).2.visits : Int) = σ.visits + (solve s c σ).1.iterations

section

variable {e : Engine ω} {below : Option (Solver ω)} {depth : Int} {s : Specification}
  {c : Context} {σ σ₁ : Session ω}

theorem Runs.visits {solve : Solver ω} {subs : List Subproblem} {starts : List Start}
    (h : Runs solve subs σ starts σ₁) (hsolve : CountsVisits solve) :
    (σ₁.visits : Int) = σ.visits + iterationsOf starts := by
  induction h with
  | nil => simp
  | @cons σ σ₁ _ x _ p _ hx _ ih =>
    have hfirst : (σ₁.visits : Int) = σ.visits + x.result.iterations := by
      have h := hsolve p.specification x.context σ
      rw [hx] at h
      exact h
    rw [ih, hfirst, iterationsOf, Int.add_assoc]

theorem Tried.visits {strategy : Strategy} {starts : List Start}
    (h : Tried below s c strategy σ starts σ₁) (hbelow : ∀ solve ∈ below, CountsVisits solve) :
    (σ₁.visits : Int) = σ.visits + iterationsOf starts := by
  cases h with
  | whole _ hvisits => simp [hvisits]
  | split hsolve hsubs hruns failures => exact hruns.visits (hbelow _ hsolve)

theorem Tries.visits {tries : List (List Start)} (h : Tries e below depth s c σ tries σ₁)
    (hbelow : ∀ solve ∈ below, CountsVisits solve) :
    (σ₁.visits : Int) = σ.visits + iterationsOf tries.flatten := by
  induction h with
  | last hattempt hstarts σ₂ hvisits =>
    rw [hvisits, hstarts.visits hbelow]
    simp
  | @more m σ σ₁ σ₂ starts rest hattempt hstarts iterations hrest ih =>
    have hbetween : ((σ₁.note e s m.name false iterations).mark (.ranked s)).visits =
        σ₁.visits := rfl
    rw [ih, hbetween, hstarts.visits hbelow, List.flatten_cons, iterationsOf_append,
      Int.add_assoc]

theorem visit_countsVisits (depth : Int) (hbelow : ∀ solve ∈ below, CountsVisits solve) :
    CountsVisits (e.visit below depth) := by
  intro s c σ
  have haccounts := visit_accounts e below depth s c σ
  generalize e.visit below depth s c σ = out at haccounts ⊢
  cases haccounts with
  | turnedAway why _ hcount hvisits => simp [hcount, hvisits]
  | refused _ _ hcount hvisits => simp [hcount, hvisits]
  | remembered _ _ a _ hcount hvisits => simp [hcount, hvisits]
  | unrouted _ _ _ f _ hcount hvisits => simp [hcount, hvisits]
  | attempted _ _ _ m _ tries htries hcount =>
    have hentered : (((σ.enter (.admitted depth)).retrieve e s c).2.choose e s c).2.visits =
        σ.visits + 1 := rfl
    have hmade := htries.visits hbelow
    rw [hentered] at hmade
    omega

end

/-- The iterations of a result are the visits that the session has counted meanwhile: none if the
visit was turned away, one if it was refused, taken over or came to no strategy, and else one and
those of all subproblems that its attempts started. So what a call reports is its result as it
is. -/
theorem iterations_eq_visits (e : Engine ω) :
    (∀ (n : Nat) (depth : Int) (s : Specification) (c : Context) (σ : Session ω),
      ((e.solve n depth s c σ).2.visits : Int) = σ.visits + (e.solve n depth s c σ).1.iterations ∧
        Accounts e (e.solverBelow n depth) depth s c σ (e.solve n depth s c σ)) ∧
    ∀ (s : Specification) (c : Context) (σ : Session ω), (e.synthesize s c σ).1 =
      (e.solve e.settings.maxDepth.toNat 0 s c { σ with visits := 0, actions := [] }).1 := by
  have hcounts : ∀ n depth, CountsVisits (e.solve n depth) :=
    solve_induction fun depth hbelow => visit_countsVisits depth hbelow
  refine ⟨?_, ?_⟩
  · intro n depth s c σ
    refine ⟨hcounts n depth s c σ, ?_⟩
    rw [solve_eq_visit]
    exact visit_accounts e _ depth s c σ
  · intro s c σ
    have hcount := hcounts e.settings.maxDepth.toNat 0 s c { σ with visits := 0, actions := [] }
    rw [Int.natCast_zero, Int.zero_add] at hcount
    unfold synthesize
    dsimp only
    rw [hcount]

end Synthesis.Engine
