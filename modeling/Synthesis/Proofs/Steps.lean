import Synthesis.Proofs.Actions
import Synthesis.Proofs.Schedule

/-!
One step of each recursion of the engine: what solving the next subproblem or the next wave comes
to, and all the ways in which an attempt and a visit can go on. Solving one after the other is
solving in waves of one, so that later proofs need to look at waves only. They take the cases
from here and do not open the definitions again.
-/
namespace Synthesis.Engine

open Decomposition

variable {ω : Type} {solve : Solver ω} {subs : List Subproblem} {i : Nat} {p : Subproblem}
  {r : Result} {σ σ₁ : Session ω}

theorem solveInOrder_none (rest : List Nat) (c : Context) (children : Children)
    (hsub : subs[i]? = none) :
    solveInOrder solve subs (i :: rest) c children σ = (children, σ) := by
  simp only [solveInOrder, hsub]

theorem solveInOrder_error {f : Failure} (rest : List Nat) (c : Context) (children : Children)
    (hsub : subs[i]? = some p) (hr : solve p.specification c σ = (r, σ₁))
    (hout : r.outcome = .error f) :
    solveInOrder solve subs (i :: rest) c children σ = (children.enter i r, σ₁) := by
  simp only [solveInOrder, hsub, hr, hout]

theorem solveInOrder_ok {a : Artifact} (rest : List Nat) (c : Context) (children : Children)
    (hsub : subs[i]? = some p) (hr : solve p.specification c σ = (r, σ₁))
    (hout : r.outcome = .ok a) :
    solveInOrder solve subs (i :: rest) c children σ =
      solveInOrder solve subs rest (c.withSolved p.specification.description a)
        (children.enter i r) σ₁ := by
  simp only [solveInOrder, hsub, hr, hout]

theorem solveWave_none (rest : List Nat) (c : Context) (hsub : subs[i]? = none) :
    solveWave solve subs c (i :: rest) σ = solveWave solve subs c rest σ := by
  simp only [solveWave, hsub]

theorem solveWave_some (rest : List Nat) (c : Context) (hsub : subs[i]? = some p)
    (hr : solve p.specification c σ = (r, σ₁)) :
    solveWave solve subs c (i :: rest) σ =
      ((i, r) :: (solveWave solve subs c rest σ₁).1, (solveWave solve subs c rest σ₁).2) := by
  simp only [solveWave, hsub, hr]

theorem enterAll_failures (children : Children) (results : List (Nat × Result)) :
    (children.enterAll results).failures =
      children.failures ++ results.filterMap (·.2.failure?) := by
  unfold Children.enterAll
  induction results generalizing children with
  | nil => simp
  | cons x rest ih =>
    rw [List.foldl_cons, ih]
    cases h : x.2.failure? with
    | none => simp [Children.enter, h]
    | some f => simp [Children.enter, h]

theorem solveWaves_failed {f : Failure} {wave : List Nat} {results : List (Nat × Result)}
    (rest : List (List Nat)) (c : Context) (children : Children)
    (hr : solveWave solve subs c wave σ = (results, σ₁))
    (hfailure : (children.enterAll (inIndexOrder results)).failure = some f) :
    solveWaves solve subs (wave :: rest) c children σ =
      (children.enterAll (inIndexOrder results), σ₁) := by
  simp only [solveWaves, hr, hfailure]

theorem solveWaves_passed {wave : List Nat} {results : List (Nat × Result)}
    (rest : List (List Nat)) (c : Context) (children : Children)
    (hr : solveWave solve subs c wave σ = (results, σ₁))
    (hfailure : (children.enterAll (inIndexOrder results)).failure = none) :
    solveWaves solve subs (wave :: rest) c children σ =
      solveWaves solve subs rest
        (c.withSolvedAll (solvedEntries subs (inIndexOrder results)))
        (children.enterAll (inIndexOrder results)) σ₁ := by
  simp only [solveWaves, hr, hfailure]

/-- One after the other is in waves of one. -/
theorem solveInOrder_eq_solveWaves (solve : Solver ω) {subs : List Subproblem} {order : List Nat}
    (hall : ∀ i ∈ order, ∃ p, subs[i]? = some p) (c : Context) {children : Children}
    (hnone : children.failures = []) (σ : Session ω) :
    solveInOrder solve subs order c children σ =
      solveWaves solve subs (oneByOne order) c children σ := by
  induction order generalizing c children σ with
  | nil => rfl
  | cons i rest ih =>
    obtain ⟨p, hp⟩ := hall i List.mem_cons_self
    rcases hr : solve p.specification c σ with ⟨r, σ₁⟩
    have hwave : solveWave solve subs c [i] σ = ([(i, r)], σ₁) := by
      rw [solveWave_some [] c hp hr]
      rfl
    have hsorted : inIndexOrder [(i, r)] = [(i, r)] := List.mergeSort_singleton _
    have hschedule : oneByOne (i :: rest) = [i] :: oneByOne rest := rfl
    have hfailures : (children.enter i r).failures = r.failure?.toList := by
      rw [Children.enter, hnone, List.nil_append]
    rw [hschedule]
    cases hout : r.outcome with
    | error f =>
      have hfailure : (children.enterAll (inIndexOrder [(i, r)])).failure = some f := by
        rw [hsorted]
        change (children.enter i r).failures.head? = some f
        simp [hfailures, Result.failure?, hout]
      rw [solveInOrder_error rest c children hp hr hout,
        solveWaves_failed _ c children hwave hfailure, hsorted]
      rfl
    | ok a =>
      have hempty : (children.enter i r).failures = [] := by
        simp [hfailures, Result.failure?, hout]
      have hfailure : (children.enterAll (inIndexOrder [(i, r)])).failure = none := by
        rw [hsorted]
        exact List.head?_eq_none_iff.mpr hempty
      have hentries : solvedEntries subs [(i, r)] = [(p.specification.description, a)] := by
        simp [solvedEntries, hp, Result.solution?, hout]
      rw [solveInOrder_ok rest c children hp hr hout,
        solveWaves_passed _ c children hwave hfailure, hsorted, hentries]
      exact ih (fun j hj => hall j (List.mem_cons_of_mem i hj)) _ hempty σ₁

/-- The groups in which the engine starts subproblems. -/
def schedule (e : Engine ω) (subs : List Subproblem) : List (List Nat) :=
  if e.settings.parallelSubproblems then waves subs else oneByOne (executionOrder subs)

theorem solveChildren_eq_solveWaves (e : Engine ω) (solve : Solver ω) (subs : List Subproblem)
    (c : Context) (σ : Session ω) :
    e.solveChildren solve subs c σ =
      solveWaves solve subs (e.schedule subs) c (.start subs) σ := by
  unfold solveChildren schedule
  split
  · rfl
  · refine solveInOrder_eq_solveWaves solve ?_ c rfl σ
    intro i hi
    have hgroup : [i] ∈ oneByOne (executionOrder subs) := List.mem_map_of_mem hi
    exact (executionOrder_respects subs).of_mem hgroup i List.mem_cons_self

section

variable (e : Engine ω) (below : Option (Solver ω)) (depth : Int) (s : Specification)
  (c : Context)

/-- How attempts go on once the first of them has come to its end. -/
inductive Continues (retries : Nat) (tried : List String) (m : Match) (iterations : Int)
    (phases : List Phase) (a : Attempt) (σ₁ : Session ω) : Result × Session ω → Prop
  | solved (artifact : Artifact) (hout : a.outcome = .ok artifact) :
      Continues retries tried m iterations phases a σ₁
        (late m depth (a.passed phases ++ [.done]) (.solved artifact (iterations + a.iterations)),
          (σ₁.remember e s c artifact).note e s m.name true (iterations + a.iterations))
  | ended (f : Failure) (hout : a.outcome = .error f)
      (hend : retries = 0 ∨ e.settings.stopOnFirstValid = true ∨ f.kind.isRetryable = false ∨
        σ₁.stopped.isSome = true) :
      Continues retries tried m iterations phases a σ₁
        (late m depth (a.passed phases ++ [.failed]) (.failed f (iterations + a.iterations)),
          σ₁.note e s m.name false (iterations + a.iterations))
  | exhausted (f : Failure) (hout : a.outcome = .error f) (hretry : f.kind.isRetryable = true)
      (hnext : e.nextStrategy? s c tried
        ((σ₁.note e s m.name false (iterations + a.iterations)).mark (.ranked s)) = none) :
      Continues retries tried m iterations phases a σ₁
        (late m depth (a.passed phases ++ [.failed]) (.failed f (iterations + a.iterations)),
          (σ₁.note e s m.name false (iterations + a.iterations)).mark (.ranked s))
  | retried (f : Failure) (n : Nat) (next : Match) (hout : a.outcome = .error f)
      (hretries : retries = n + 1) (hstop : e.settings.stopOnFirstValid = false)
      (hretry : f.kind.isRetryable = true)
      (hnext : e.nextStrategy? s c tried
        ((σ₁.note e s m.name false (iterations + a.iterations)).mark (.ranked s)) = some next) :
      Continues retries tried m iterations phases a σ₁
        (e.attempts below depth s c n (tried ++ [next.name]) next (iterations + a.iterations)
          (a.passed phases ++ [.route])
          ((σ₁.note e s m.name false (iterations + a.iterations)).mark (.ranked s)))

theorem attempts_continues (retries : Nat) (tried : List String) (m : Match) (iterations : Int)
    (phases : List Phase) (σ : Session ω) {a : Attempt} {σ₁ : Session ω}
    (ha : e.attempt below depth s c m.strategy σ = (a, σ₁)) :
    Continues e below depth s c retries tried m iterations phases a σ₁
      (e.attempts below depth s c retries tried m iterations phases σ) := by
  unfold attempts
  rw [ha]
  dsimp only
  cases hout : a.outcome with
  | ok artifact => exact .solved artifact hout
  | error f =>
    cases retries with
    | zero => exact .ended f hout (Or.inl rfl)
    | succ n =>
      dsimp only
      split
      · rename_i hend
        refine .ended f hout (Or.inr ?_)
        simpa [or_assoc] using hend
      · rename_i hend
        simp only [Bool.or_eq_true, not_or, Bool.not_eq_true, Bool.not_eq_false'] at hend
        obtain ⟨⟨hstop, hretry⟩, _⟩ := hend
        split
        · rename_i hnext
          exact .exhausted f hout hretry hnext
        · rename_i next hnext
          exact .retried f n next hout rfl hstop hretry hnext

/-- What becomes of a visit. -/
inductive Visits (σ : Session ω) : Result × Session ω → Prop
  | turnedAway (why : Interruption) (hstopped : σ.stopped = some why) :
      Visits σ (early depth [.start, .failed] (.failed (.interrupted why) 0), σ.mark .turnedAway)
  | refused (hstopped : σ.stopped = none) (hover : e.settings.maxIterations < σ.visits + 1) :
      Visits σ (early depth [.start, .failed] (.failed e.overBudget 1), σ.enter .refused)
  | remembered (hstopped : σ.stopped = none) (hwithin : σ.visits + 1 ≤ e.settings.maxIterations)
      (artifact : Artifact)
      (hretrieve : ((σ.enter (.admitted depth)).retrieve e s c).1 = some artifact) :
      Visits σ (early depth [.start, .cacheCheck, .cached, .done]
        { Result.solved artifact 1 with cached := true },
        ((σ.enter (.admitted depth)).retrieve e s c).2)
  | unrouted (hstopped : σ.stopped = none) (hwithin : σ.visits + 1 ≤ e.settings.maxIterations)
      (hretrieve : ((σ.enter (.admitted depth)).retrieve e s c).1 = none) (f : Failure)
      (hchoose : (((σ.enter (.admitted depth)).retrieve e s c).2.choose e s c).1 = .error f) :
      Visits σ (early depth [.start, .cacheCheck, .route, .failed] (.failed f 1),
        (((σ.enter (.admitted depth)).retrieve e s c).2.choose e s c).2)
  | routed (hstopped : σ.stopped = none) (hwithin : σ.visits + 1 ≤ e.settings.maxIterations)
      (hretrieve : ((σ.enter (.admitted depth)).retrieve e s c).1 = none) (m : Match)
      (hchoose : (((σ.enter (.admitted depth)).retrieve e s c).2.choose e s c).1 = .ok m) :
      Visits σ (e.attempts below depth s c e.settings.maxValidationRetries.toNat [m.name] m 1
        [.start, .cacheCheck, .route]
        (((σ.enter (.admitted depth)).retrieve e s c).2.choose e s c).2)

theorem visit_visits (σ : Session ω) :
    Visits e below depth s c σ (e.visit below depth s c σ) := by
  unfold visit
  split
  · rename_i why hstopped
    exact .turnedAway why hstopped
  · rename_i hstopped
    split
    · rename_i hover
      exact .refused hstopped hover
    · rename_i hover
      have hwithin : σ.visits + 1 ≤ e.settings.maxIterations := by omega
      dsimp only
      split
      · rename_i artifact hretrieve
        exact .remembered hstopped hwithin artifact hretrieve
      · rename_i hretrieve
        split
        · rename_i f hchoose
          exact .unrouted hstopped hwithin hretrieve f hchoose
        · rename_i m hchoose
          exact .routed hstopped hwithin hretrieve m hchoose

end

/-- What solves the subproblems of a visit with so many levels below it. -/
def solverBelow (e : Engine ω) : Nat → Int → Option (Solver ω)
  | 0, _ => none
  | n + 1, depth => some (e.solve n (depth + 1))

theorem solve_eq_visit (e : Engine ω) (n : Nat) (depth : Int) :
    e.solve n depth = e.visit (e.solverBelow n depth) depth := by
  cases n with
  | zero => rfl
  | succ n => rfl

/-- What a visit has when the solver below has it, every solver of the engine has. -/
theorem solve_induction {e : Engine ω} {P : Solver ω → Prop}
    (hvisit : ∀ {below : Option (Solver ω)} (depth : Int), (∀ solve ∈ below, P solve) →
      P (e.visit below depth)) (n : Nat) (depth : Int) : P (e.solve n depth) := by
  induction n generalizing depth with
  | zero => exact hvisit depth (by simp)
  | succ n ih =>
    refine hvisit depth ?_
    intro solve hsolve
    cases hsolve
    exact ih (depth + 1)

end Synthesis.Engine
