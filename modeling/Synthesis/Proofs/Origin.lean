import Synthesis.Proofs.Invariants
import Synthesis.Proofs.Inspection
import Synthesis.Proofs.Budget

/-!
Where a solution comes from. An engine that never splits anything either solves a specification
itself, and then the solution passes the tests of the specification, or takes over a remembered
solution of an earlier call with the same key. The key says nothing of tests: a solution that is
taken over passes those of the call it comes from, which need not be the ones asked for.
-/
namespace Synthesis.Engine

open Validator

variable {ω : Type}

/-- All tests of candidates inspected so far are among these. -/
def Logged (T : TestCase → String → Prop) (actions : List Action) : Prop :=
  ∀ s a, Action.inspected s a ∈ actions → ∀ t ∈ s.testList, T t a.code

/-- As long as all tests are among these, what is remembered of them is true. -/
def ResultsTrue (runtime : String) (verdict : TestCase → String → Bool)
    (T : TestCase → String → Prop) (σ : Session ω) : Prop :=
  Logged T σ.actions → σ.results.Holds (ResultOf runtime verdict T)

/-- As long as all tests are among these, the artifact passes those of the specification. -/
def Passes (verdict : TestCase → String → Bool) (T : TestCase → String → Prop)
    (s : Specification) (a : Artifact) (σ : Session ω) : Prop :=
  Logged T σ.actions → ∀ t ∈ s.testList, verdict t a.code = true

section

variable {e : Engine ω} {s : Specification} {c : Context} {runner : TestRunner ω}
  {runtime : String} {verdict : TestCase → String → Bool} {T : TestCase → String → Prop}

theorem Logged.mono {actions actions' : List Action} (h : Logged T actions')
    (hsub : actions ⊆ actions') : Logged T actions :=
  fun s a hmem => h s a (hsub hmem)

theorem ResultsTrue.mono {σ σ' : Session ω} (h : ResultsTrue runtime verdict T σ)
    (hresults : σ'.results = σ.results) (hsub : σ.actions ⊆ σ'.actions) :
    ResultsTrue runtime verdict T σ' := by
  intro hlogged
  rw [hresults]
  exact h (hlogged.mono hsub)

theorem Passes.mono {a : Artifact} {σ σ' : Session ω} (h : Passes verdict T s a σ)
    (hsub : σ.actions ⊆ σ'.actions) : Passes verdict T s a σ' :=
  fun hlogged => h (hlogged.mono hsub)

theorem leafKeeps_tests (hsome : e.collaborators.runner = some runner)
    (hrunner : Runner runner verdict) (hapart : KeptApart e.collaborators.runtime verdict T) :
    LeafKeeps e s c (ResultsTrue e.collaborators.runtime verdict T) (Passes verdict T s) := by
  have hinspected : ∀ (a : Artifact) (σ : Session ω), Logged T (σ.inspect e s a).2.actions →
      Logged T σ.actions ∧ ∀ t ∈ s.testList, T t a.code := by
    intro a σ hlogged
    exact ⟨hlogged.mono (List.subset_cons_self _ _), hlogged s a List.mem_cons_self⟩
  constructor
  · intro limit σ h
    unfold Session.findAbstractions
    cases σ.abstractions with
    | none => exact h
    | some library => exact h.mono rfl (List.Subset.refl _)
  · exact fun _ _ h => h.mono rfl (List.subset_cons_self _ _)
  · intro a σ h hlogged
    obtain ⟨hearlier, hs⟩ := hinspected a σ hlogged
    exact (inspect_tests hsome hrunner hapart hs (h hearlier)).1
  · exact fun _ _ _ h => h.mono rfl (List.Subset.refl _)
  · intro a σ report hits h hout hpassed hlogged
    obtain ⟨hearlier, hs⟩ := hinspected a σ hlogged
    exact (inspect_tests hsome hrunner hapart hs (h hearlier)).2 report hout hpassed

/-- What an engine that never splits makes of a visit: a solution is a remembered one, or passes
the tests, and only such a new one is added to the solutions. -/
structure Settles (e : Engine ω) (s : Specification) (c : Context) (runtime : String)
    (verdict : TestCase → String → Bool) (T : TestCase → String → Prop) (σ : Session ω)
    (out : Result × Session ω) : Prop where
  results : ResultsTrue runtime verdict T out.2
  origin : ∀ a, out.1.outcome = .ok a →
    (out.1.cached = true ∧
        (σ.solutions.get (σ.now e) (solutionKey s c.contentKey)).1 = some a) ∨
      (out.1.cached = false ∧ Passes verdict T s a out.2)
  solutions : ∀ P : String → Artifact → Prop, σ.solutions.Holds P →
    (∀ a, out.1.outcome = .ok a → out.1.cached = false → P (solutionKey s c.contentKey) a) →
    out.2.solutions.Holds P

theorem attempt_whole (below : Option (Solver ω)) (depth : Int) (σ : Session ω) :
    e.attempt below depth s c .whole σ =
      e.leafAttempt depth s c (σ.mark (.decomposed s Strategy.whole.name)) := by
  cases below with
  | none => rfl
  | some solve => rfl

/-- A visit without a solution adds none. -/
theorem settles_of_error {σ : Session ω} {out : Result × Session ω} {f : Failure}
    (hout : out.1.outcome = .error f) (hresults : ResultsTrue runtime verdict T out.2)
    (hsolutions : out.2.solutions = σ.solutions ∨
      out.2.solutions = (σ.solutions.get (σ.now e) (solutionKey s c.contentKey)).2) :
    Settles e s c runtime verdict T σ out where
  results := hresults
  origin a ha := by
    rw [hout] at ha
    cases ha
  solutions P hP _ := by
    rcases hsolutions with heq | heq
    · rw [heq]
      exact hP
    · rw [heq]
      exact hP.get _ _

theorem attempts_settles {limit : Int} {walks : Walks}
    (hwhole : e.router = .new ⟨[.whole]⟩ limit walks)
    (hsome : e.collaborators.runner = some runner) (hrunner : Runner runner verdict)
    (hapart : KeptApart e.collaborators.runtime verdict T) (below : Option (Solver ω))
    (depth : Int) (retries : Nat) {m : Match} (hm : m.strategy = .whole) (iterations : Int)
    (phases : List Phase) {σ₀ σ : Session ω}
    (hresults : ResultsTrue e.collaborators.runtime verdict T σ)
    (hsolutions : σ.solutions = (σ₀.solutions.get (σ₀.now e) (solutionKey s c.contentKey)).2) :
    Settles e s c e.collaborators.runtime verdict T σ₀
      (e.attempts below depth s c retries [m.name] m iterations phases σ) := by
  have hrouter : e.router.strategies = e.router.registry.strategies := by rw [hwhole]; rfl
  rcases ha : e.attempt below depth s c m.strategy σ with ⟨a, σ₁⟩
  have hcontinues := attempts_continues e below depth s c retries [m.name] m iterations phases σ ha
  generalize e.attempts below depth s c retries [m.name] m iterations phases σ = out
    at hcontinues ⊢
  rw [hm, attempt_whole] at ha
  cases ha
  -- The attempt is the leaf.
  have hmarked : ResultsTrue e.collaborators.runtime verdict T
      (σ.mark (.decomposed s Strategy.whole.name)) := hresults.mono rfl (List.subset_cons_self _ _)
  obtain ⟨hkept, hpasses⟩ :=
    (leafKeeps_tests (s := s) (c := c) hsome hrunner hapart).leaf depth _ hmarked
  have hsame := (leaf_sameMemory e depth s c (σ.mark (.decomposed s Strategy.whole.name))).solutions
  have hgot := hsame.trans hsolutions
  cases hcontinues with
  | solved artifact hout =>
    refine ⟨hkept.mono rfl (List.subset_cons_self _ _), ?_, ?_⟩
    · intro a' ha'
      cases ha'
      exact Or.inr ⟨rfl, (hpasses artifact hout).mono (List.subset_cons_self _ _)⟩
    · intro P hP hnew
      refine Cache.Holds.set ?_ _ (hnew artifact rfl rfl)
      change (e.leaf depth s c (σ.mark (.decomposed s Strategy.whole.name))).2.solutions.Holds P
      rw [hgot]
      exact hP.get _ _
  | ended f hout hend =>
    exact settles_of_error rfl (hkept.mono rfl (List.subset_cons_self _ _)) (Or.inr hgot)
  | exhausted f hout hretry hnext =>
    refine settles_of_error rfl (hkept.mono rfl ?_) (Or.inr hgot)
    exact List.subset_cons_of_subset _ (List.subset_cons_self _ _)
  | retried f n next hout hretries hstop hretry hnext =>
    -- There is no other strategy.
    obtain ⟨⟨hmem, _⟩, hnew⟩ := of_nextStrategy? hrouter hnext
    rw [hwhole] at hmem
    have hnext' : next.strategy = m.strategy := (List.mem_singleton.mp hmem).trans hm.symm
    exact absurd (List.mem_singleton.mpr (congrArg Strategy.name hnext')) hnew

theorem visit_settles {limit : Int} {walks : Walks}
    (hwhole : e.router = .new ⟨[.whole]⟩ limit walks)
    (hsome : e.collaborators.runner = some runner) (hrunner : Runner runner verdict)
    (hapart : KeptApart e.collaborators.runtime verdict T) (below : Option (Solver ω))
    (depth : Int) {σ : Session ω} (hresults : ResultsTrue e.collaborators.runtime verdict T σ) :
    Settles e s c e.collaborators.runtime verdict T σ (e.visit below depth s c σ) := by
  have hrouter : e.router.strategies = e.router.registry.strategies := by rw [hwhole]; rfl
  have hentered : ResultsTrue e.collaborators.runtime verdict T
      ((σ.enter (.admitted depth)).retrieve e s c).2 :=
    hresults.mono rfl (List.subset_cons_self _ _)
  have hchosen : ResultsTrue e.collaborators.runtime verdict T
      (((σ.enter (.admitted depth)).retrieve e s c).2.choose e s c).2 :=
    hentered.mono rfl (List.subset_cons_self _ _)
  have hvisits := visit_visits e below depth s c σ
  generalize e.visit below depth s c σ = out at hvisits ⊢
  cases hvisits with
  | turnedAway why hstopped =>
    exact settles_of_error rfl (hresults.mono rfl (List.subset_cons_self _ _)) (Or.inl rfl)
  | refused hstopped hover =>
    exact settles_of_error rfl (hresults.mono rfl (List.subset_cons_self _ _)) (Or.inl rfl)
  | remembered hstopped hwithin artifact hretrieve =>
    refine ⟨hentered, ?_, ?_⟩
    · intro a ha
      cases ha
      exact Or.inl ⟨rfl, hretrieve⟩
    · exact fun P hP _ => hP.get _ _
  | unrouted hstopped hwithin hretrieve f hchoose =>
    exact settles_of_error rfl hchosen (Or.inr rfl)
  | routed hstopped hwithin hretrieve m hchoose =>
    obtain ⟨hmem, _⟩ := of_choose hrouter hchoose
    rw [hwhole] at hmem
    exact attempts_settles hwhole hsome hrunner hapart below depth _ (List.mem_singleton.mp hmem) 1
      _ hchosen rfl

theorem synthesize_settles {limit : Int} {walks : Walks}
    (hwhole : e.router = .new ⟨[.whole]⟩ limit walks)
    (hsome : e.collaborators.runner = some runner) (hrunner : Runner runner verdict)
    (hapart : KeptApart e.collaborators.runtime verdict T) {σ : Session ω}
    (hresults : σ.results.Holds (ResultOf e.collaborators.runtime verdict T)) :
    Settles e s c e.collaborators.runtime verdict T σ (e.synthesize s c σ) := by
  have hbelow := solve_eq_visit e e.settings.maxDepth.toNat 0
  generalize e.solverBelow e.settings.maxDepth.toNat 0 = below at hbelow
  have hstart : ResultsTrue e.collaborators.runtime verdict T
      { σ with visits := 0, actions := [] } := fun _ => hresults
  have h : Settles e s c e.collaborators.runtime verdict T { σ with visits := 0, actions := [] }
      (e.visit below 0 s c { σ with visits := 0, actions := [] }) :=
    visit_settles hwhole hsome hrunner hapart below 0 hstart
  unfold synthesize
  rw [hbelow]
  exact ⟨h.results, h.origin, h.solutions⟩

end

/-- A test of a candidate that was inspected in one of the calls. -/
def Tested (calls : List (Served ω)) (t : TestCase) (code : String) : Prop :=
  ∃ x ∈ calls, ∃ s a, Action.inspected s a ∈ x.after.actions ∧ t ∈ s.testList ∧ a.code = code

/-- The call came to this artifact by itself, and it passes the tests asked for. -/
structure Earned (verdict : TestCase → String → Bool) (x : Served ω) (a : Artifact) : Prop where
  outcome : x.result.outcome = .ok a
  own : x.result.cached = false
  passes : ∀ t ∈ x.specification.testList, verdict t a.code = true

/-- The call came to the artifact by itself, or took it over from an earlier one with its key. -/
inductive Comes (verdict : TestCase → String → Bool) (earlier : List (Served ω)) (x : Served ω)
    (a : Artifact) : Prop
  | earned (h : Earned verdict x a)
  | taken (y : Served ω) (hy : y ∈ earlier) (hkey : y.key = x.key) (h : Earned verdict y a)
      (hcached : x.result.cached = true)

section

variable {e : Engine ω} {limit : Int} {walks : Walks} {runner : TestRunner ω}
  {verdict : TestCase → String → Bool} {first last : Session ω} {calls : List (Served ω)}

/-- One more call, from what the calls before have left. -/
theorem call_comes {T : TestCase → String → Prop} (hwhole : e.router = .new ⟨[.whole]⟩ limit walks)
    (hsome : e.collaborators.runner = some runner) (hrunner : Runner runner verdict)
    (hapart : KeptApart e.collaborators.runtime verdict T) {σ : Session ω} {x : Served ω}
    (hx : x.Follows e σ) (hlogged : Logged T x.after.actions)
    (hresults : σ.results.Holds (ResultOf e.collaborators.runtime verdict T))
    (hsolutions : σ.solutions.Holds fun k a => ∃ y ∈ calls, y.key = k ∧ Earned verdict y a) :
    x.after.results.Holds (ResultOf e.collaborators.runtime verdict T) ∧
      (x.after.solutions.Holds fun k a => ∃ y ∈ calls ++ [x], y.key = k ∧ Earned verdict y a) ∧
      ∀ a, x.result.outcome = .ok a → Comes verdict calls x a := by
  have hengine := hx.engine
  have hsettles : Settles x.engine x.specification x.context x.engine.collaborators.runtime verdict
      T x.before (x.engine.synthesize x.specification x.context x.before) := by
    have hrouter : x.engine.router = .new ⟨[.whole]⟩ limit walks := by
      rw [hengine]
      exact hwhole
    have hrunner' : x.engine.collaborators.runner = some runner := by
      rw [hengine]
      exact hsome
    refine synthesize_settles hrouter hrunner' hrunner ?_ ?_
    · rw [hengine]
      exact hapart
    · rw [hx.results, hengine]
      exact hresults
  have hruntime : x.engine.collaborators.runtime = e.collaborators.runtime := by rw [hengine]
  rw [hx.call, hruntime] at hsettles
  have hcomes : ∀ a, x.result.outcome = .ok a → Comes verdict calls x a := by
    intro a ha
    rcases hsettles.origin a ha with ⟨hcached, hget⟩ | ⟨hown, hpasses⟩
    · rw [hx.solutions] at hget
      obtain ⟨y, hy, hkey, hearned⟩ := hsolutions.of_get hget
      exact .taken y hy hkey hearned hcached
    · exact .earned ⟨ha, hown, hpasses hlogged⟩
  refine ⟨hsettles.results hlogged, ?_, hcomes⟩
  refine hsettles.solutions _ ?_ ?_
  · rw [hx.solutions]
    refine hsolutions.imp ?_
    rintro k a ⟨y, hy, hkey, hearned⟩
    exact ⟨y, List.mem_append_left _ hy, hkey, hearned⟩
  · intro a ha hown
    cases hcomes a ha with
    | earned h => exact ⟨x, by simp, rfl, h⟩
    | taken y hy hkey h hcached =>
      rw [hown] at hcached
      cases hcached

theorem serves_comes {T : TestCase → String → Prop}
    (hwhole : e.router = .new ⟨[.whole]⟩ limit walks)
    (hsome : e.collaborators.runner = some runner) (hrunner : Runner runner verdict)
    (hapart : KeptApart e.collaborators.runtime verdict T)
    (hsolutions : first.solutions.entries = {}) (hresults : first.results.entries = {})
    (hcalls : Serves e first calls last)
    (hlogged : ∀ x ∈ calls, Logged T x.after.actions) :
    last.results.Holds (ResultOf e.collaborators.runtime verdict T) ∧
      (last.solutions.Holds fun k a => ∃ y ∈ calls, y.key = k ∧ Earned verdict y a) ∧
      ∀ before x after, calls = before ++ x :: after →
        ∀ a, x.result.outcome = .ok a → Comes verdict before x a := by
  induction hcalls with
  | nil =>
    refine ⟨?_, ?_, by simp⟩
    · intro y hy
      rw [hresults] at hy
      cases hy
    · intro y hy
      rw [hsolutions] at hy
      cases hy
  | @snoc calls σ h x hx ih =>
    obtain ⟨hlogged, hlast⟩ := List.forall_mem_append.mp hlogged
    obtain ⟨hresults', hsolutions', hearlier⟩ := ih hlogged
    obtain ⟨hnext, hheld, hcomes⟩ := call_comes hwhole hsome hrunner hapart hx
      (hlast x (List.mem_singleton_self x)) hresults' hsolutions'
    refine ⟨hnext, hheld, ?_⟩
    intro before y after hsplit
    rcases Served.last_or_earlier hsplit with ⟨rfl, rfl⟩ | ⟨between, hsplit⟩
    · exact hcomes
    · exact hearlier before y between hsplit

/-- In a sequence of calls of an engine that never splits, from empty caches, every solution
passes the tests of the call it comes from: of the very call, or of an earlier one with the same
key when it is a remembered one. -/
theorem solution_passes_tests_of_origin (hwhole : e.router = .new ⟨[.whole]⟩ limit walks)
    (hsome : e.collaborators.runner = some runner) (hrunner : Runner runner verdict)
    (hsolutions : first.solutions.entries = {}) (hresults : first.results.entries = {})
    (hcalls : Serves e first calls last)
    (hapart : KeptApart e.collaborators.runtime verdict (Tested calls)) :
    ∀ before x after, calls = before ++ x :: after →
      ∀ a, x.result.outcome = .ok a → Comes verdict before x a := by
  refine (serves_comes hwhole hsome hrunner hapart hsolutions hresults hcalls ?_).2.2
  intro x hx s a hmem t ht
  exact ⟨x, hx, s, a, hmem, ht, rfl⟩

end

section

variable {e : Engine ω} {s : Specification} {c : Context}

theorem attempts_remembers {below : Option (Solver ω)} {depth : Int} {retries : Nat}
    {tried : List String} {m : Match} {iterations : Int} {phases : List Phase} {σ : Session ω}
    {a : Artifact}
    (hout : (e.attempts below depth s c retries tried m iterations phases σ).1.outcome = .ok a) :
    ∃ cache : SolutionCache,
      (e.attempts below depth s c retries tried m iterations phases σ).2.solutions =
        cache.set ((e.attempts below depth s c retries tried m iterations phases σ).2.now e)
          (solutionKey s c.contentKey) a := by
  induction retries using Nat.strongRecOn generalizing tried m iterations phases σ with
  | ind retries ih =>
    rcases ha : e.attempt below depth s c m.strategy σ with ⟨attempt, σ₁⟩
    have hcontinues := attempts_continues e below depth s c retries tried m iterations phases σ ha
    generalize e.attempts below depth s c retries tried m iterations phases σ = out
      at hcontinues hout ⊢
    cases hcontinues with
    | solved artifact _ =>
      cases hout
      exact ⟨σ₁.solutions, rfl⟩
    | ended f _ _ => cases hout
    | exhausted f _ _ _ => cases hout
    | retried f n next _ hretries _ _ _ => exact ih n (by omega) hout

/-- A solution that a call comes to by itself is remembered, at the time at which the call ends. -/
theorem synthesize_remembers {σ : Session ω} {a : Artifact}
    (hout : (e.synthesize s c σ).1.outcome = .ok a)
    (hown : (e.synthesize s c σ).1.cached = false) :
    ∃ cache : SolutionCache, (e.synthesize s c σ).2.solutions =
      cache.set ((e.synthesize s c σ).2.now e) (solutionKey s c.contentKey) a := by
  have hbelow := solve_eq_visit e e.settings.maxDepth.toNat 0
  generalize e.solverBelow e.settings.maxDepth.toNat 0 = below at hbelow
  unfold synthesize at hout hown ⊢
  rw [hbelow] at hout hown ⊢
  have hvisits := visit_visits e below 0 s c { σ with visits := 0, actions := [] }
  dsimp only at hout hown ⊢
  generalize e.visit below 0 s c { σ with visits := 0, actions := [] } = out
    at hvisits hout hown ⊢
  cases hvisits with
  | turnedAway why hstopped => cases hout
  | refused hstopped hover => cases hout
  | remembered hstopped hwithin artifact hretrieve => cases hown
  | unrouted hstopped hwithin hretrieve f hchoose => cases hout
  | routed hstopped hwithin hretrieve m hchoose => exact attempts_remembers hout

/-- All of a call that finds a remembered solution: one visit, and nothing changes but the notes
that the solutions keep of being looked up. -/
theorem synthesize_of_get {σ : Session ω} {a : Artifact} (hstopped : σ.stopped = none)
    (hwithin : 1 ≤ e.settings.maxIterations)
    (hget : (σ.solutions.get (σ.now e) (solutionKey s c.contentKey)).1 = some a) :
    e.synthesize s c σ =
      ({ outcome := .ok a, iterations := 1, cached := true,
         phases := [.start, .cacheCheck, .cached, .done] },
        { σ with
          solutions := (σ.solutions.get (σ.now e) (solutionKey s c.contentKey)).2
          visits := 1
          actions := [.admitted 0] }) := by
  have hbelow := solve_eq_visit e e.settings.maxDepth.toNat 0
  generalize e.solverBelow e.settings.maxDepth.toNat 0 = below at hbelow
  unfold synthesize
  rw [hbelow]
  have hvisits := visit_visits e below 0 s c { σ with visits := 0, actions := [] }
  dsimp only
  generalize e.visit below 0 s c { σ with visits := 0, actions := [] } = out at hvisits ⊢
  cases hvisits with
  | turnedAway why h =>
    rw [hstopped] at h
    cases h
  | refused h hover => exact absurd hover (Int.not_lt.mpr hwithin)
  | remembered h hwithin artifact hretrieve =>
    obtain rfl := Option.some.inj (hget.symm.trans hretrieve)
    rfl
  | unrouted h hwithin hretrieve f hchoose => cases hget.symm.trans hretrieve
  | routed h hwithin hretrieve m hchoose => cases hget.symm.trans hretrieve

/-- A remembered solution is taken over, whatever the tests. -/
theorem synthesize_takes_over {σ : Session ω} {a : Artifact} (hstopped : σ.stopped = none)
    (hwithin : 1 ≤ e.settings.maxIterations)
    (hget : (σ.solutions.get (σ.now e) (solutionKey s c.contentKey)).1 = some a) :
    (e.synthesize s c σ).1.outcome = .ok a ∧ (e.synthesize s c σ).1.cached = true ∧
      (e.synthesize s c σ).2.actions = [.admitted 0] := by
  rw [synthesize_of_get hstopped hwithin hget]
  exact ⟨rfl, rfl, rfl⟩

end

/-- The tests that an inspection runs, each with the code. -/
def Action.examined : Action → List (TestCase × String)
  | .inspected s a => s.testList.map fun t => (t, a.code)
  | _ => []

/-- The tests that were run in the calls, each with the code. -/
def examined (calls : List (Served ω)) : List (TestCase × String) :=
  calls.flatMap fun x => x.after.actions.flatMap Action.examined

theorem tested_iff_mem_examined {calls : List (Served ω)} {t : TestCase} {code : String} :
    Tested calls t code ↔ (t, code) ∈ examined calls := by
  simp only [examined, List.mem_flatMap]
  constructor
  · rintro ⟨x, hx, s, a, hmem, ht, rfl⟩
    exact ⟨x, hx, .inspected s a, hmem, List.mem_map.mpr ⟨t, ht, rfl⟩⟩
  · rintro ⟨x, hx, action, hmem, hexamined⟩
    cases action with
    | inspected s a =>
      obtain ⟨t', ht', heq⟩ := List.mem_map.mp hexamined
      obtain ⟨rfl, rfl⟩ := Prod.mk.inj heq
      exact ⟨x, hx, s, a, hmem, ht', rfl⟩
    | _ => cases hexamined

/-- Tests with keys of their own are kept apart. -/
theorem keptApart_of_nodup {runtime : String} {verdict : TestCase → String → Bool}
    {calls : List (Served ω)}
    (h : ((examined calls).map fun x => executionKey runtime x.1 x.2).Nodup) :
    KeptApart runtime verdict (Tested calls) := by
  intro t code t' code' ht ht' hkey
  have hpair : (t, code) = (t', code') := List.inj_on_of_nodup_map h
    (tested_iff_mem_examined.mp ht) (tested_iff_mem_examined.mp ht') hkey
  obtain ⟨rfl, rfl⟩ := Prod.mk.inj hpair
  rfl

/-- Drafts, whatever is asked for. -/
def drafting : Engine Unit where
  settings := { policy := { enabled := false } }
  router := .new ⟨[.whole]⟩ 0 .inOrder
  collaborators :=
    { generator := fun _ _ _ => Request.answer { success := true, code := "draft" }
      runner := some fun _ code => Request.answer (code != "draft") }
  clock := fun _ => 0

/-- Every test asks for more than a draft. -/
def beyondDraft (_ : TestCase) (code : String) : Bool := code != "draft"

def sketched : Served Unit := .of drafting { description := "sketch" } {} (freshSession {})

/-- Asks for the same, but with a test. -/
def tested : Specification := { description := "sketch", tests := some [{ name := "finished" }] }

def retaken : Served Unit := .of drafting tested {} { sketched.after with stopped := none }

theorem sketched_draft :
    sketched.result.solution?.map (·.code) = some "draft" ∧ sketched.result.cached = false ∧
      (examined [sketched]).isEmpty = true := by
  decide +kernel

/-- The second call takes over the draft. -/
theorem retaken_draft : ∃ a, a.code = "draft" ∧ retaken.result.outcome = .ok a ∧
    retaken.result.cached = true ∧ retaken.after.actions = [.admitted 0] := by
  obtain ⟨hsolution, hown, -⟩ := sketched_draft
  obtain ⟨a, ha, hcode⟩ := Option.map_eq_some_iff.mp hsolution
  have hout : (drafting.synthesize { description := "sketch" } {}
      (freshSession {})).1.outcome = .ok a := solution?_eq_some ha
  obtain ⟨cache, hcache⟩ := synthesize_remembers hout hown
  have hget : (sketched.after.solutions.get 0 (solutionKey tested ({} : Context).contentKey)).1 =
      some a := by
    change ((drafting.synthesize { description := "sketch" } {}
      (freshSession {})).2.solutions.get 0 _).1 = some a
    rw [hcache]
    exact Cache.get_set cache 0 _ a
  have htaken : (drafting.synthesize tested {} { sketched.after with stopped := none }).1.outcome =
      .ok a ∧ _ := synthesize_takes_over rfl (by decide) hget
  exact ⟨a, hcode, htaken⟩

theorem keptApart_retaken : KeptApart "" beyondDraft (Tested [sketched, retaken]) := by
  obtain ⟨-, -, hsketched⟩ := sketched_draft
  obtain ⟨_, _, _, _, hactions⟩ := retaken_draft
  have hretaken : examined [retaken] = [] := by simp [examined, hactions, Action.examined]
  have hnone : examined [sketched, retaken] = [] := by
    rw [examined, List.flatMap_cons, ← examined, hretaken, List.append_nil]
    simpa [examined] using hsketched
  apply keptApart_of_nodup
  rw [hnone]
  exact List.nodup_nil

theorem runner_beyondDraft :
    Runner (fun _ code => Request.answer (code != "draft") : TestRunner Unit) beyondDraft :=
  fun _ _ _ _ _ h => (Except.ok.inj h).symm

/-- Drafts first, and does better when the draft is rejected. -/
def revising : Engine Unit :=
  { drafting with
    collaborators :=
      { drafting.collaborators with
        generator := fun _ _ hints => Request.answer
          { success := true, code := if hints.attempt = 0 then "draft" else "final" } } }

def revised : Served Unit := .of revising tested {} (freshSession {})

/-- Asks for the same, but with another test. -/
def reused : Served Unit :=
  .of revising { description := "sketch", tests := some [{ name := "signed" }] } {}
    { revised.after with stopped := none }

/-- The first call runs its test on a draft, which fails it, and on the final code. The second one
takes over the final code, and it is the test of the first one that this passes. -/
theorem reused_passes_tests_of_origin :
    Serves revising (freshSession {}) [revised, reused] reused.after ∧
      (examined [revised, reused]).map (fun x => (x.1.name, x.2, beyondDraft x.1 x.2)) =
        [("finished", "final", true), ("finished", "draft", false)] ∧
      KeptApart "" beyondDraft (Tested [revised, reused]) ∧
      revised.specification.testList.map (·.name) = ["finished"] ∧
      ∃ a, reused.result.outcome = .ok a ∧ a.code = "final" ∧ reused.result.cached = true ∧
        Comes beyondDraft [revised] reused a := by
  have hcalls : Serves revising (freshSession {}) [revised, reused] reused.after :=
    serves_pair revising _ tested _ {} {}
  obtain ⟨hexamined, hnodup, hcode, hcached⟩ :
      (examined [revised, reused]).map (fun x => (x.1.name, x.2, beyondDraft x.1 x.2)) =
          [("finished", "final", true), ("finished", "draft", false)] ∧
        ((examined [revised, reused]).map fun x => executionKey "" x.1 x.2).Nodup ∧
        reused.result.solution?.map (·.code) = some "final" ∧
        reused.result.cached = true := by decide +kernel
  have hapart : KeptApart "" beyondDraft (Tested [revised, reused]) := keptApart_of_nodup hnodup
  obtain ⟨a, ha, hcode⟩ := Option.map_eq_some_iff.mp hcode
  have hout : reused.result.outcome = .ok a := solution?_eq_some ha
  exact ⟨hcalls, hexamined, hapart, by decide, a, hout, hcode, hcached,
    solution_passes_tests_of_origin rfl rfl runner_beyondDraft rfl rfl hcalls hapart [revised]
      reused [] rfl a hout⟩

/-- The draft does not pass the test that the second call asks for. -/
theorem taken_draft_fails_test :
    Serves drafting (freshSession {}) [sketched, retaken] retaken.after ∧
      KeptApart "" beyondDraft (Tested [sketched, retaken]) ∧
      ∃ a, retaken.result.outcome = .ok a ∧
        ∃ t ∈ retaken.specification.testList, beyondDraft t a.code = false := by
  obtain ⟨a, hcode, hout, _⟩ := retaken_draft
  refine ⟨serves_pair drafting _ _ tested {} {}, keptApart_retaken, a, hout, { name := "finished" },
    List.mem_singleton_self _, ?_⟩
  rw [beyondDraft, hcode]
  decide

end Synthesis.Engine
