import Synthesis.Proofs.Calls

/-!
What passing the inspection makes sure of. All validators report on a candidate, each on what the
ones before have left, and again when a try has failed; a report that passed means that every one
of them was pleased. Tests in particular have passed, be their results new or remembered, as long
as no two tests that came out differently have one key.
-/
namespace Synthesis

namespace Validator

variable {σ ω : Type} {s : Specification} {a : Artifact} {I : σ → Prop} {R : Prop}

/-- What a validator keeps of its state, and what a report that passed makes sure of. -/
structure Keeps (v : Validator σ) (s : Specification) (a : Artifact) (I : σ → Prop) (R : Prop) :
    Prop where
  state : ∀ call x, I x → I (v s a call x).state
  passed : ∀ call x report, I x → (v s a call x).outcome = .ok report → report.passed = true → R

theorem Keeps.weaken {v : Validator σ} (h : Keeps v s a I R) : Keeps v s a I True :=
  ⟨h.state, fun _ _ _ _ _ _ => trivial⟩

theorem keeps_of_answer {v : Validator σ} {report : Report} (h : v s a = Request.answer report) :
    Keeps v s a I (report.passed = true) where
  state call x hx := by
    rw [h]
    exact hx
  passed call x report' _ hout hpassed := by
    rw [h] at hout
    cases hout
    exact hpassed

theorem nonBlank_keeps : Keeps nonBlank s a I True := (keeps_of_answer rfl).weaken

theorem onWorld_keeps {J : Option ExecutionCache → Prop} (v : Validator ω) :
    Keeps (onWorld v) s a (fun bench => J bench.results) True :=
  ⟨fun _ _ hx => hx, fun _ _ _ _ _ _ => trivial⟩

/-- What a first validator and then all others make of a candidate. -/
inductive Continues (v : Validator σ) (vs : List (Validator σ)) (s : Specification) (a : Artifact)
    (call : Call) (x : σ) : Reply σ Report → Prop
  | failed (f : Failure) (hout : (v s a call x).outcome = .error f) :
      Continues v vs s a call x ⟨.error f, (v s a call x).stopped, (v s a call x).state⟩
  | reported (first : Report) (hout : (v s a call x).outcome = .ok first) :
      Continues v vs s a call x
        { all vs s a { call with stopped := (v s a call x).stopped } (v s a call x).state with
          outcome := (all vs s a { call with stopped := (v s a call x).stopped }
            (v s a call x).state).outcome.map (joinReports first) }

theorem all_continues (v : Validator σ) (vs : List (Validator σ)) (s : Specification)
    (a : Artifact) (call : Call) (x : σ) :
    Continues v vs s a call x (all (v :: vs) s a call x) := by
  unfold all
  dsimp only
  cases hout : (v s a call x).outcome with
  | error f => exact .failed f hout
  | ok first => exact .reported first hout

theorem map_eq_ok {ε α β : Type} {f : α → β} {x : Except ε α} {b : β} (h : x.map f = .ok b) :
    ∃ y, x = .ok y ∧ f y = b := by
  cases x with
  | error e => cases h
  | ok y => exact ⟨y, rfl, Except.ok.inj h⟩

/-- The validators keep what each of them keeps, and together make sure of what any of them makes
sure of. -/
theorem Keeps.all {vs : List (Validator σ)} (hall : ∀ v ∈ vs, Keeps v s a I True) :
    Keeps (all vs) s a I True ∧
      ∀ v ∈ vs, ∀ R : Prop, Keeps v s a I R → Keeps (Validator.all vs) s a I R := by
  induction vs with
  | nil => exact ⟨(keeps_of_answer rfl).weaken, by simp⟩
  | cons v vs ih =>
    obtain ⟨hv, hvs⟩ := List.forall_mem_cons.mp hall
    obtain ⟨hlater, hsure⟩ := ih hvs
    have hstate : ∀ call x, I x → I (Validator.all (v :: vs) s a call x).state := by
      intro call x hx
      have hcontinues := all_continues v vs s a call x
      generalize Validator.all (v :: vs) s a call x = reply at hcontinues ⊢
      cases hcontinues with
      | failed f hout => exact hv.state call x hx
      | reported first hout => exact hlater.state _ _ (hv.state call x hx)
    refine ⟨⟨hstate, fun _ _ _ _ _ _ => trivial⟩, ?_⟩
    intro w hw R hR
    refine ⟨hstate, ?_⟩
    intro call x report hx hok hpassed
    have hcontinues := all_continues v vs s a call x
    generalize Validator.all (v :: vs) s a call x = reply at hcontinues hok
    cases hcontinues with
    | failed f hout => cases hok
    | reported first hout =>
      obtain ⟨later, hlast, rfl⟩ := map_eq_ok hok
      obtain ⟨hfirst, hrest⟩ := Bool.and_eq_true_iff.mp hpassed
      rcases List.mem_cons.mp hw with rfl | hw
      · exact hR.passed call x first hx hout hfirst
      · exact (hsure w hw R hR).passed _ _ later (hv.state call x hx) hlast hrest

/-- Trying again keeps what one try keeps. -/
theorem Keeps.retrying {v : Validator σ} (h : Keeps v s a I R) (p : RetryPolicy) :
    Keeps (v.retrying p) s a I R := by
  have htries : ∀ (n : Nat) (last : Failure) (stopped : Option Interruption) (x : σ), I x →
      I (p.tries "validate" (v s a) n last stopped x).state ∧
        ∀ report, (p.tries "validate" (v s a) n last stopped x).outcome = .ok report →
          report.passed = true → R := by
    intro n
    induction n with
    | zero => exact fun _ _ _ hx => ⟨hx, fun _ hout => by cases hout⟩
    | succ n ih =>
      intro last stopped x hx
      have hstate := h.state { limited := p.isLimited } x hx
      have hsure := h.passed { limited := p.isLimited } x
      unfold RetryPolicy.tries
      split
      · exact ⟨hx, fun _ hout => by cases hout⟩
      · dsimp only
        cases hout : (v s a { limited := p.isLimited } x).outcome with
        | ok report =>
          refine ⟨hstate, ?_⟩
          intro report' heq
          cases heq
          exact hsure report hx hout
        | error f =>
          dsimp only
          split
          · exact ⟨hstate, fun _ hout => by cases hout⟩
          · split
            · exact ih _ _ _ hstate
            · exact ⟨hstate, fun _ hout => by cases hout⟩
  exact ⟨fun call x hx => (htries _ _ _ x hx).1,
    fun call x report hx => (htries _ _ _ x hx).2 report⟩

section Tests

variable {runner : TestRunner ω} {runtime : String} {verdict : TestCase → String → Bool}
  {T : TestCase → String → Prop}

/-- Whenever the runner comes to a result, it is this one. -/
def Runner (runner : TestRunner ω) (verdict : TestCase → String → Bool) : Prop :=
  ∀ t code call x passed, (runner t code call x).outcome = .ok passed → passed = verdict t code

/-- No two of these tests that come out differently have one key. -/
def KeptApart (runtime : String) (verdict : TestCase → String → Bool)
    (T : TestCase → String → Prop) : Prop :=
  ∀ t code t' code', T t code → T t' code' →
    executionKey runtime t code = executionKey runtime t' code' → verdict t code = verdict t' code'

/-- A remembered result is that of one of these tests with that key. -/
def ResultOf (runtime : String) (verdict : TestCase → String → Bool)
    (T : TestCase → String → Prop) (key : String) (passed : Bool) : Prop :=
  ∃ t code, T t code ∧ executionKey runtime t code = key ∧ verdict t code = passed

/-- The results that a bench remembers, if it does, are such results. -/
def BenchHolds (runtime : String) (verdict : TestCase → String → Bool)
    (T : TestCase → String → Prop) (bench : Bench ω) : Prop :=
  ∀ cache ∈ bench.results, cache.Holds (ResultOf runtime verdict T)

/-- What a bench remembers after a result was looked for. -/
def lookedUp (clock : ω → Int) (key : String) (bench : Bench ω) : Option ExecutionCache :=
  bench.results.map fun cache => (cache.get (clock bench.world) key).2

/-- The ways a test comes to its result. -/
inductive RunsTest (runner : TestRunner ω) (runtime : String) (clock : ω → Int) (t : TestCase)
    (code : String) (call : Call) (bench : Bench ω) : Reply (Bench ω) Bool → Prop
  | remembered (cache : ExecutionCache) (passed : Bool) (hcache : bench.results = some cache)
      (hget : (cache.get (clock bench.world) (executionKey runtime t code)).1 = some passed) :
      RunsTest runner runtime clock t code call bench
        ⟨.ok passed, call.stopped,
          ⟨some (cache.get (clock bench.world) (executionKey runtime t code)).2, bench.world⟩⟩
  | failed (f : Failure) (hout : (runner t code call bench.world).outcome = .error f) :
      RunsTest runner runtime clock t code call bench
        ⟨.error f, (runner t code call bench.world).stopped,
          ⟨lookedUp clock (executionKey runtime t code) bench,
            (runner t code call bench.world).state⟩⟩
  | run (passed : Bool) (hout : (runner t code call bench.world).outcome = .ok passed) :
      RunsTest runner runtime clock t code call bench
        ⟨.ok passed, (runner t code call bench.world).stopped,
          ⟨(lookedUp clock (executionKey runtime t code) bench).map
              (·.set (clock (runner t code call bench.world).state) (executionKey runtime t code)
                passed),
            (runner t code call bench.world).state⟩⟩

theorem runTest_runsTest (runner : TestRunner ω) (runtime : String) (clock : ω → Int) (t : TestCase)
    (code : String) (call : Call) (bench : Bench ω) :
    RunsTest runner runtime clock t code call bench
      (runTest runner runtime clock t code call bench) := by
  obtain ⟨results, world⟩ := bench
  unfold runTest
  cases results with
  | none =>
    dsimp only
    cases hout : (runner t code call world).outcome with
    | error f => exact .failed f hout
    | ok passed => exact .run passed hout
  | some cache =>
    dsimp only
    cases hget : (cache.get (clock world) (executionKey runtime t code)).1 with
    | some passed => exact .remembered cache passed rfl hget
    | none =>
      dsimp only
      cases hout : (runner t code call world).outcome with
      | error f => exact .failed f hout
      | ok passed => exact .run passed hout

theorem lookedUp_holds {P : String → Bool → Prop} {bench : Bench ω}
    (h : ∀ cache ∈ bench.results, cache.Holds P) (clock : ω → Int) (key : String) :
    ∀ cache ∈ lookedUp clock key bench, cache.Holds P := by
  intro cache hcache
  obtain ⟨old, hold, rfl⟩ := Option.map_eq_some_iff.mp hcache
  exact (h old hold).get _ _

theorem runTest_keeps (hrunner : Runner runner verdict) (hapart : KeptApart runtime verdict T)
    (clock : ω → Int) {t : TestCase} {code : String} (ht : T t code) (call : Call) {bench : Bench ω}
    (hbench : BenchHolds runtime verdict T bench) :
    BenchHolds runtime verdict T (runTest runner runtime clock t code call bench).state ∧
      ∀ passed, (runTest runner runtime clock t code call bench).outcome = .ok passed →
        passed = verdict t code := by
  have hruns := runTest_runsTest runner runtime clock t code call bench
  generalize runTest runner runtime clock t code call bench = reply at hruns ⊢
  cases hruns with
  | remembered cache passed hcache hget =>
    have hholds := hbench cache hcache
    refine ⟨?_, ?_⟩
    · intro cache' hcache'
      cases hcache'
      exact hholds.get _ _
    · intro passed' heq
      cases heq
      obtain ⟨t', code', ht', hkey, hverdict⟩ := hholds.of_get hget
      rw [← hverdict]
      exact hapart t' code' t code ht' ht hkey
  | failed f hout =>
    exact ⟨lookedUp_holds hbench clock _, fun _ heq => by cases heq⟩
  | run passed hout =>
    have hverdict := hrunner t code call bench.world passed hout
    refine ⟨?_, ?_⟩
    · intro cache hcache
      obtain ⟨old, hold, rfl⟩ := Option.map_eq_some_iff.mp hcache
      exact (lookedUp_holds hbench clock _ old hold).set _ ⟨t, code, ht, rfl, hverdict.symm⟩
    · intro passed' heq
      cases heq
      exact hverdict

theorem runTests_keeps (hrunner : Runner runner verdict) (hapart : KeptApart runtime verdict T)
    (clock : ω → Int) (code : String) (i : Nat) {ts : List TestCase} (hts : ∀ t ∈ ts, T t code)
    (call : Call) {bench : Bench ω} (hbench : BenchHolds runtime verdict T bench) :
    BenchHolds runtime verdict T (runTests runner runtime clock code i ts call bench).state ∧
      ((runTests runner runtime clock code i ts call bench).outcome = .ok [] →
        ∀ t ∈ ts, verdict t code = true) := by
  induction ts generalizing i call bench with
  | nil => exact ⟨hbench, by simp⟩
  | cons t rest ih =>
    obtain ⟨ht, hrest⟩ := List.forall_mem_cons.mp hts
    obtain ⟨hkept, hresult⟩ := runTest_keeps hrunner hapart clock ht call hbench
    unfold runTests
    dsimp only
    cases hout : (runTest runner runtime clock t code call bench).outcome with
    | error f => exact ⟨hkept, fun heq => by cases heq⟩
    | ok passed =>
      obtain ⟨hlater, hothers⟩ := ih (i + 1) hrest
        { call with stopped := (runTest runner runtime clock t code call bench).stopped } hkept
      refine ⟨hlater, ?_⟩
      intro heq
      obtain ⟨issues, hissues, hnone⟩ := map_eq_ok heq
      cases passed with
      | false => cases hnone
      | true =>
        rw [if_pos rfl] at hnone
        subst hnone
        exact List.forall_mem_cons.mpr ⟨(hresult true hout).symm, hothers hissues⟩

/-- Candidates that please the tests pass all of them. -/
theorem tests_keeps (hrunner : Runner runner verdict) (hapart : KeptApart runtime verdict T)
    (clock : ω → Int) (hs : ∀ t ∈ s.testList, T t a.code) :
    Keeps (tests runner runtime clock) s a (BenchHolds runtime verdict T)
      (∀ t ∈ s.testList, verdict t a.code = true) where
  state call bench hbench := (runTests_keeps hrunner hapart clock a.code 0 hs call hbench).1
  passed call bench report hbench hout hpassed := by
    obtain ⟨issues, hissues, rfl⟩ := map_eq_ok hout
    refine (runTests_keeps hrunner hapart clock a.code 0 hs call hbench).2 ?_
    rw [hissues, List.isEmpty_iff.mp hpassed]

end Tests

end Validator

namespace Engine

open Validator

variable {ω : Type} {e : Engine ω} {s : Specification} {a : Artifact}

/-- When the tests keep what they know of the bench, all checks do. -/
theorem checks_keep {J : Option ExecutionCache → Prop}
    (htests : ∀ runner ∈ e.collaborators.runner,
      Keeps (tests runner e.collaborators.runtime e.clock) s a
        (fun bench => J bench.results) True) :
    ∀ v ∈ e.checks, Keeps v s a (fun bench => J bench.results) True := by
  intro v hv
  unfold checks at hv
  rcases List.mem_append.mp hv with hv | hv
  · rcases List.mem_append.mp hv with hv | hv
    · rcases List.mem_append.mp hv with hv | hv
      · rw [List.mem_singleton.mp hv]
        exact nonBlank_keeps
      · rw [Option.mem_toList] at hv
        obtain ⟨runner, hrunner, rfl⟩ := Option.map_eq_some_iff.mp hv
        exact htests runner hrunner
    · split at hv
      · rw [List.mem_singleton.mp hv]
        exact (keeps_of_answer rfl).weaken
      · cases hv
  · obtain ⟨w, _, rfl⟩ := List.mem_map.mp hv
    exact onWorld_keeps w

/-- An inspected candidate passes the tests, and what is remembered stays true. -/
theorem inspect_tests {runner : TestRunner ω} {verdict : TestCase → String → Bool}
    {T : TestCase → String → Prop} (hsome : e.collaborators.runner = some runner)
    (hrunner : Runner runner verdict) (hapart : KeptApart e.collaborators.runtime verdict T)
    (hs : ∀ t ∈ s.testList, T t a.code) {σ : Session ω}
    (hresults : σ.results.Holds (ResultOf e.collaborators.runtime verdict T)) :
    (σ.inspect e s a).2.results.Holds (ResultOf e.collaborators.runtime verdict T) ∧
      ∀ report, (σ.inspect e s a).1 = .ok report → report.passed = true →
        ∀ t ∈ s.testList, verdict t a.code = true := by
  have htests := tests_keeps hrunner hapart e.clock hs
  have hchecks : ∀ v ∈ e.checks, Keeps v s a
      (BenchHolds e.collaborators.runtime verdict T) True := by
    refine checks_keep (J := fun results => ∀ cache ∈ results,
      cache.Holds (ResultOf e.collaborators.runtime verdict T)) ?_
    intro runner' hrunner'
    rw [hsome] at hrunner'
    cases hrunner'
    exact htests.weaken
  have hmem : tests runner e.collaborators.runtime e.clock ∈ e.checks := by
    simp [checks, hsome]
  have hvalidator : Keeps e.validator s a (BenchHolds e.collaborators.runtime verdict T)
      (∀ t ∈ s.testList, verdict t a.code = true) :=
    ((Keeps.all hchecks).2 _ hmem _ htests).retrying e.retryPolicy
  have hbench : BenchHolds e.collaborators.runtime verdict T
      (⟨some σ.results, σ.world⟩ : Bench ω) := by
    intro cache hcache
    cases hcache
    exact hresults
  refine ⟨?_, fun report => hvalidator.passed _ _ report hbench⟩
  have hstate := hvalidator.state { stopped := σ.stopped } _ hbench
  change (((e.validator s a { stopped := σ.stopped } ⟨some σ.results, σ.world⟩).state.results.getD
    σ.results)).Holds _
  cases hleft : (e.validator s a { stopped := σ.stopped }
    ⟨some σ.results, σ.world⟩).state.results with
  | none => exact hresults
  | some cache => exact hstate cache hleft

end Engine

end Synthesis
