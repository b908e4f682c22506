import Synthesis.Proofs.Actions
import Mathlib.Data.List.Forall2

/-!
Collaborators under audit. Beside the state of the collaborators stands a tally: of the calls of
the generator, each try of a request for itself, and of the depths at which visits begin. The
collaborators do not see it and answer as they do without it, so an audited request comes to the
same outcome; only the generator adds to the tally, as many calls as there are tries.
-/
namespace Synthesis

structure Tally where
  /-- Calls of the generator. -/
  calls : Nat := 0
  /-- The depths of visits, the newest first. -/
  depths : List Int := []

namespace Tally

def add (n : Nat) (t : Tally) : Tally := { t with calls := t.calls + n }

/-- A visit begins at some depth. -/
def visit (depth : Int) (t : Tally) : Tally := { t with depths := depth :: t.depths }

theorem add_zero (t : Tally) : t.add 0 = t := rfl

theorem add_add (t : Tally) (m n : Nat) : (t.add m).add n = t.add (m + n) := by
  simp only [add, Nat.add_assoc]

end Tally

/-- The state of the collaborators with the tally beside it. -/
structure Audited (ω : Type) where
  tally : Tally
  world : ω

variable {σ τ ω α : Type}

def Reply.map (f : σ → τ) (r : Reply σ α) : Reply τ α := ⟨r.outcome, r.stopped, f r.state⟩

namespace Request

/-- The same request, with the calls it makes added to the tally. -/
def audited (calls : Nat) (ask : Request ω α) : Request (Audited ω) α := fun call x =>
  let r := ask call x.world
  ⟨r.outcome, r.stopped, ⟨x.tally.add calls, r.state⟩⟩

/-- In the states that `E` makes of a tally and a state, a request has the same answer as without
a tally, and adds at most so many calls. -/
def Costs (E : Tally → σ → τ) (most : Nat) (ask : Request σ α) (ask' : Request τ α) : Prop :=
  ∀ call t x, ∃ n ≤ most, ask' call (E t x) = (ask call x).map (E (t.add n))

theorem audited_costs (n : Nat) (ask : Request ω α) : Costs Audited.mk n ask (ask.audited n) :=
  fun _ _ _ => ⟨n, Nat.le_refl n, rfl⟩

theorem Costs.free {E : Tally → σ → τ} {ask : Request σ α} {ask' : Request τ α}
    (h : Costs E 0 ask ask') (call : Call) (t : Tally) (x : σ) :
    ask' call (E t x) = (ask call x).map (E t) := by
  obtain ⟨n, hn, heq⟩ := h call t x
  rw [Nat.le_zero.mp hn, Tally.add_zero] at heq
  exact heq

theorem Costs.of_free {E : Tally → σ → τ} {ask : Request σ α} {ask' : Request τ α}
    (h : ∀ call t x, ask' call (E t x) = (ask call x).map (E t)) : Costs E 0 ask ask' :=
  fun call t x => ⟨0, Nat.le_refl 0, h call t x⟩

/-- Every try adds its calls. -/
theorem Costs.tries {E : Tally → σ → τ} {most : Nat} {ask : Request σ α} {ask' : Request τ α}
    (h : Costs E most ask ask') (p : RetryPolicy) (operation : String) (n : Nat) (last : Failure)
    (stopped : Option Interruption) (t : Tally) (x : σ) :
    ∃ k ≤ n * most, p.tries operation ask' n last stopped (E t x) =
      (p.tries operation ask n last stopped x).map (E (t.add k)) := by
  induction n generalizing last stopped t x with
  | zero => exact ⟨0, Nat.zero_le _, rfl⟩
  | succ n ih =>
    obtain ⟨k, hk, hreply⟩ := h { limited := p.isLimited } t x
    have hfirst : k ≤ (n + 1) * most :=
      Nat.le_trans hk (Nat.le_mul_of_pos_left most (Nat.succ_pos n))
    unfold RetryPolicy.tries
    cases stopped with
    | some why => exact ⟨0, Nat.zero_le _, rfl⟩
    | none =>
      dsimp only
      rw [hreply]
      rcases ask { limited := p.isLimited } x with ⟨outcome, stopped, y⟩
      dsimp only [Reply.map]
      cases outcome with
      | ok a => exact ⟨k, hfirst, rfl⟩
      | error f =>
        cases stopped with
        | some why => exact ⟨k, hfirst, rfl⟩
        | none =>
          cases hretry : (p.classify operation f).isRetryable with
          | false => exact ⟨k, hfirst, by simp [hretry]⟩
          | true =>
            obtain ⟨l, hl, hlater⟩ := ih (p.classify operation f) none (t.add k) y
            refine ⟨k + l, ?_, ?_⟩
            · rw [Nat.succ_mul]
              omega
            · simpa [hretry, Reply.map, Tally.add_add] using hlater

end Request

open Request

/-- The bench with the tally beside the state of the collaborators. -/
def Bench.audited (t : Tally) (b : Bench ω) : Bench (Audited ω) := ⟨b.results, ⟨t, b.world⟩⟩

namespace Validator

/-- A validator that answers the same under audit and leaves the tally alone. -/
def Unmoved (E : Tally → σ → τ) (v : Validator σ) (v' : Validator τ) : Prop :=
  ∀ s a, Costs E 0 (v s a) (v' s a)

theorem all_unmoved {E : Tally → σ → τ} {vs : List (Validator σ)} {vs' : List (Validator τ)}
    (h : List.Forall₂ (Unmoved E) vs vs') : Unmoved E (all vs) (all vs') := by
  induction h with
  | nil => exact fun s a => .of_free fun call t x => rfl
  | @cons v v' vs vs' hv _ ih =>
    intro s a
    refine .of_free ?_
    intro call t x
    unfold all
    dsimp only
    rw [(hv s a).free call t x]
    rcases v s a call x with ⟨outcome, stopped, y⟩
    dsimp only [Reply.map]
    cases outcome with
    | error f => rfl
    | ok first =>
      dsimp only
      rw [(ih s a).free { call with stopped } t y]
      rfl

theorem onWorld_unmoved (v : Validator ω) :
    Unmoved Bench.audited (onWorld v) (onWorld fun s a => (v s a).audited 0) :=
  fun _ _ => .of_free fun _ _ _ => rfl

section Tests

variable (runner : TestRunner ω) (runtime : String) (clock : ω → Int)

theorem runTest_costs (test : TestCase) (code : String) :
    Costs Bench.audited 0 (runTest runner runtime clock test code)
      (runTest (fun test code => (runner test code).audited 0) runtime (fun x => clock x.world) test
        code) := by
  refine .of_free ?_
  rintro call t ⟨results, world⟩
  unfold runTest
  dsimp only [Bench.audited, Request.audited]
  split
  · rfl
  · rcases runner test code call world with ⟨outcome, stopped, world⟩
    cases outcome with
    | error f => rfl
    | ok passed => rfl

theorem runTests_costs (code : String) (tests : List TestCase) (i : Nat) :
    Costs Bench.audited 0 (runTests runner runtime clock code i tests)
      (runTests (fun test code => (runner test code).audited 0) runtime (fun x => clock x.world)
        code i tests) := by
  refine .of_free ?_
  intro call t b
  induction tests generalizing i call b with
  | nil => rfl
  | cons test rest ih =>
    unfold runTests
    dsimp only
    rw [(runTest_costs runner runtime clock test code).free call t b]
    rcases runTest runner runtime clock test code call b with ⟨outcome, stopped, b⟩
    cases outcome with
    | error f => rfl
    | ok passed =>
      dsimp only [Reply.map]
      rw [ih (i + 1) { call with stopped } b]
      rfl

theorem tests_unmoved : Unmoved Bench.audited (tests runner runtime clock)
    (tests (fun test code => (runner test code).audited 0) runtime fun x => clock x.world) := by
  intro s a
  refine .of_free ?_
  intro call t b
  unfold tests
  dsimp only
  rw [(runTests_costs runner runtime clock a.code s.testList 0).free call t b]
  rfl

end Tests

end Validator

namespace Engine

/-- The engine under audit: every call of the generator is counted. -/
def audited (e : Engine ω) : Engine (Audited ω) where
  settings := e.settings
  router := e.router
  collaborators :=
    { generator := fun s c hints => (e.collaborators.generator s c hints).audited 1
      runner := e.collaborators.runner.map fun runner test code => (runner test code).audited 0
      validators := e.collaborators.validators.map fun v s a => (v s a).audited 0
      runtime := e.collaborators.runtime }
  policy := e.policy
  history := e.history.map fun ask x => ask x.world
  clock := fun x => e.clock x.world
  walks := e.walks

@[simp] theorem audited_settings (e : Engine ω) : e.audited.settings = e.settings := rfl

theorem checks_unmoved (e : Engine ω) :
    List.Forall₂ (Validator.Unmoved Bench.audited) e.checks e.audited.checks := by
  unfold checks
  refine List.rel_append (List.rel_append (List.rel_append ?_ ?_) ?_) ?_
  · exact .cons (fun _ _ => .of_free fun _ _ _ => rfl) .nil
  · dsimp only [audited]
    cases e.collaborators.runner with
    | none => exact .nil
    | some runner => exact .cons (Validator.tests_unmoved runner _ _) .nil
  · rw [audited_settings]
    split
    · exact .cons (fun _ _ => .of_free fun _ _ _ => rfl) .nil
    · exact .nil
  · dsimp only [audited]
    rw [List.map_map, List.forall₂_map_left_iff, List.forall₂_map_right_iff, List.forall₂_same]
    exact fun v _ => Validator.onWorld_unmoved v

theorem validator_unmoved (e : Engine ω) :
    Validator.Unmoved Bench.audited e.validator e.audited.validator := by
  intro s a
  refine .of_free ?_
  intro call t b
  have hall := Validator.all_unmoved e.checks_unmoved s a
  obtain ⟨n, hn, heq⟩ := hall.tries e.retryPolicy "validate" e.retryPolicy.attempts (.plain "")
    call.stopped t b
  rw [Nat.le_zero.mp hn, Tally.add_zero] at heq
  exact heq

/-- A request for a candidate calls the generator once for each try. -/
theorem generator_costs (e : Engine ω) (s : Specification) (c : Context) (hints : Hints) :
    Costs Audited.mk e.retryPolicy.attempts (e.generator s c hints)
      (e.audited.generator s c hints) := by
  intro call t x
  obtain ⟨n, hn, heq⟩ := (audited_costs 1 (e.collaborators.generator s c hints)).tries
    e.retryPolicy "generate" e.retryPolicy.attempts (.plain "") call.stopped t x
  exact ⟨n, by omega, heq⟩

end Engine

namespace Session

/-- The session with a tally beside the state of the collaborators. -/
def audited (t : Tally) (σ : Session ω) : Session (Audited ω) where
  solutions := σ.solutions
  strategies := σ.strategies
  results := σ.results
  experience := σ.experience
  abstractions := σ.abstractions
  pending := σ.pending
  world := ⟨t, σ.world⟩
  stopped := σ.stopped
  visits := σ.visits
  actions := σ.actions

theorem propose_audited (e : Engine ω) (s : Specification) (c : Context) (hints : Hints)
    (σ : Session ω) (t : Tally) :
    ∃ n ≤ e.retryPolicy.attempts, (σ.audited t).propose e.audited s c hints =
      ((σ.propose e s c hints).1, (σ.propose e s c hints).2.audited (t.add n)) := by
  obtain ⟨n, hn, heq⟩ := e.generator_costs s c hints { stopped := σ.stopped } t σ.world
  refine ⟨n, hn, ?_⟩
  unfold propose
  dsimp only [audited]
  rw [heq]
  rfl

theorem inspect_audited (e : Engine ω) (s : Specification) (a : Artifact) (σ : Session ω)
    (t : Tally) : (σ.audited t).inspect e.audited s a =
      ((σ.inspect e s a).1, (σ.inspect e s a).2.audited t) := by
  have heq := (e.validator_unmoved s a).free { stopped := σ.stopped } t ⟨some σ.results, σ.world⟩
  unfold inspect
  dsimp only [audited, Bench.audited] at heq ⊢
  rw [heq]
  rfl

theorem findAbstractions_audited (e : Engine ω) (s : Specification) (c : Context) (limit : Int)
    (σ : Session ω) (t : Tally) : (σ.audited t).findAbstractions e.audited s c limit =
      ((σ.findAbstractions e s c limit).1, (σ.findAbstractions e s c limit).2.audited t) := by
  rcases σ with ⟨_, _, _, _, abstractions, _, _, _, _, _⟩
  cases abstractions with
  | none => rfl
  | some library => rfl

theorem history_audited (e : Engine ω) (σ : Session ω) (t : Tally) :
    (σ.audited t).history e.audited = σ.history e :=
  Option.map_map _ _ e.history

theorem note_audited (e : Engine ω) (s : Specification) (name : String) (success : Bool)
    (iterations : Int) (σ : Session ω) (t : Tally) :
    (σ.audited t).note e.audited s name success iterations =
      (σ.note e s name success iterations).audited t := by
  have hkept : e.audited.history.isSome = e.history.isSome := Option.isSome_map
  unfold note
  rw [hkept]
  rfl

theorem choose_audited (e : Engine ω) (s : Specification) (c : Context) (σ : Session ω)
    (t : Tally) : (σ.audited t).choose e.audited s c =
      ((σ.choose e s c).1, (σ.choose e s c).2.audited t) := by
  unfold choose
  rw [history_audited]
  rfl

end Session

namespace Engine

theorem nextStrategy?_audited (e : Engine ω) (s : Specification) (c : Context)
    (tried : List String) (σ : Session ω) (t : Tally) :
    e.audited.nextStrategy? s c tried (σ.audited t) = e.nextStrategy? s c tried σ := by
  unfold nextStrategy?
  rw [Session.history_audited]
  rfl

/-- Each candidate for a leaf costs at most one request. -/
theorem leafTries_audited (e : Engine ω) (s : Specification) (c : Context) (hints : Hints)
    (n : Nat) (k : Int) (issues : List String) (σ : Session ω) (t : Tally) :
    ∃ calls ≤ n * e.retryPolicy.attempts,
      e.audited.leafTries s c hints n k issues (σ.audited t) =
        ((e.leafTries s c hints n k issues σ).1,
          (e.leafTries s c hints n k issues σ).2.audited (t.add calls)) := by
  induction n generalizing k issues σ t with
  | zero => exact ⟨0, Nat.zero_le _, rfl⟩
  | succ n ih =>
    obtain ⟨first, hcalls, hpropose⟩ :=
      σ.propose_audited e s c { hints with attempt := k, issues } t
    have hfirst : first ≤ (n + 1) * e.retryPolicy.attempts :=
      Nat.le_trans hcalls (Nat.le_mul_of_pos_left _ (Nat.succ_pos n))
    have hlater (issues : List String) (σ₁ : Session ω) :
        ∃ calls ≤ (n + 1) * e.retryPolicy.attempts,
          e.audited.leafTries s c hints n (k + 1) issues (σ₁.audited (t.add first)) =
            ((e.leafTries s c hints n (k + 1) issues σ₁).1,
              (e.leafTries s c hints n (k + 1) issues σ₁).2.audited (t.add calls)) := by
      obtain ⟨rest, hrest, heq⟩ := ih (k + 1) issues σ₁ (t.add first)
      rw [Tally.add_add] at heq
      refine ⟨first + rest, ?_, heq⟩
      rw [Nat.succ_mul]
      omega
    unfold leafTries
    rw [hpropose]
    rcases σ.propose e s c { hints with attempt := k, issues } with ⟨proposed, σ₁⟩
    cases proposed with
    | error f => exact ⟨first, hfirst, rfl⟩
    | ok candidate =>
      dsimp only
      split
      · exact hlater _ σ₁
      · rw [σ₁.inspect_audited]
        rcases σ₁.inspect e s ⟨candidate.code, candidate.confidence, "generate"⟩
          with ⟨inspected, σ₂⟩
        cases inspected with
        | error f => exact ⟨first, hfirst, rfl⟩
        | ok report =>
          dsimp only
          split
          · exact ⟨first, hfirst, rfl⟩
          · exact hlater report.issues (σ₂.countUses hints.abstractions report.passed)

/-- The most calls of the generator for a leaf: for so many candidates, so many tries each. -/
def leafCalls (e : Engine ω) : Nat :=
  (e.settings.maxValidationRetries + 1).toNat * e.retryPolicy.attempts

theorem leaf_audited (e : Engine ω) (depth : Int) (s : Specification) (c : Context)
    (σ : Session ω) (t : Tally) :
    ∃ calls ≤ e.leafCalls, e.audited.leaf depth s c (σ.audited t) =
      ((e.leaf depth s c σ).1, (e.leaf depth s c σ).2.audited (t.add calls)) := by
  unfold leaf
  rw [σ.findAbstractions_audited e]
  exact e.leafTries_audited s c _ _ _ _ _ t

end Engine

end Synthesis
