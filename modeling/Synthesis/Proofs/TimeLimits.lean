import Synthesis.Proofs.Budget
import Synthesis.Settings.Check
import Mathlib.Data.Int.GCD

/-!
Time limits. Settings give the time that a collaborator has for one call, in milliseconds. It is
counted in nanoseconds, which wraps around outside the signed sixty-four bit range, and a limit that
is not positive counts as none. So calls are held to the time that the settings say exactly when
that time is inside the range. Beyond it, what sixty-four bits leave of the time decides alone
whether there is a limit, for all calls of an engine alike.
-/
namespace Synthesis

variable {σ ω α : Type}

/-- The same request, made under a time limit or without one, whatever the call says. -/
def Request.withLimit (limited : Bool) (ask : Request σ α) : Request σ α :=
  fun call x => ask { call with limited } x

/-- Every try is made under a time limit if the policy has one, and without one otherwise. -/
theorem RetryPolicy.tries_withLimit (p : RetryPolicy) (operation : String) (ask : Request σ α)
    (n : Nat) (last : Failure) (stopped : Option Interruption) (x : σ) :
    p.tries operation (ask.withLimit p.isLimited) n last stopped x =
      p.tries operation ask n last stopped x := by
  induction n generalizing last stopped x with
  | zero => rfl
  | succ n ih =>
    have hfirst : ask.withLimit p.isLimited { limited := p.isLimited } x =
        ask { limited := p.isLimited } x := rfl
    simp only [tries, hfirst, ih]

namespace Validator

variable (limited : Bool)

def withLimit (v : Validator σ) : Validator σ := fun s a => (v s a).withLimit limited

theorem all_withLimit (vs : List (Validator σ)) :
    all (vs.map (withLimit limited)) = (all vs).withLimit limited := by
  funext s a call x
  induction vs generalizing call x with
  | nil => rfl
  | cons v vs ih =>
    have hfirst : v.withLimit limited s a call x = v s a { call with limited } x := rfl
    simp only [List.map_cons, all, hfirst, ih]
    rfl

section Tests

variable (runner : TestRunner ω) (runtime : String) (clock : ω → Int)

theorem runTest_withLimit (test : TestCase) (code : String) :
    runTest (fun test code => (runner test code).withLimit limited) runtime clock test code =
      (runTest runner runtime clock test code).withLimit limited := rfl

theorem runTests_withLimit (code : String) (i : Nat) (tests : List TestCase) :
    runTests (fun test code => (runner test code).withLimit limited) runtime clock code i tests =
      (runTests runner runtime clock code i tests).withLimit limited := by
  funext call b
  induction tests generalizing i call b with
  | nil => rfl
  | cons test rest ih =>
    simp only [runTests, runTest_withLimit, ih]
    rfl

theorem tests_withLimit :
    tests (fun test code => (runner test code).withLimit limited) runtime clock =
      (tests runner runtime clock).withLimit limited := by
  funext s a call b
  unfold tests
  rw [runTests_withLimit]
  rfl

end Tests

end Validator

namespace Engine

/-- The engine with collaborators that take every call as made under a time limit, or every call as
made without one. -/
def withLimit (limited : Bool) (e : Engine ω) : Engine ω :=
  { e with
    collaborators :=
      { generator := fun s c hints => (e.collaborators.generator s c hints).withLimit limited
        runner := e.collaborators.runner.map fun runner test code =>
          (runner test code).withLimit limited
        validators := e.collaborators.validators.map (Validator.withLimit limited)
        runtime := e.collaborators.runtime } }

theorem checks_withLimit (limited : Bool) (e : Engine ω) :
    (e.withLimit limited).checks = e.checks.map (Validator.withLimit limited) := by
  unfold checks
  rw [List.map_append, List.map_append, List.map_append]
  refine congrArg₂ (· ++ ·) (congrArg₂ (· ++ ·) (congrArg₂ (· ++ ·) rfl ?_) ?_) ?_
  · dsimp only [withLimit]
    cases e.collaborators.runner with
    | none => rfl
    | some runner =>
      exact congrArg (fun v => [v])
        (Validator.tests_withLimit limited runner e.collaborators.runtime e.clock)
  · rw [apply_ite (List.map (Validator.withLimit limited))]
    rfl
  · dsimp only [withLimit]
    rw [List.map_map, List.map_map]
    rfl

variable (e : Engine ω)

theorem generator_withLimit :
    (e.withLimit e.retryPolicy.isLimited).generator = e.generator := by
  funext s c hints call x
  exact e.retryPolicy.tries_withLimit "generate" (e.collaborators.generator s c hints)
    e.retryPolicy.attempts (.plain "") call.stopped x

theorem validator_withLimit :
    (e.withLimit e.retryPolicy.isLimited).validator = e.validator := by
  funext s a call b
  unfold validator
  rw [checks_withLimit, Validator.all_withLimit]
  exact e.retryPolicy.tries_withLimit "validate" (Validator.all e.checks s a)
    e.retryPolicy.attempts (.plain "") call.stopped b

theorem leafTries_withLimit (s : Specification) (c : Context) (hints : Hints) (n : Nat) (k : Int)
    (issues : List String) (σ : Session ω) :
    (e.withLimit e.retryPolicy.isLimited).leafTries s c hints n k issues σ =
      e.leafTries s c hints n k issues σ := by
  have hpropose : Session.propose (e.withLimit e.retryPolicy.isLimited) = Session.propose e := by
    unfold Session.propose
    rw [generator_withLimit]
  have hinspect : Session.inspect (e.withLimit e.retryPolicy.isLimited) = Session.inspect e := by
    unfold Session.inspect
    rw [validator_withLimit]
  induction n generalizing k issues σ with
  | zero => rfl
  | succ n ih => simp only [leafTries, hpropose, hinspect, ih]

-- From here on collaborators are asked for leaves only; everything else that the engine does reads
-- the settings, the router, the history and the time, which are the same on both sides.
theorem attempt_withLimit (below : Option (Solver ω)) (depth : Int) (s : Specification)
    (c : Context) (strategy : Strategy) (σ : Session ω) :
    (e.withLimit e.retryPolicy.isLimited).attempt below depth s c strategy σ =
      e.attempt below depth s c strategy σ := by
  have hleaf : (e.withLimit e.retryPolicy.isLimited).leafAttempt depth s c =
      e.leafAttempt depth s c := by
    funext σ
    simp only [leafAttempt, leaf, leafTries_withLimit]
    rfl
  unfold attempt
  rw [hleaf]
  rfl

theorem attempts_withLimit (below : Option (Solver ω)) (depth : Int) (s : Specification)
    (c : Context) (retries : Nat) (tried : List String) (m : Match) (iterations : Int)
    (phases : List Phase) (σ : Session ω) :
    (e.withLimit e.retryPolicy.isLimited).attempts below depth s c retries tried m iterations
        phases σ =
      e.attempts below depth s c retries tried m iterations phases σ := by
  induction retries generalizing tried m iterations phases σ with
  | zero =>
    unfold attempts
    rw [attempt_withLimit]
    rfl
  | succ n ih =>
    unfold attempts
    rw [attempt_withLimit]
    simp only [ih]
    rfl

theorem visit_withLimit (below : Option (Solver ω)) (depth : Int) :
    (e.withLimit e.retryPolicy.isLimited).visit below depth = e.visit below depth := by
  funext s c σ
  unfold visit
  simp only [attempts_withLimit]
  rfl

theorem solve_withLimit (n : Nat) (depth : Int) :
    (e.withLimit e.retryPolicy.isLimited).solve n depth = e.solve n depth := by
  induction n generalizing depth with
  | zero => exact e.visit_withLimit none depth
  | succ n ih =>
    rw [solve, ih]
    exact e.visit_withLimit (some (e.solve n (depth + 1))) depth

/-- A whole call asks its collaborators only under a time limit if the policy has one, and only
without one otherwise. -/
theorem synthesize_withLimit {limited : Bool} (h : e.retryPolicy.isLimited = limited)
    (s : Specification) (c : Context) (σ : Session ω) :
    e.synthesize s c σ = (e.withLimit limited).synthesize s c σ := by
  subst h
  unfold synthesize
  rw [solve_withLimit]
  rfl

/-- Whatever the engine is called for, its collaborators work under a time limit all along: the call
goes as with collaborators that know no other calls. -/
def LimitsCalls (e : Engine ω) : Prop :=
  ∀ s c σ, e.synthesize s c σ = (e.withLimit true).synthesize s c σ

theorem limitsCalls_of_pos {e : Engine ω} (h : 0 < e.settings.validationTimeout) :
    e.LimitsCalls :=
  e.synthesize_withLimit (decide_eq_true h)

end Engine

namespace Settings

open Engine

/-- The time for one call of a collaborator, in nanoseconds without any bounds. -/
def exactTimeout (s : Settings) : Int := s.validationTimeoutMs * 1000000

/-- What sixty-four bits leave of that time. -/
def leftTimeout (s : Settings) : Int := s.exactTimeout % 18446744073709551616

theorem validationTimeout_eq (s : Settings) :
    s.validationTimeout =
      if s.leftTimeout ≤ Decimal.maxInt64 then s.leftTimeout
      else s.leftTimeout - 18446744073709551616 :=
  Decimal.wrap64_eq s.exactTimeout

variable {s : Settings}

theorem zero_le_leftTimeout : 0 ≤ s.leftTimeout := Int.emod_nonneg _ (by decide)

theorem leftTimeout_lt : s.leftTimeout < 18446744073709551616 :=
  Int.emod_lt_of_pos _ (by decide)

theorem zero_le_exactTimeout (h : s.error? = none) : 0 ≤ s.exactTimeout := by
  have hleast : 0 ≤ s.validationTimeoutMs :=
    least_le_topField h (List.mem_of_getElem? (i := 6) rfl)
  unfold exactTimeout
  omega

/-- There is a time limit exactly when what is left of the time is positive as a signed number. -/
theorem validationTimeout_pos_iff :
    0 < s.validationTimeout ↔ 0 < s.leftTimeout ∧ s.leftTimeout ≤ Decimal.maxInt64 := by
  have hlt := s.leftTimeout_lt
  rw [validationTimeout_eq]
  split <;> omega

theorem validationTimeout_neg_iff :
    s.validationTimeout < 0 ↔ Decimal.maxInt64 < s.leftTimeout := by
  have hlt := s.leftTimeout_lt
  have hnonneg := s.zero_le_leftTimeout
  rw [validationTimeout_eq]
  split <;> omega

/-- A million is sixty-four times an odd number, so the time wraps around to zero at the multiples
of `2 ^ 58` milliseconds. -/
theorem validationTimeout_eq_zero_iff :
    s.validationTimeout = 0 ↔ 288230376151711744 ∣ s.validationTimeoutMs := by
  have hlt := s.leftTimeout_lt
  have hmodulus : (18446744073709551616 : Int) = 288230376151711744 * 64 := by decide
  have hexact : s.exactTimeout = s.validationTimeoutMs * 15625 * 64 := by
    unfold exactTimeout
    omega
  calc s.validationTimeout = 0
      ↔ s.leftTimeout = 0 := by
        rw [validationTimeout_eq]
        unfold Decimal.maxInt64
        split <;> omega
    _ ↔ 288230376151711744 * 64 ∣ s.validationTimeoutMs * 15625 * 64 := by
        rw [leftTimeout, hmodulus, hexact, Int.dvd_iff_emod_eq_zero]
    _ ↔ 288230376151711744 ∣ s.validationTimeoutMs * 15625 :=
        Int.mul_dvd_mul_iff_right (by decide)
    _ ↔ 288230376151711744 ∣ s.validationTimeoutMs :=
        ⟨fun h => Int.dvd_of_dvd_mul_left_of_gcd_one h (by decide),
          fun h => Dvd.dvd.mul_right h 15625⟩

theorem validationTimeout_eq_exact_iff (h : s.error? = none) :
    s.validationTimeout = s.exactTimeout ↔ s.exactTimeout ≤ Decimal.maxInt64 := by
  have hnonneg : Decimal.minInt64 ≤ s.exactTimeout :=
    Int.le_trans (by decide) (zero_le_exactTimeout h)
  exact Decimal.wrap64_eq_self_iff.trans (and_iff_right hnonneg)

/-- The settings' time for one call is kept: it is counted to the nanosecond, it is no limit only if
it is zero, it is never negative, it grows from settings to settings, and if it is positive every
engine with the settings holds its collaborators to it. -/
structure KeepsTimeout (s : Settings) : Prop where
  counted : s.validationTimeout = s.exactTimeout
  zero_iff : s.validationTimeout = 0 ↔ s.validationTimeoutMs = 0
  nonneg : 0 ≤ s.validationTimeout
  grows : ∀ s' : Settings, s'.error? = none → s'.validationTimeoutMs < s.validationTimeoutMs →
    s'.validationTimeout < s.validationTimeout
  applied : 0 < s.validationTimeoutMs → ∀ {ω : Type} (e : Engine ω), e.settings = s →
    e.retryPolicy.timeout = s.exactTimeout ∧ e.LimitsCalls

theorem keepsTimeout_of_le (h : s.error? = none) (hfits : s.exactTimeout ≤ Decimal.maxInt64) :
    s.KeepsTimeout := by
  have hcounted := (validationTimeout_eq_exact_iff h).mpr hfits
  have hexact : s.exactTimeout = s.validationTimeoutMs * 1000000 := rfl
  constructor
  case counted => exact hcounted
  case zero_iff => omega
  case nonneg =>
    rw [hcounted]
    exact zero_le_exactTimeout h
  case grows =>
    intro s' h' hless
    have hexact' : s'.exactTimeout = s'.validationTimeoutMs * 1000000 := rfl
    have hcounted' := (validationTimeout_eq_exact_iff h').mpr (by omega)
    omega
  case applied =>
    rintro hpositive ω e rfl
    exact ⟨hcounted, limitsCalls_of_pos (by omega)⟩

/-- With settings that are in order, the time for one call is kept exactly when it fits into the
signed sixty-four bit range as nanoseconds. Otherwise it wraps around: to zero exactly at the
multiples of `2 ^ 58` milliseconds, and below zero exactly when sixty-four bits leave more of it
than the range holds. In any case, an engine makes all calls under a limit if what is left is
positive inside the range, and all of them without one if it is not. -/
theorem timeout_kept_iff (h : s.error? = none) :
    (s.KeepsTimeout ↔ s.exactTimeout ≤ Decimal.maxInt64) ∧
      (s.validationTimeout = 0 ↔ 288230376151711744 ∣ s.validationTimeoutMs) ∧
      (s.validationTimeout < 0 ↔ Decimal.maxInt64 < s.leftTimeout) ∧
      ∀ {ω : Type} (e : Engine ω), e.settings = s → ∀ t c σ,
        e.synthesize t c σ =
          (e.withLimit (decide (0 < s.leftTimeout ∧ s.leftTimeout ≤ Decimal.maxInt64))).synthesize
            t c σ := by
  refine ⟨⟨fun hkeeps => ?_, keepsTimeout_of_le h⟩, validationTimeout_eq_zero_iff,
    validationTimeout_neg_iff, ?_⟩
  · exact (validationTimeout_eq_exact_iff h).mp hkeeps.counted
  · rintro ω e rfl
    have hlimited : e.retryPolicy.isLimited = decide (0 < e.settings.leftTimeout ∧
        e.settings.leftTimeout ≤ Decimal.maxInt64) := decide_eq_decide.mpr validationTimeout_pos_iff
    exact e.synthesize_withLimit hlimited

/-- The greatest number of milliseconds that is kept, and the next one, which gives no limit. -/
theorem timeout_kept_longest :
    let longest : Settings := { validationTimeoutMs := 9223372036854 }
    let longer : Settings := { validationTimeoutMs := 9223372036855 }
    longest.error? = none ∧ longest.KeepsTimeout ∧
      longer.error? = none ∧ ¬ longer.KeepsTimeout ∧ longer.validationTimeout < 0 := by
  intro longest longer
  have hlongest : longest.error? = none := by decide +kernel
  have hlonger : longer.error? = none := by decide +kernel
  obtain ⟨hkept, -⟩ := timeout_kept_iff hlongest
  obtain ⟨hkept', -, hnegative, -⟩ := timeout_kept_iff hlonger
  exact ⟨hlongest, hkept.mpr (by decide), hlonger, fun h => absurd (hkept'.mp h) (by decide),
    hnegative.mpr (by decide)⟩

/-- An engine whose generator comes to no answer: under a time limit its time is up, and without one
it would hang. -/
def endless (s : Settings) : Engine Unit where
  settings := s
  router := .new ⟨[intoHalves]⟩ 0 .inOrder
  collaborators :=
    { generator := fun _ _ _ call => Request.fail
        (if call.limited then .interrupted .deadline else .plain "would hang") call }
  clock := fun _ => 0

/-- Two hundred and ninety-two years are no limit, so that the generator hangs. Of twice that time
less than half a millisecond is left, and of nine million years nothing. -/
theorem long_timeout_lets_hang :
    let s (ms : Int) : Settings := { validationTimeoutMs := ms, maxDepth := 0 }
    (s 9223372036855).error? = none ∧ (s 18446744073710).error? = none ∧
      (s 288230376151711744).error? = none ∧
      (s 9223372036855).validationTimeout = -9223372036854551616 ∧
      (s 18446744073710).validationTimeout = 448384 ∧
      (s 288230376151711744).validationTimeout = 0 ∧
      ((endless (s 9223372036855)).synthesize both {}
        (freshSession (s 9223372036855))).1.failure?.map (·.anyCause Failure.isDeadline) =
          some false ∧
      ¬ (endless (s 9223372036855)).LimitsCalls ∧ ¬ (s 9223372036855).KeepsTimeout := by
  intro s
  have hhangs : ((endless (s 9223372036855)).synthesize both {}
      (freshSession (s 9223372036855))).1.failure?.map (·.anyCause Failure.isDeadline) =
        some false := by decide +kernel
  -- under a limit the time of the same generator would have been up
  have htimely : (((endless (s 9223372036855)).withLimit true).synthesize both {}
      (freshSession (s 9223372036855))).1.failure?.map (·.anyCause Failure.isDeadline) =
        some true := by decide +kernel
  have hnot : ¬ (endless (s 9223372036855)).LimitsCalls := by
    intro hcalls
    rw [hcalls, htimely] at hhangs
    cases hhangs
  refine ⟨by decide +kernel, by decide +kernel, by decide +kernel, by decide, by decide, by decide,
    hhangs, hnot, ?_⟩
  intro hkeeps
  exact hnot (hkeeps.applied (by decide) (endless (s 9223372036855)) rfl).2

end Settings

end Synthesis
