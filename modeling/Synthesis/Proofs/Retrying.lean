import Synthesis.Proofs.Audit
import Mathlib.Logic.Relation

/-!
Retrying a request. The replies that a collaborator would give if it were asked again and again are
looked through one by one. A reply with which the request may be repeated is a failure that another
try may mend, from a collaborator whose caller is still waiting; the first other reply ends the
request. When all tries come to such failures, the last of them is handed on, and it still says that
another try may succeed.
-/
namespace Synthesis

namespace Failure

variable {f g : Failure} {q : Failure → Bool}

/-- The first failure names the second as its cause, or as one of its causes. -/
inductive CausedBy : Failure → Failure → Prop
  | wrapped (message : String) (g : Failure) : CausedBy (.wrapped message g) g
  | joined {causes : List Failure} {g : Failure} (h : g ∈ causes) : CausedBy (.joined causes) g
  | composition (slot reason : String) (g : Failure) :
      CausedBy (.composition slot reason (some g)) g
  | generation (g : Failure) : CausedBy (.generation g) g
  | retryable (g : Failure) : CausedBy (.retryable g) g

/-- A failure wraps itself and what it leads to from cause to cause. -/
def Wraps : Failure → Failure → Prop := Relation.ReflTransGen CausedBy

theorem anyOf_of_mem {causes : List Failure} (hmem : g ∈ causes) (hg : anyCause q g = true) :
    anyOf q causes = true := by
  induction causes with
  | nil => exact absurd hmem List.not_mem_nil
  | cons f causes ih =>
    rw [anyOf, Bool.or_eq_true]
    rcases List.mem_cons.mp hmem with rfl | hmem
    · exact Or.inl hg
    · exact Or.inr (ih hmem)

theorem CausedBy.anyCause (h : CausedBy f g) (hg : g.anyCause q = true) : f.anyCause q = true := by
  cases h with
  | wrapped message => rw [Failure.anyCause, hg, Bool.or_true]
  | joined hmem => rw [Failure.anyCause, anyOf_of_mem hmem hg, Bool.or_true]
  | composition slot reason => rw [Failure.anyCause, anyOptional, hg, Bool.or_true]
  | generation => rw [Failure.anyCause, hg, Bool.or_true]
  | retryable => rw [Failure.anyCause, hg, Bool.or_true]

/-- What is found in a failure is found in every failure that wraps it. -/
theorem Wraps.anyCause (h : Wraps f g) (hg : g.anyCause q = true) : f.anyCause q = true := by
  induction h using Relation.ReflTransGen.head_induction_on with
  | refl => exact hg
  | head hcause _ ih => exact hcause.anyCause ih

/-- Another try may mend the failure: it says so, or the time was up. -/
def mayMend (f : Failure) : Bool := f.isRetryable || f.anyCause isDeadline

end Failure

namespace RetryPolicy

open Failure

variable (p : RetryPolicy) (operation : String) (f : Failure)

theorem classify_wraps : (p.classify operation f).Wraps f := by
  unfold classify
  split
  · exact .head (.retryable _) (.single (.wrapped _ f))
  · exact .refl

theorem isRetryable_classify : (p.classify operation f).isRetryable = f.mayMend := by
  unfold classify mayMend
  split
  · rename_i hdeadline
    rw [hdeadline, Bool.or_true]
    rfl
  · rename_i hdeadline
    rw [Bool.eq_false_iff.mpr hdeadline, Bool.or_false]

theorem classify_eq_self {f : Failure} (h : f.mayMend = false) : p.classify operation f = f := by
  unfold classify
  rw [if_neg]
  rw [mayMend, Bool.or_eq_false_iff] at h
  simp [h.2]

/-- The number of tries, while the number of retries does not wrap around. -/
theorem attempts_eq {p : RetryPolicy} (hleast : Decimal.minInt64 ≤ p.maxRetries)
    (hmost : p.maxRetries < Decimal.maxInt64) : (p.attempts : Int) = max 1 (p.maxRetries + 1) := by
  have hwrap : Decimal.wrap64 (p.maxRetries + 1) = p.maxRetries + 1 :=
    Decimal.wrap64_eq_self_iff.mpr ⟨by omega, by omega⟩
  rw [attempts, hwrap]
  omega

end RetryPolicy

variable {σ α : Type}

/-- With this reply the request may be repeated: the caller still waits, and another try may mend
the failure. -/
def Reply.Repeats (r : Reply σ α) : Prop :=
  r.stopped = none ∧ ∃ f, r.outcome = .error f ∧ f.mayMend = true

/-- The replies to a request that is made again and again. -/
def Request.again (ask : Request σ α) (call : Call) (x : σ) : Nat → Reply σ α
  | 0 => ask call x
  | k + 1 => ask call (again ask call x k).state

theorem Request.again_state (ask : Request σ α) (call : Call) (x : σ) (k : Nat) :
    again ask call (ask call x).state k = again ask call x (k + 1) := by
  induction k with
  | zero => rfl
  | succ k ih => exact congrArg (fun r => ask call r.state) ih

namespace RetryPolicy

open Request

variable (p : RetryPolicy) (operation : String)

/-- What comes of a request whose last try has this reply. -/
def settle (r : Reply σ α) : Reply σ α :=
  match r.outcome with
  | .ok a => ⟨.ok a, r.stopped, r.state⟩
  | .error f =>
    match r.stopped with
    | some why => ⟨.error (.interrupted why), some why, r.state⟩
    | none =>
      if f.mayMend then
        ⟨.error (p.exhausted operation (p.classify operation f)), none, r.state⟩
      else ⟨.error f, none, r.state⟩

theorem settle_map {τ : Type} (r : Reply σ α) (f : σ → τ) :
    p.settle operation (r.map f) = (p.settle operation r).map f := by
  rcases r with ⟨outcome, stopped, x⟩
  cases outcome with
  | ok a => rfl
  | error g =>
    cases stopped with
    | some why => rfl
    | none =>
      dsimp only [settle, Reply.map]
      cases g.mayMend with
      | true => rfl
      | false => rfl

variable {ask : Request σ α} {x : σ}

/-- A reply with which the request is not repeated ends it. -/
theorem tries_of_not_repeats (h : ¬ (ask { limited := p.isLimited } x).Repeats) (n : Nat)
    (last : Failure) : p.tries operation ask (n + 1) last none x =
      p.settle operation (ask { limited := p.isLimited } x) := by
  rw [tries]
  dsimp only
  rcases hr : ask { limited := p.isLimited } x with ⟨outcome, stopped, y⟩
  rw [hr] at h
  cases outcome with
  | ok a => rfl
  | error f =>
    cases stopped with
    | some why => rfl
    | none =>
      have hmend : f.mayMend = false := Bool.eq_false_iff.mpr fun hmend => h ⟨rfl, f, rfl, hmend⟩
      dsimp only [settle]
      rw [p.isRetryable_classify, hmend, p.classify_eq_self operation hmend]
      rfl

/-- Otherwise the next try begins where this one left the collaborator. -/
theorem tries_of_repeats {f : Failure}
    (hwaiting : (ask { limited := p.isLimited } x).stopped = none)
    (houtcome : (ask { limited := p.isLimited } x).outcome = .error f) (hmend : f.mayMend = true)
    (n : Nat) (last : Failure) : p.tries operation ask (n + 1) last none x =
      p.tries operation ask n (p.classify operation f) none
        (ask { limited := p.isLimited } x).state := by
  rw [tries]
  simp [houtcome, hwaiting, p.isRetryable_classify, hmend]

theorem settle_of_repeats {r : Reply σ α} {f : Failure} (hwaiting : r.stopped = none)
    (houtcome : r.outcome = .error f) (hmend : f.mayMend = true) :
    p.settle operation r =
      ⟨.error (p.exhausted operation (p.classify operation f)), none, r.state⟩ := by
  simp [settle, houtcome, hwaiting, hmend]

/-- Up to `n`, the reply number `k` decides: the first with which the request is not repeated, or
the last of all. -/
structure Decides (replies : Nat → Reply σ α) (n k : Nat) : Prop where
  le : k ≤ n
  before : ∀ j < k, (replies j).Repeats
  last : (replies k).Repeats → k = n

/-- Replies that are repeated in the same places are decided in the same place. -/
theorem Decides.unique {τ : Type} {replies : Nat → Reply σ α} {replies' : Nat → Reply τ α}
    {n k k' : Nat} (h : Decides replies n k) (h' : Decides replies' n k')
    (hsame : ∀ j, (replies j).Repeats ↔ (replies' j).Repeats) : k = k' := by
  have hle := h.le
  have hle' := h'.le
  rcases Nat.lt_trichotomy k k' with hlt | heq | hlt
  · have hlast := h.last ((hsame k).mpr (h'.before k hlt))
    omega
  · exact heq
  · have hlast := h'.last ((hsame k').mp (h.before k' hlt))
    omega

theorem tries_eq (ask : Request σ α) (n : Nat) (last : Failure) (x : σ) :
    ∃ k, Decides (ask.again { limited := p.isLimited } x) n k ∧
      p.tries operation ask (n + 1) last none x =
        p.settle operation (ask.again { limited := p.isLimited } x k) := by
  induction n generalizing last x with
  | zero =>
    refine ⟨0, ⟨Nat.le_refl 0, by simp, fun _ => rfl⟩, ?_⟩
    rw [again]
    by_cases hrepeats : (ask { limited := p.isLimited } x).Repeats
    · obtain ⟨hwaiting, f, houtcome, hmend⟩ := hrepeats
      rw [p.tries_of_repeats operation hwaiting houtcome hmend,
        p.settle_of_repeats operation hwaiting houtcome hmend]
      rfl
    · exact p.tries_of_not_repeats operation hrepeats 0 last
  | succ n ih =>
    by_cases hrepeats : (ask { limited := p.isLimited } x).Repeats
    · obtain ⟨hwaiting, f, houtcome, hmend⟩ := id hrepeats
      obtain ⟨k, ⟨hle, hbefore, hlast⟩, hsettled⟩ :=
        ih (p.classify operation f) (ask { limited := p.isLimited } x).state
      simp only [again_state] at hbefore hlast hsettled
      refine ⟨k + 1, ⟨by omega, fun j hj => ?_, fun h => by rw [hlast h]⟩, ?_⟩
      · cases j with
        | zero => exact hrepeats
        | succ j => exact hbefore j (by omega)
      · rw [p.tries_of_repeats operation hwaiting houtcome hmend, hsettled]
    · refine ⟨0, ⟨by omega, by simp, fun h => absurd h hrepeats⟩, ?_⟩
      exact p.tries_of_not_repeats operation hrepeats (n + 1) last

/-- Under audit the replies are the same, and each of them adds one call. -/
theorem again_audited (ask : Request σ α) (call : Call) (t : Tally) (x : σ) (k : Nat) :
    (ask.audited 1).again call ⟨t, x⟩ k =
      (ask.again call x k).map (Audited.mk (t.add (k + 1))) := by
  induction k with
  | zero => rfl
  | succ k ih =>
    rw [again, ih]
    rfl

/-- A request that is retried for a waiting caller ends as its deciding reply says, after as many
calls as there are replies up to it. -/
theorem run_eq (ask : Request σ α) (t : Tally) (x : σ) :
    ∃ k, Decides (ask.again { limited := p.isLimited } x) (p.attempts - 1) k ∧
      p.run operation ask none x =
        p.settle operation (ask.again { limited := p.isLimited } x k) ∧
      p.run operation (ask.audited 1) none ⟨t, x⟩ =
        (p.run operation ask none x).map (Audited.mk (t.add (k + 1))) := by
  have hattempts : p.attempts = p.attempts - 1 + 1 := by
    unfold attempts
    omega
  obtain ⟨k, hdecides, hplain⟩ := p.tries_eq operation ask (p.attempts - 1) (.plain "") x
  obtain ⟨k', hdecides', hcounted⟩ :=
    p.tries_eq operation (ask.audited 1) (p.attempts - 1) (.plain "") ⟨t, x⟩
  rw [← hattempts] at hplain hcounted
  have hsame : k = k' := by
    refine hdecides.unique hdecides' fun j => ?_
    rw [again_audited]
    rfl
  subst hsame
  refine ⟨k, hdecides, hplain, ?_⟩
  rw [run, hcounted, again_audited, settle_map, run, hplain]

/-- What a retried request comes to. A stopped caller is told why it was stopped, without a call.
Otherwise all calls but the last end in failures that another try may mend, with the caller waiting.
A last call that succeeds is the outcome. One that fails is the outcome, too, unless the caller was
stopped meanwhile; and it is one that another try may mend only when no tries are left. -/
theorem run_outcome {p : RetryPolicy} (hleast : Decimal.minInt64 ≤ p.maxRetries)
    (hmost : p.maxRetries < Decimal.maxInt64) (operation : String) (ask : Request σ α)
    (stopped : Option Interruption) (t : Tally) (x : σ) :
    ∃ calls : Nat,
      p.run operation (ask.audited 1) stopped ⟨t, x⟩ =
        (p.run operation ask stopped x).map (Audited.mk (t.add calls)) ∧
      (calls : Int) ≤ max 1 (p.maxRetries + 1) ∧
      (∀ why, stopped = some why →
        calls = 0 ∧ (p.run operation ask stopped x).outcome = .error (.interrupted why)) ∧
      (stopped = none → ∃ k, calls = k + 1 ∧
        (∀ j < k, (ask.again { limited := p.isLimited } x j).Repeats) ∧
        (∀ a, (ask.again { limited := p.isLimited } x k).outcome = .ok a →
          (p.run operation ask stopped x).outcome = .ok a) ∧
        ∀ f, (ask.again { limited := p.isLimited } x k).outcome = .error f →
          (∀ why, (ask.again { limited := p.isLimited } x k).stopped = some why →
            (p.run operation ask stopped x).outcome = .error (.interrupted why)) ∧
          ((ask.again { limited := p.isLimited } x k).stopped = none → f.mayMend = false →
            (p.run operation ask stopped x).outcome = .error f) ∧
          ((ask.again { limited := p.isLimited } x k).stopped = none → f.mayMend = true →
            calls = max 1 (p.maxRetries + 1) ∧
            ∃ g, (p.run operation ask stopped x).outcome = .error g ∧ g.Wraps f ∧
              g.isRetryable = true)) := by
  have hattempts := attempts_eq hleast hmost
  cases stopped with
  | some why =>
    have hrun : ∀ {τ : Type} (ask : Request τ α) (y : τ),
        p.run operation ask (some why) y = ⟨.error (.interrupted why), some why, y⟩ := by
      intro τ ask y
      obtain ⟨n, hn⟩ : ∃ n, p.attempts = n + 1 := ⟨p.attempts - 1, by unfold attempts; omega⟩
      rw [run, hn]
      rfl
    refine ⟨0, ?_, by omega, ?_, by simp⟩
    · rw [hrun, hrun]
      rfl
    · rintro _ ⟨⟩
      rw [hrun]
      exact ⟨rfl, rfl⟩
  | none =>
    obtain ⟨k, hdecides, hrun, hcounted⟩ := p.run_eq operation ask t x
    have hle := hdecides.le
    refine ⟨k + 1, hcounted, by omega, by simp, fun _ => ⟨k, rfl, hdecides.before, ?_, ?_⟩⟩
    · intro a ha
      rw [hrun, settle, ha]
    · intro f hf
      refine ⟨fun why hstopped => ?_, fun hwaiting hfinal => ?_, fun hwaiting hmend => ?_⟩
      · rw [hrun, settle, hf]
        simp [hstopped]
      · rw [hrun, settle, hf]
        simp [hwaiting, hfinal]
      · have hlast := hdecides.last ⟨hwaiting, f, hf, hmend⟩
        refine ⟨by omega, p.exhausted operation (p.classify operation f), ?_, ?_, ?_⟩
        · rw [hrun, p.settle_of_repeats operation hwaiting hf hmend]
        · exact .head (.wrapped _ _) (p.classify_wraps operation f)
        · have hwraps : (p.exhausted operation (p.classify operation f)).Wraps
              (p.classify operation f) := .single (.wrapped _ _)
          exact hwraps.anyCause ((p.isRetryable_classify operation f).trans hmend)

/-- Three tries of twenty milliseconds. -/
def patient : RetryPolicy := { timeout := 20000000, maxRetries := 2 }

/-- The time is up once, and then there is an answer, although the caller is stopped meanwhile. -/
def late : Request Nat String := fun _ n =>
  if n = 0 then ⟨.error (.interrupted .deadline), none, 1⟩
  else ⟨.ok "done", some .cancelled, n + 1⟩

def busy : Request Nat String := fun _ n => ⟨.error (.retryable (.plain "busy")), none, n + 1⟩

theorem run_outcome_patient :
    ((patient.run "generate" (late.audited 1) none ⟨{}, 0⟩).state.tally.calls = 2 ∧
      (patient.run "generate" late none 0).outcome = .ok "done") ∧
    (patient.run "generate" (busy.audited 1) none ⟨{}, 0⟩).state.tally.calls = 3 ∧
      ∃ g, (patient.run "generate" busy none 0).outcome = .error g ∧
        g.Wraps (.retryable (.plain "busy")) ∧ g.isRetryable = true := by
  have hleast : Decimal.minInt64 ≤ patient.maxRetries := by decide
  have hmost : patient.maxRetries < Decimal.maxInt64 := by decide
  have hbound : max 1 (patient.maxRetries + 1) = 3 := by decide
  constructor
  · obtain ⟨calls, hcounted, _, _, hwaiting⟩ :=
      run_outcome hleast hmost "generate" late none {} 0
    obtain ⟨k, rfl, hbefore, hok, herror⟩ := hwaiting rfl
    have hnot : k ≠ 0 := by
      rintro rfl
      have hall := ((herror (.interrupted .deadline) rfl).2.2 rfl rfl).1
      rw [hbound] at hall
      omega
    have hle : ¬ 1 < k := fun hlt => by
      obtain ⟨_, f, hf, _⟩ := hbefore 1 hlt
      cases hf
    obtain rfl : k = 1 := by omega
    rw [hcounted]
    exact ⟨rfl, hok "done" rfl⟩
  · obtain ⟨calls, hcounted, _, _, hwaiting⟩ :=
      run_outcome hleast hmost "generate" busy none {} 0
    obtain ⟨k, hk, _, _, herror⟩ := hwaiting rfl
    have hbusy : ∀ k, (busy.again { limited := patient.isLimited } 0 k).outcome =
        .error (.retryable (.plain "busy")) := fun k => by cases k <;> rfl
    have hlive : (busy.again { limited := patient.isLimited } 0 k).stopped = none := by
      cases k <;> rfl
    obtain ⟨hall, hlast⟩ := (herror _ (hbusy k)).2.2 hlive rfl
    rw [hbound] at hall
    obtain rfl : calls = 3 := by omega
    rw [hcounted]
    exact ⟨rfl, hlast⟩

end RetryPolicy

end Synthesis
