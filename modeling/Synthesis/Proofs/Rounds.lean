import Synthesis.Proofs.Invariants

/-!
The rounds at a leaf. In each round a candidate is asked for, and if it is worth a look, the
validators report on it. A round that leaves issues is followed by one that is told exactly these,
as long as there are rounds left; any other round ends the leaf, by a solution or by the failure of
a collaborator. So the outcome can be read off the last round.
-/
namespace Synthesis

/-- The code that a candidate offers. -/
def Candidate.artifact (candidate : Candidate) : Artifact :=
  ⟨candidate.code, candidate.confidence, "generate"⟩

namespace Engine

/-- What came of asking for a candidate. -/
inductive Answer where
  /-- The generator failed. -/
  | failed (f : Failure)
  /-- The candidate is no solution, or blank. -/
  | empty (candidate : Candidate)
  /-- The validators failed to report on the candidate. -/
  | unreported (candidate : Candidate) (f : Failure)
  | reported (candidate : Candidate) (report : Report)

namespace Answer

/-- The candidate that was shown to the validators. -/
def shown? : Answer → Option Candidate
  | .failed _ => none
  | .empty _ => none
  | .unreported candidate _ => some candidate
  | .reported candidate _ => some candidate

/-- What the next candidate has to do better, if there is to be one. -/
def issues? : Answer → Option (List String)
  | .failed _ => none
  | .empty _ => some ["generator produced no solution"]
  | .unreported _ _ => none
  | .reported _ report => if report.passed then none else some report.issues

/-- The failure of a collaborator, as the leaf tells of it. -/
def failure? : Answer → Option Failure
  | .failed f => some f
  | .empty _ => none
  | .unreported _ f => some (.wrapped "validate" f)
  | .reported _ _ => none

end Answer

/-- A candidate is asked for with these hints. -/
structure Round where
  hints : Hints
  answer : Answer

/-- What is done in a round, the newest first. -/
def Round.actions (s : Specification) (round : Round) : List Action :=
  (round.answer.shown?.map fun candidate => .inspected s candidate.artifact).toList ++
    [.proposed s round.hints]

/-- What the leaf comes to with the answer of its last round: a failed collaborator, of which a
stopped caller does not hear, a solution, or the issues that are left when all rounds are spent. -/
inductive Ends (spent : Prop) (stopped : Option Interruption) (answer : Answer) :
    Except Failure Artifact → Prop
  | interrupted (f : Failure) (hfailure : answer.failure? = some f) (why : Interruption)
      (hstopped : stopped = some why) : Ends spent stopped answer (.error (.interrupted why))
  | failed (f : Failure) (hfailure : answer.failure? = some f) (hwaiting : stopped = none) :
      Ends spent stopped answer (.error (.generation f))
  | accepted (candidate : Candidate) (report : Report)
      (hanswer : answer = .reported candidate report) (hpassed : report.passed = true) :
      Ends spent stopped answer (.ok candidate.artifact)
  | spent (issues : List String) (hissues : answer.issues? = some issues) (hspent : spent) :
      Ends spent stopped answer (.error (.validation issues))

variable {ω : Type} (e : Engine ω) (s : Specification) (c : Context)

/-- A round as the collaborators make it: the answer is theirs, and only a successful candidate
that is not blank is shown to the validators. -/
inductive Plays (σ : Session ω) : Round → Session ω → Prop
  | failed (hints : Hints) (f : Failure) (σ₁ : Session ω)
      (hpropose : σ.propose e s c hints = (.error f, σ₁)) : Plays σ ⟨hints, .failed f⟩ σ₁
  | empty (hints : Hints) (candidate : Candidate) (σ₁ : Session ω)
      (hpropose : σ.propose e s c hints = (.ok candidate, σ₁))
      (hempty : candidate.success = false ∨ Text.isAllBlank candidate.code = true) :
      Plays σ ⟨hints, .empty candidate⟩ σ₁
  | unreported (hints : Hints) (candidate : Candidate) (f : Failure) (σ₁ σ₂ : Session ω)
      (hpropose : σ.propose e s c hints = (.ok candidate, σ₁))
      (hfull : candidate.success = true ∧ Text.isAllBlank candidate.code = false)
      (hinspect : σ₁.inspect e s candidate.artifact = (.error f, σ₂)) :
      Plays σ ⟨hints, .unreported candidate f⟩ σ₂
  | reported (hints : Hints) (candidate : Candidate) (report : Report) (σ₁ σ₂ : Session ω)
      (hpropose : σ.propose e s c hints = (.ok candidate, σ₁))
      (hfull : candidate.success = true ∧ Text.isAllBlank candidate.code = false)
      (hinspect : σ₁.inspect e s candidate.artifact = (.ok report, σ₂)) :
      Plays σ ⟨hints, .reported candidate report⟩
        (σ₂.countUses hints.abstractions report.passed)

/-- Rounds one after the other. -/
inductive Played : Session ω → List Round → Session ω → Prop
  | nil (σ : Session ω) : Played σ [] σ
  | cons {σ σ₁ σ₂ : Session ω} {round : Round} {rounds : List Round}
      (hround : Plays e s c σ round σ₁) (hrounds : Played σ₁ rounds σ₂) :
      Played σ (round :: rounds) σ₂

variable {e s c}

theorem Plays.actions {σ σ' : Session ω} {round : Round} (h : Plays e s c σ round σ') :
    σ'.actions = round.actions s ++ σ.actions := by
  cases h with
  | failed hints f _ hpropose => exact congrArg (·.2.actions) hpropose.symm
  | empty hints candidate _ hpropose _ => exact congrArg (·.2.actions) hpropose.symm
  | unreported hints candidate f σ₁ _ hpropose _ hinspect =>
    have hproposed : σ₁.actions = .proposed s hints :: σ.actions :=
      congrArg (·.2.actions) hpropose.symm
    have hinspected : σ'.actions = .inspected s candidate.artifact :: σ₁.actions :=
      congrArg (·.2.actions) hinspect.symm
    rw [hinspected, hproposed]
    rfl
  | reported hints candidate report σ₁ σ₂ hpropose _ hinspect =>
    have hproposed : σ₁.actions = .proposed s hints :: σ.actions :=
      congrArg (·.2.actions) hpropose.symm
    have hinspected : σ₂.actions = .inspected s candidate.artifact :: σ₁.actions :=
      congrArg (·.2.actions) hinspect.symm
    change σ₂.actions = _
    rw [hinspected, hproposed]
    rfl

theorem Plays.shown {σ σ' : Session ω} {round : Round} (h : Plays e s c σ round σ')
    {candidate : Candidate} (hshown : round.answer.shown? = some candidate) :
    candidate.success = true ∧ Text.isAllBlank candidate.code = false := by
  cases h with
  | failed hints f _ _ => cases hshown
  | empty hints _ _ _ _ => cases hshown
  | unreported hints _ f _ _ _ hfull _ =>
    cases hshown
    exact hfull
  | reported hints _ report _ _ _ hfull _ =>
    cases hshown
    exact hfull

theorem Played.actions {σ σ' : Session ω} {rounds : List Round} (h : Played e s c σ rounds σ') :
    σ'.actions = rounds.reverse.flatMap (Round.actions s) ++ σ.actions := by
  induction h with
  | nil σ => rfl
  | cons hround _ ih =>
    rw [ih, hround.actions, List.reverse_cons, List.flatMap_append, List.flatMap_singleton,
      List.append_assoc]

theorem Played.shown {σ σ' : Session ω} {rounds : List Round} (h : Played e s c σ rounds σ') :
    ∀ round ∈ rounds, ∀ candidate, round.answer.shown? = some candidate →
      candidate.success = true ∧ Text.isAllBlank candidate.code = false := by
  induction h with
  | nil σ => simp
  | cons hround _ ih => exact List.forall_mem_cons.mpr ⟨fun _ hshown => hround.shown hshown, ih⟩

/-- The rounds are counted from `k` on, the first is told these issues, and every other one the
issues of the round before it. -/
structure Chained (hints : Hints) (k : Int) (issues : List String) (rounds : List Round) :
    Prop where
  counted : ∀ (i : Nat) (round : Round), rounds[i]? = some round →
    round.hints = { hints with attempt := k + i, issues := round.hints.issues }
  first : ∀ round, rounds[0]? = some round → round.hints.issues = issues
  next : ∀ (i : Nat) (round later : Round), rounds[i]? = some round →
    rounds[i + 1]? = some later → round.answer.issues? = some later.hints.issues

variable {hints : Hints} {k : Int} {issues : List String} {answer : Answer}

theorem chained_nil : Chained hints k issues [] where
  counted i round hround := by simp at hround
  first round hround := by simp at hround
  next i round later hround _ := by simp at hround

theorem Chained.cons {told : List String} {rounds : List Round}
    (h : Chained hints (k + 1) told rounds) (hissues : rounds ≠ [] → answer.issues? = some told) :
    Chained hints k issues (⟨{ hints with attempt := k, issues }, answer⟩ :: rounds) where
  counted i round hround := by
    cases i with
    | zero =>
      cases hround
      simp
    | succ i =>
      rw [h.counted i round hround]
      simp only [Hints.mk.injEq, true_and, and_true]
      omega
  first round hround := by
    cases hround
    rfl
  next i round later hround hlater := by
    cases i with
    | zero =>
      cases hround
      rw [h.first later hlater]
      exact hissues fun hnone => by simp [hnone] at hlater
    | succ i => exact h.next i round later hround hlater

theorem Ends.mono {spent spent' : Prop} {stopped : Option Interruption}
    {out : Except Failure Artifact} (h : Ends spent stopped answer out) (himp : spent → spent') :
    Ends spent' stopped answer out := by
  cases h with
  | interrupted f hfailure why hstopped => exact .interrupted f hfailure why hstopped
  | failed f hfailure hwaiting => exact .failed f hfailure hwaiting
  | accepted candidate report hanswer hpassed => exact .accepted candidate report hanswer hpassed
  | spent issues hissues hspent => exact .spent issues hissues (himp hspent)

/-- A failed collaborator ends the leaf, whether its caller waits or not. -/
theorem ends_leafFailure {spent : Prop} {f : Failure} (hfailure : answer.failure? = some f)
    (stopped : Option Interruption) :
    Ends spent stopped answer (.error (leafFailure stopped f)) := by
  cases stopped with
  | some why => exact .interrupted f hfailure why rfl
  | none => exact .failed f hfailure rfl

variable (e s c) in
/-- From a session on, at most `n` rounds lead to this outcome and this session. -/
def InRounds (hints : Hints) (n : Nat) (k : Int) (issues : List String) (σ : Session ω)
    (out : Except Failure Artifact × Session ω) : Prop :=
  ∃ rounds, Played e s c σ rounds out.2 ∧ rounds.length ≤ n ∧ Chained hints k issues rounds ∧
    (rounds = [] → n = 0 ∧ out.1 = .error (.validation issues)) ∧
    ∀ last, rounds.getLast? = some last →
      Ends (rounds.length = n) out.2.stopped last.answer out.1

variable {n : Nat} {σ σ₁ : Session ω} {out : Except Failure Artifact × Session ω}

/-- A round that ends the leaf. -/
theorem InRounds.last
    (hround : Plays e s c σ ⟨{ hints with attempt := k, issues }, answer⟩ out.2)
    (hends : Ends False out.2.stopped answer out.1) :
    InRounds e s c hints (n + 1) k issues σ out := by
  have hlater : Chained hints (k + 1) [] [] := chained_nil
  refine ⟨[_], .cons hround (.nil _), by simp, hlater.cons (by simp), by simp, ?_⟩
  rintro last ⟨⟩
  exact hends.mono False.elim

/-- A round that leaves issues, and the rounds after it. -/
theorem InRounds.step {told : List String}
    (hround : Plays e s c σ ⟨{ hints with attempt := k, issues }, answer⟩ σ₁)
    (hissues : answer.issues? = some told) (hlater : InRounds e s c hints n (k + 1) told σ₁ out) :
    InRounds e s c hints (n + 1) k issues σ out := by
  obtain ⟨rounds, hplayed, hlength, hchained, hnone, hends⟩ := hlater
  refine ⟨_ :: rounds, .cons hround hplayed, by simpa using hlength,
    hchained.cons fun _ => hissues, by simp, ?_⟩
  intro last hlast
  cases rounds with
  | nil =>
    obtain ⟨rfl, hout⟩ := hnone rfl
    cases hlast
    rw [hout]
    exact .spent told hissues rfl
  | cons round rounds =>
    rw [List.getLast?_cons_cons] at hlast
    exact (hends last hlast).mono fun hspent => by simpa using hspent

theorem leafTries_inRounds (n : Nat) (k : Int) (issues : List String) (σ : Session ω) :
    InRounds e s c hints n k issues σ (e.leafTries s c hints n k issues σ) := by
  induction n generalizing k issues σ with
  | zero => exact ⟨[], .nil σ, by simp, chained_nil, fun _ => ⟨rfl, rfl⟩, by simp⟩
  | succ n ih =>
    have hoffers := leafTries_offers e s c hints n k issues σ
    generalize e.leafTries s c hints (n + 1) k issues σ = out at hoffers ⊢
    cases hoffers with
    | unproposed f σ₁ hpropose => exact .last (.failed _ f σ₁ hpropose) (ends_leafFailure rfl _)
    | empty candidate σ₁ hpropose hempty =>
      refine .step (.empty _ candidate σ₁ hpropose ?_) rfl (ih _ _ _)
      simpa using hempty
    | uninspected candidate σ₁ σ₂ f hpropose hfull hinspect =>
      refine .last (.unreported _ candidate f σ₁ σ₂ hpropose ?_ hinspect) (ends_leafFailure rfl _)
      simpa using hfull
    | accepted candidate σ₁ σ₂ report hpropose hfull hinspect hpassed =>
      have hround := Plays.reported { hints with attempt := k, issues } candidate report σ₁ σ₂
        hpropose (by simpa using hfull) hinspect
      rw [hpassed] at hround
      exact .last hround (.accepted candidate report rfl hpassed)
    | rejected candidate σ₁ σ₂ report hpropose hfull hinspect hpassed =>
      have hround := Plays.reported { hints with attempt := k, issues } candidate report σ₁ σ₂
        hpropose (by simpa using hfull) hinspect
      rw [hpassed] at hround
      exact .step hround (by simp [Answer.issues?, hpassed]) (ih _ _ _)

/-- A leaf is solved in rounds, at most one more than candidates may be rejected. Each round is told
the issues of the one before it, and the first one none; only successful candidates that are not
blank are shown to the validators; and the last round decides how the leaf ends. -/
theorem leaf_in_rounds (e : Engine ω) (depth : Int) (s : Specification) (c : Context)
    (σ : Session ω) :
    ∃ rounds,
      Played e s c (σ.findAbstractions e s c maxAbstractions).2 rounds (e.leaf depth s c σ).2 ∧
      (e.leaf depth s c σ).2.actions = rounds.reverse.flatMap (Round.actions s) ++ σ.actions ∧
      rounds.length ≤ (e.settings.maxValidationRetries + 1).toNat ∧
      (∀ (i : Nat) (round : Round), rounds[i]? = some round →
        round.hints =
          { abstractions := (σ.findAbstractions e s c maxAbstractions).1
            depth
            attempt := i
            issues := round.hints.issues }) ∧
      (∀ round, rounds[0]? = some round → round.hints.issues = []) ∧
      (∀ (i : Nat) (round later : Round), rounds[i]? = some round →
        rounds[i + 1]? = some later → round.answer.issues? = some later.hints.issues) ∧
      (∀ round ∈ rounds, ∀ candidate, round.answer.shown? = some candidate →
        candidate.success = true ∧ Text.isAllBlank candidate.code = false) ∧
      (rounds = [] → (e.settings.maxValidationRetries + 1).toNat = 0 ∧
        (e.leaf depth s c σ).1 = .error (.validation [])) ∧
      ∀ last, rounds.getLast? = some last →
        Ends (rounds.length = (e.settings.maxValidationRetries + 1).toNat)
          (e.leaf depth s c σ).2.stopped last.answer (e.leaf depth s c σ).1 := by
  obtain ⟨rounds, hplayed, hlength, hchained, hnone, hends⟩ :
      InRounds e s c { abstractions := (σ.findAbstractions e s c maxAbstractions).1, depth }
        (e.settings.maxValidationRetries + 1).toNat 0 []
        (σ.findAbstractions e s c maxAbstractions).2 (e.leaf depth s c σ) :=
    leafTries_inRounds _ _ _ _
  have hfound : (σ.findAbstractions e s c maxAbstractions).2.actions = σ.actions := by
    unfold Session.findAbstractions
    cases σ.abstractions with
    | none => rfl
    | some library => rfl
  refine ⟨rounds, hplayed, by rw [hplayed.actions, hfound], hlength, ?_, hchained.first,
    hchained.next, hplayed.shown, hnone, hends⟩
  intro i round hround
  have hcounted := hchained.counted i round hround
  rwa [Int.zero_add] at hcounted

end Engine

end Synthesis
