import Synthesis.Proofs.Inspection
import Mathlib.Data.List.Nodup

/-!
Remembered verdicts. A runner whose answer hangs on the test and the code alone is asked again and
again, by one validation after the other, and what it answered is remembered as long as the cache
keeps it. A remembered verdict is the answer that the runner would give, so no report and no
failure shows whether anything was remembered. A failed run leaves nothing behind.
-/
namespace Synthesis

namespace Validator

variable {ω : Type} {runner : TestRunner ω} {runtime : String}
  {answer : TestCase → String → Except Failure Bool} {T : TestCase → String → Prop}

/-- The runner gives these answers under all circumstances. -/
def Gives (runner : TestRunner ω) (answer : TestCase → String → Except Failure Bool) : Prop :=
  ∀ t code call x, (runner t code call x).outcome = answer t code

/-- Runs that are answered differently have different keys, as they do when keys tell the contents
of tests and the codes apart. -/
def AnsweredApart (runtime : String) (answer : TestCase → String → Except Failure Bool)
    (T : TestCase → String → Prop) : Prop :=
  ∀ t code t' code', T t code → T t' code' →
    executionKey runtime t code = executionKey runtime t' code' → answer t code = answer t' code'

/-- A remembered verdict was answered to one of these runs with that key. -/
def AnswerOf (runtime : String) (answer : TestCase → String → Except Failure Bool)
    (T : TestCase → String → Prop) (key : String) (passed : Bool) : Prop :=
  ∃ t code, T t code ∧ executionKey runtime t code = key ∧ answer t code = .ok passed

/-- All verdicts that a bench remembers, if it does, were answered. -/
def BenchAnswers (runtime : String) (answer : TestCase → String → Except Failure Bool)
    (T : TestCase → String → Prop) (bench : Bench ω) : Prop :=
  ∀ cache ∈ bench.results, cache.Holds (AnswerOf runtime answer T)

/-- One test: the reply is the runner's answer, be it remembered or new. -/
theorem runTest_answers (hgives : Gives runner answer) (hapart : AnsweredApart runtime answer T)
    (clock : ω → Int) {t : TestCase} {code : String} (ht : T t code) (call : Call) {bench : Bench ω}
    (hbench : BenchAnswers runtime answer T bench) :
    (runTest runner runtime clock t code call bench).outcome = answer t code ∧
      BenchAnswers runtime answer T (runTest runner runtime clock t code call bench).state ∧
      (runTest runner runtime clock t code call bench).state.results.isSome =
        bench.results.isSome := by
  have hanswer := hgives t code call bench.world
  have hruns := runTest_runsTest runner runtime clock t code call bench
  generalize runTest runner runtime clock t code call bench = reply at hruns ⊢
  cases hruns with
  | remembered cache passed hcache hget =>
    have hholds := hbench cache hcache
    obtain ⟨t', code', ht', hkey, hpassed⟩ := hholds.of_get hget
    refine ⟨?_, ?_, by rw [hcache]; rfl⟩
    · rw [← hapart t' code' t code ht' ht hkey, hpassed]
    · intro cache' hcache'
      cases hcache'
      exact hholds.get _ _
  | failed f hout =>
    exact ⟨hout.symm.trans hanswer, lookedUp_holds hbench clock _, Option.isSome_map⟩
  | run passed hout =>
    refine ⟨hout.symm.trans hanswer, ?_, Option.isSome_map.trans Option.isSome_map⟩
    intro cache hcache
    obtain ⟨old, hold, rfl⟩ := Option.map_eq_some_iff.mp hcache
    apply (lookedUp_holds hbench clock _ old hold).set _
    exact ⟨t, code, ht, rfl, hanswer.symm.trans hout⟩

/-- The issues of the tests from the given number on, as the answers have it. -/
def issuesOf (answer : TestCase → String → Except Failure Bool) (code : String) :
    Nat → List TestCase → Except Failure (List String)
  | _, [] => .ok []
  | i, t :: rest =>
    match answer t code with
    | .error f => .error (.wrapped ("run test " ++ Decimal.natText i) f)
    | .ok passed => (issuesOf answer code (i + 1) rest).map fun issues =>
      if passed then issues else ("test " ++ testLabel t i ++ " failed") :: issues

theorem runTests_answers (hgives : Gives runner answer) (hapart : AnsweredApart runtime answer T)
    (clock : ω → Int) (code : String) (i : Nat) {ts : List TestCase} (hts : ∀ t ∈ ts, T t code)
    (call : Call) {bench : Bench ω} (hbench : BenchAnswers runtime answer T bench) :
    (runTests runner runtime clock code i ts call bench).outcome = issuesOf answer code i ts ∧
      BenchAnswers runtime answer T (runTests runner runtime clock code i ts call bench).state ∧
      (runTests runner runtime clock code i ts call bench).state.results.isSome =
        bench.results.isSome := by
  induction ts generalizing i call bench with
  | nil => exact ⟨rfl, hbench, rfl⟩
  | cons t rest ih =>
    obtain ⟨ht, hrest⟩ := List.forall_mem_cons.mp hts
    obtain ⟨hout, hkept, hsome⟩ := runTest_answers hgives hapart clock ht call hbench
    unfold runTests issuesOf
    dsimp only
    rw [hout]
    cases answer t code with
    | error f => exact ⟨rfl, hkept, hsome⟩
    | ok passed =>
      obtain ⟨hlater, hlast, hstill⟩ := ih (i + 1) hrest
        { call with stopped := (runTest runner runtime clock t code call bench).stopped } hkept
      dsimp only
      rw [hlater]
      exact ⟨rfl, hlast, hstill.trans hsome⟩

/-- A validation: the clock and the circumstances of it, and what is validated. -/
structure Occasion (ω : Type) where
  clock : ω → Int
  call : Call := {}
  specification : Specification
  artifact : Artifact

/-- One of the validations asks for this test of this code. -/
def Tried (occasions : List (Occasion ω)) (t : TestCase) (code : String) : Prop :=
  ∃ o ∈ occasions, t ∈ o.specification.testList ∧ code = o.artifact.code

/-- The outcomes of validations one after the other, and the bench after them. -/
def validations (runner : TestRunner ω) (runtime : String) :
    List (Occasion ω) → Bench ω → List (Except Failure Report) × Bench ω
  | [], bench => ([], bench)
  | o :: rest, bench =>
    let reply := tests runner runtime o.clock o.specification o.artifact o.call bench
    let later := validations runner runtime rest reply.state
    (reply.outcome :: later.1, later.2)

def Occasion.report (answer : TestCase → String → Except Failure Bool) (o : Occasion ω) :
    Except Failure Report :=
  (issuesOf answer o.artifact.code 0 o.specification.testList).map fun issues =>
    ⟨issues.isEmpty, issues⟩

theorem validations_answers (hgives : Gives runner answer)
    (hapart : AnsweredApart runtime answer T) {occasions : List (Occasion ω)}
    (hT : ∀ t code, Tried occasions t code → T t code) {bench : Bench ω}
    (hbench : BenchAnswers runtime answer T bench) :
    (validations runner runtime occasions bench).1 = occasions.map (·.report answer) ∧
      BenchAnswers runtime answer T (validations runner runtime occasions bench).2 ∧
      (validations runner runtime occasions bench).2.results.isSome = bench.results.isSome := by
  induction occasions generalizing bench with
  | nil => exact ⟨rfl, hbench, rfl⟩
  | cons o rest ih =>
    have hown : ∀ t ∈ o.specification.testList, T t o.artifact.code :=
      fun t ht => hT t _ ⟨o, List.mem_cons_self, ht, rfl⟩
    have hlater : ∀ t code, Tried rest t code → T t code := by
      rintro t code ⟨o', ho', ht⟩
      exact hT t code ⟨o', List.mem_cons_of_mem o ho', ht⟩
    obtain ⟨hout, hkept, hsome⟩ :=
      runTests_answers hgives hapart o.clock o.artifact.code 0 hown o.call hbench
    obtain ⟨houts, hlast, hstill⟩ := ih hlater hkept
    refine ⟨?_, hlast, hstill.trans hsome⟩
    rw [List.map_cons, ← houts, Occasion.report, ← hout]
    rfl

/-- Validations with a cache for verdicts, whatever its size and lifetime and however the clock
moves between them and during them, come to the same reports and failures as validations without
one, and a run that failed is never remembered. -/
theorem remembering_is_invisible (hgives : Gives runner answer) (size lifetime : Int)
    (occasions : List (Occasion ω)) (hapart : AnsweredApart runtime answer (Tried occasions))
    (world world' : ω) :
    let remembering := validations runner runtime occasions
      ⟨some (ExecutionCache.new size lifetime), world⟩
    let plain := validations runner runtime occasions ⟨none, world'⟩
    remembering.1 = plain.1 ∧ ∃ cache, remembering.2.results = some cache ∧
      ∀ t code f, Tried occasions t code → answer t code = .error f →
        cache.entries.get? (executionKey runtime t code) = none := by
  intro remembering plain
  have hempty : BenchAnswers runtime answer (Tried occasions)
      (⟨some (ExecutionCache.new size lifetime), world⟩ : Bench ω) := by
    intro cache hcache
    cases hcache
    exact fun x hx => absurd hx List.not_mem_nil
  have hnone : BenchAnswers runtime answer (Tried occasions) (⟨none, world'⟩ : Bench ω) :=
    fun cache hcache => by cases hcache
  obtain ⟨houts, hlast, hsome⟩ := validations_answers hgives hapart (fun _ _ h => h) hempty
  have hplain := (validations_answers hgives hapart (fun _ _ h => h) hnone).1
  refine ⟨houts.trans hplain.symm, ?_⟩
  obtain ⟨cache, hcache⟩ := Option.isSome_iff_exists.mp hsome
  refine ⟨cache, hcache, ?_⟩
  intro t code f ht hfailed
  rw [← Option.not_isSome_iff_eq_none, Option.isSome_iff_exists]
  rintro ⟨entry, hentry⟩
  -- The remembered verdict would be the answer to a run with the same key.
  obtain ⟨t', code', ht', hkey, hpassed⟩ :=
    hlast cache hcache _ (Table.mem_of_find_eq_some hentry)
  rw [← hapart t' code' t code ht' ht hkey, hpassed] at hfailed
  cases hfailed

/-- Finds every draft wanting, and fails on one of the tests. -/
def verdictOn (t : TestCase) (code : String) : Except Failure Bool :=
  if t.name = "broken" then .error (.plain "no such module") else .ok (code != "draft")

def examiner : TestRunner Unit := fun t code call world => ⟨verdictOn t code, call.stopped, world⟩

def sound : TestCase := { name := "sound" }

def broken : TestCase := { name := "broken" }

/-- A run that fails after a verdict, the same tests of other code, and the first test again when
its verdict is expired, on a clock that goes back in between. -/
def reviews : List (Occasion Unit) :=
  [{ clock := fun _ => 0
     specification := { tests := some [sound, broken] }
     artifact := { code := "draft" } },
    { clock := fun _ => -5
      specification := { tests := some [sound, broken] }
      artifact := { code := "final" } },
    { clock := fun _ => 9
      specification := { tests := some [sound] }
      artifact := { code := "draft" } }]

def reviewed : List (TestCase × String) :=
  [(sound, "draft"), (broken, "draft"), (sound, "final"), (broken, "final")]

theorem mem_reviewed {t : TestCase} {code : String} (h : Tried reviews t code) :
    (t, code) ∈ reviewed := by
  obtain ⟨o, ho, ht, rfl⟩ := h
  simp only [reviews, List.mem_cons, List.not_mem_nil, or_false] at ho
  rcases ho with rfl | rfl | rfl
  all_goals
    simp only [Specification.testList, Option.getD_some, List.mem_cons, List.not_mem_nil,
      or_false] at ht
    rcases ht with rfl | rfl <;> simp [reviewed]

theorem answeredApart_reviews : AnsweredApart "" verdictOn (Tried reviews) := by
  have hnodup : (reviewed.map fun x => executionKey "" x.1 x.2).Nodup := by decide +kernel
  intro t code t' code' ht ht' hkey
  have hpair : (t, code) = (t', code') :=
    List.inj_on_of_nodup_map hnodup (mem_reviewed ht) (mem_reviewed ht') hkey
  obtain ⟨rfl, rfl⟩ := Prod.mk.inj hpair
  rfl

/-- With room for one verdict that lasts a moment, nothing shows. -/
theorem remembering_is_invisible_reviews :
    Gives examiner verdictOn ∧ AnsweredApart "" verdictOn (Tried reviews) ∧
      (validations examiner "" reviews ⟨some (ExecutionCache.new 1 1), ()⟩).1 =
        (validations examiner "" reviews ⟨none, ()⟩).1 := by
  have hgives : Gives examiner verdictOn := fun _ _ _ _ => rfl
  exact ⟨hgives, answeredApart_reviews,
    (remembering_is_invisible hgives 1 1 reviews answeredApart_reviews () ()).1⟩

end Validator

end Synthesis
