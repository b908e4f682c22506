import Synthesis.Proofs.Origin
import Synthesis.Proofs.Keys
import Synthesis.Settings.Check

/-!
Repeated calls. Whatever a call has made of the solutions on its way, a solution it comes to is
entered last, or was found and stays; so right after the call it is found under its key. A call
that asks for the same task in a context of the same content has the same key, and takes it over.
-/
namespace Synthesis.Engine

variable {ω : Type} {e : Engine ω} {s : Specification} {c : Context}

/-- After a call that came to a solution, the solution is found. -/
theorem synthesize_leaves_solution {σ : Session ω} {a : Artifact}
    (hout : (e.synthesize s c σ).1.outcome = .ok a) :
    ((e.synthesize s c σ).2.solutions.get ((e.synthesize s c σ).2.now e)
      (solutionKey s c.contentKey)).1 = some a := by
  have hbelow := solve_eq_visit e e.settings.maxDepth.toNat 0
  generalize e.solverBelow e.settings.maxDepth.toNat 0 = below at hbelow
  unfold synthesize at hout ⊢
  rw [hbelow] at hout ⊢
  dsimp only at hout ⊢
  have hvisits := visit_visits e below 0 s c { σ with visits := 0, actions := [] }
  generalize e.visit below 0 s c { σ with visits := 0, actions := [] } = out at hvisits hout ⊢
  cases hvisits with
  | turnedAway why hstopped => cases hout
  | refused hstopped hover => cases hout
  | remembered hstopped hwithin artifact hretrieve =>
    cases hout
    exact Cache.get_get hretrieve
  | unrouted hstopped hwithin hretrieve f hchoose => cases hout
  | routed hstopped hwithin hretrieve m hchoose =>
    obtain ⟨cache, hcache⟩ := attempts_remembers hout
    rw [hcache]
    exact Cache.get_set cache _ _ a

/-- When a call has come to a solution, a call for the same task in a context of the same content,
at the time at which it ended and with the solutions as they were left, takes it over: it makes one
visit, asks no strategy and no collaborator, whichever there are, and leaves everything else as it
was. -/
theorem repeated_call_takes_over {e' : Engine ω} {s' : Specification} {c' : Context}
    (hvalid : e'.settings.error? = none) (htask : s.SameTask s')
    (hc : c.solved.Proper) (hcontent : c.SameContent c') {σ σ' : Session ω}
    (hnow : σ'.now e' = (e.synthesize s c σ).2.now e)
    {a : Artifact} (hout : (e.synthesize s c σ).1.outcome = .ok a)
    (hsolutions : σ'.solutions = (e.synthesize s c σ).2.solutions)
    (hlive : σ'.stopped = none) :
    (e'.synthesize s' c' σ').1 =
        { outcome := .ok a, iterations := 1, cached := true,
          phases := [.start, .cacheCheck, .cached, .done] } ∧
      (e'.synthesize s' c' σ').2 =
        { σ' with
          solutions := (e'.synthesize s' c' σ').2.solutions
          visits := 1
          actions := [.admitted 0] } := by
  have hkey : solutionKey s' c'.contentKey = solutionKey s c.contentKey := by
    rw [Context.contentKey_congr hc hcontent, Specification.solutionKey_congr htask]
  have hget : (σ'.solutions.get (σ'.now e') (solutionKey s' c'.contentKey)).1 = some a := by
    rw [hsolutions, hnow, hkey]
    exact synthesize_leaves_solution hout
  have hcall := synthesize_of_get (s := s') (c := c') hlive
    (Settings.one_le_maxIterations hvalid) hget
  rw [hcall]
  exact ⟨rfl, rfl⟩

/-- A job has a single step. -/
def intoStep : Strategy where
  metadata := { name := "step", description := "", keywords := [] }
  canHandle _ _ := true
  decompose s _ :=
    if s.description = "job" then .ok [{ specification := { description := "step" } }] else .ok []
  estimate _ _ := 1

/-- Has room for one solution only, so that the job drives out its step. -/
def narrow : Engine Unit where
  settings := { cache := { solutionMaxSize := 1 }, policy := { enabled := false } }
  router := .new ⟨[intoStep]⟩ 0 .inOrder
  collaborators := { generator := fun _ _ _ => Request.answer { success := true, code := "done" } }
  clock := fun _ => 0

def job : Specification := { description := "job" }

/-- The same job with a test, and with no constraints instead of none given. -/
def testedJob : Specification :=
  { job with constraints := some [], tests := some [{ name := "finished" }] }

def bench : Context :=
  ⟨some {
    primitives := some ["saw"]
    library := some (.ofList [("vice", .null)])
    solved := some (.ofList [("plan", { code := "draw" })]) }⟩

/-- The same bench, put together another way. -/
def otherBench : Context :=
  ⟨some { Contents.fresh with
    primitives := some ["saw", "saw"]
    library := some (.ofList [("vice", .bool true)])
    solved := some (.ofList [("plan", { code := "guess" }), ("plan", { code := "draw" })]) }⟩

/-- The session after the first call, with a caller who has not been stopped. -/
def jobDone : Session Unit :=
  { (narrow.synthesize job bench (freshSession narrow.settings)).2 with stopped := none }

theorem bench_proper : bench.solved.Proper := List.nodup_singleton _

theorem bench_sameContent : bench.SameContent otherBench where
  primitives name := by
    change name ∈ ["saw"] ↔ name ∈ ["saw", "saw"]
    simp
  library _ := Iff.rfl
  solved _ := rfl

/-- The job is taken over although there was room for one solution only and the step was solved
on the way. -/
theorem repeated_job_takes_over :
    narrow.settings.error? = none ∧ job.SameTask testedJob ∧ bench.solved.Proper ∧
      bench.SameContent otherBench ∧
      ∃ a, (narrow.synthesize job bench (freshSession narrow.settings)).1.outcome = .ok a ∧
        (narrow.synthesize testedJob otherBench jobDone).1 =
          { outcome := .ok a, iterations := 1, cached := true,
            phases := [.start, .cacheCheck, .cached, .done] } := by
  have hvalid : narrow.settings.error? = none := by decide +kernel
  have htask : job.SameTask testedJob := ⟨rfl, rfl, rfl⟩
  have hsolved : (narrow.synthesize job bench
      (freshSession narrow.settings)).1.solution?.isSome = true := by decide +kernel
  obtain ⟨a, ha⟩ := Option.isSome_iff_exists.mp hsolved
  have hout := solution?_eq_some ha
  have hsolutions : jobDone.solutions =
      (narrow.synthesize job bench (freshSession narrow.settings)).2.solutions := rfl
  have hnow : jobDone.now narrow =
      (narrow.synthesize job bench (freshSession narrow.settings)).2.now narrow := rfl
  have htaken := repeated_call_takes_over hvalid htask bench_proper bench_sameContent hnow hout
    hsolutions rfl
  exact ⟨hvalid, htask, bench_proper, bench_sameContent, a, hout, htaken.1⟩

end Synthesis.Engine
