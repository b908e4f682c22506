import Synthesis.Proofs.Findings
import Synthesis.Proofs.Inspection
import Synthesis.Proofs.Invariants
import Synthesis.Proofs.Lines
import Synthesis.Proofs.Budget

/-!
What can leak from a solution. A leaf takes no candidate in which the policy finds anything that
counts, and composition only moves lines about, but nobody looks at the headings that a dispatcher
puts above its branches. So a leak that counts stands in such a heading: in the summary of a
specification or in a condition.
-/
namespace Synthesis.Engine

open Text Synthesis.Composition Validator

variable {ω : Type}

/-- A line of a heading that a dispatcher for the specification, or for a subproblem somewhere
below it, may have. -/
inductive Heading (strategies : List Strategy) : Specification → String → Prop
  | own {s : Specification} {subs : List Subproblem} {head line : String}
      (hsplit : Splits strategies s subs) (hselect : Composer.select subs = .function)
      (hhead : head ∈ headings s.summary subs) (hline : line ∈ lines head) :
      Heading strategies s line
  | deeper {s : Specification} {subs : List Subproblem} {p : Subproblem} {line : String}
      (hsplit : Splits strategies s subs) (hp : p ∈ subs)
      (h : Heading strategies p.specification line) : Heading strategies s line

/-- The least confidence of a finding that counts. -/
def leastConfidence (e : Engine ω) : Confidence :=
  LeakPolicy.threshold e.settings.policy.minConfidence

/-- The engine has candidates scanned, and by patterns that blanks do not matter to. -/
structure Scans (e : Engine ω) : Prop where
  enabled : e.settings.policy.enabled = true
  solid : e.policy.IsSolid
  fallback : e.policy.leaks e.leastConfidence "  otherwise:" = false

theorem scans_builtin {e : Engine ω} (henabled : e.settings.policy.enabled = true)
    (hpolicy : e.policy = .builtin) : e.Scans where
  enabled := henabled
  solid := by
    rw [hpolicy]
    exact LeakPolicy.builtin_isSolid
  fallback := by
    rw [hpolicy]
    exact LeakPolicy.builtin_leaks_otherwise

/-- A line that leaks is one of these, up to the blanks around it. -/
def Traced (e : Engine ω) (H : String → Prop) (line : String) : Prop :=
  e.policy.leaks e.leastConfidence line = true → ∃ head, H head ∧ trim line = trim head

/-- What leaks from a remembered solution can be traced. -/
def TracedMemory (e : Engine ω) (H : String → Prop) (σ : Session ω) : Prop :=
  σ.solutions.Holds fun _ a => AllLines (e.Traced H) a.code

section

variable {e : Engine ω} {s : Specification} {c : Context} {H : String → Prop}

theorem ignoresBlanks_traced (hscans : e.Scans) : IgnoresBlanks (e.Traced H) where
  empty hleaks := by
    rw [LeakPolicy.leaks_empty hscans.solid] at hleaks
    cases hleaks
  trim := by
    intro line line' htrim htraced hleaks
    obtain ⟨head, hhead, heq⟩ :=
      htraced (LeakPolicy.leaks_of_trim_eq hscans.solid htrim.symm hleaks)
    exact ⟨head, hhead, htrim.symm.trans heq⟩

theorem Traced.mono {H' : String → Prop} (hsub : ∀ line, H line → H' line) {line : String}
    (h : e.Traced H line) : e.Traced H' line := by
  intro hleaks
  obtain ⟨head, hhead, heq⟩ := h hleaks
  exact ⟨head, hsub head hhead, heq⟩

/-- Nothing that counts is found in a candidate that passes the inspection. -/
theorem inspect_clean (hscans : e.Scans) {a : Artifact} {σ : Session ω} {report : Report}
    (hout : (σ.inspect e s a).1 = .ok report) (hpassed : report.passed = true) :
    ∀ line ∈ lines a.code, e.policy.leaks e.leastConfidence line = false := by
  have hchecks : ∀ v ∈ e.checks, Keeps v s a (fun _ => True) True := by
    refine checks_keep (J := fun _ => True) ?_
    exact fun _ _ => ⟨fun _ _ _ => trivial, fun _ _ _ _ _ _ => trivial⟩
  have hmem : e.policy.validator e.leastConfidence ∈ e.checks := by
    simp [checks, hscans.enabled, leastConfidence]
  have hscan : Keeps (e.policy.validator e.leastConfidence) s a (fun _ : Bench ω => True)
      ((e.policy.report e.leastConfidence a.code).passed = true) := keeps_of_answer rfl
  have hvalidator : Keeps e.validator s a (fun _ => True)
      ((e.policy.report e.leastConfidence a.code).passed = true) :=
    ((Keeps.all hchecks).2 _ hmem _ hscan).retrying e.retryPolicy
  exact (LeakPolicy.report_passed_iff hscans.solid).mp
    (hvalidator.passed _ _ report trivial hout hpassed)

theorem leafKeeps_traced (hscans : e.Scans) :
    LeafKeeps e s c (e.TracedMemory H) fun a _ => AllLines (e.Traced H) a.code where
  find limit σ hσ := by
    unfold TracedMemory
    rw [(σ.findAbstractions_sameMemory e s c limit).solutions]
    exact hσ
  propose _ _ hσ := hσ
  inspect _ _ hσ := hσ
  count _ _ _ hσ := hσ
  passed a σ report hits _ hout hpassed line hline hleaks := by
    rw [inspect_clean hscans hout hpassed line hline] at hleaks
    cases hleaks

/-- A dispatcher adds its headings to what its parts are made of. -/
theorem compose_traced (hscans : e.Scans) {subs : List Subproblem} {parts : List Part}
    {a : Artifact} (hH : ∀ line, Heading e.router.registry.strategies s line → H line)
    (hsplit : Splits e.router.registry.strategies s subs)
    (hparts : PartsOf subs (fun a => AllLines (e.Traced H) a.code) parts)
    (h : (Composer.select subs).compose parts s = .ok a) : AllLines (e.Traced H) a.code := by
  refine Composer.allLines_compose (ignoresBlanks_traced hscans) ?_ h hparts.solutions ?_
  · intro hleaks
    rw [hscans.fallback] at hleaks
    cases hleaks
  · intro hselect head hhead line hline _
    rw [hparts.subproblems] at hhead
    exact ⟨line, hH line (.own hsplit hselect hhead hline), rfl⟩

/-- When all headings below a specification are among these, what leaks from its solution can be
traced to them. -/
theorem callKeeps_traced (hscans : e.Scans) (H : String → Prop) :
    CallKeeps e (fun s => ∀ line, Heading e.router.registry.strategies s line → H line)
      (e.TracedMemory H) fun a => AllLines (e.Traced H) a.code where
  mark _ _ hσ := hσ
  enter _ _ hσ := hσ
  note _ _ _ _ _ hσ := hσ
  choose _ _ _ hσ := hσ
  retrieve _ _ _ hσ := Cache.Holds.get hσ _ _
  retrieved _ _ _ _ hσ hget := Cache.Holds.of_get hσ hget
  remember _ _ _ _ _ hσ ha := Cache.Holds.set hσ _ ha
  leaf _ _ _ := leafKeeps_traced hscans
  parts _ _ hH hsplit _ hp line hline := hH line (.deeper hsplit hp hline)
  composed _ _ _ _ hH hsplit hparts h := compose_traced hscans hH hsplit hparts h

end

/-- A line of a heading that can come from one of the calls. -/
def HeadingOf (strategies : List Strategy) (calls : List (Served ω)) (line : String) : Prop :=
  ∃ y ∈ calls, Heading strategies y.specification line

section

variable {e : Engine ω} {first last : Session ω} {calls : List (Served ω)}

/-- One more call, from what the calls before have left. -/
theorem call_traced (hscans : e.Scans)
    (hrouter : e.router.strategies = e.router.registry.strategies) {H : String → Prop}
    {σ : Session ω} {x : Served ω} (hx : x.Follows e σ)
    (hH : ∀ line, Heading e.router.registry.strategies x.specification line → H line)
    (hσ : e.TracedMemory H σ) :
    e.TracedMemory H x.after ∧
      ∀ a, x.result.outcome = .ok a → AllLines (e.Traced H) a.code := by
  have hengine := hx.engine
  have htraced : x.engine.Traced = e.Traced := by
    rw [hengine]
    rfl
  have hscans' : x.engine.Scans := by
    rw [hengine]
    exact ⟨hscans.enabled, hscans.solid, hscans.fallback⟩
  have hrouter' : x.engine.router = e.router := by rw [hengine]
  have hbefore : x.engine.TracedMemory H x.before := by
    unfold TracedMemory
    rw [hx.solutions, htraced]
    exact hσ
  have hheadings : ∀ line, Heading x.engine.router.registry.strategies x.specification line →
      H line := by
    rw [hrouter']
    exact hH
  have hcall := (callKeeps_traced hscans' H).synthesize (c := x.context) (by rw [hrouter', hrouter])
    hheadings hbefore
  unfold TracedMemory at hcall
  rw [hx.call, htraced] at hcall
  exact hcall

theorem serves_traced (hscans : e.Scans)
    (hrouter : e.router.strategies = e.router.registry.strategies)
    (hfirst : first.solutions.entries = {}) (hcalls : Serves e first calls last) :
    e.TracedMemory (HeadingOf e.router.registry.strategies calls) last ∧
      ∀ before x after, calls = before ++ x :: after → ∀ a, x.result.outcome = .ok a →
        AllLines (e.Traced (HeadingOf e.router.registry.strategies (before ++ [x]))) a.code := by
  induction hcalls with
  | nil =>
    refine ⟨?_, by simp⟩
    intro y hy
    rw [hfirst] at hy
    cases hy
  | @snoc calls σ h x hx ih =>
    obtain ⟨hmemory, hearlier⟩ := ih
    have hmore : e.TracedMemory (HeadingOf e.router.registry.strategies (calls ++ [x])) σ := by
      refine hmemory.imp ?_
      intro key a ha line hline
      refine (ha line hline).mono ?_
      rintro head ⟨y, hy, hheading⟩
      exact ⟨y, List.mem_append_left _ hy, hheading⟩
    obtain ⟨hafter, hlast⟩ := call_traced hscans hrouter hx
      (fun line hline => ⟨x, by simp, hline⟩) hmore
    refine ⟨hafter, ?_⟩
    intro before y after hsplit
    rcases Served.last_or_earlier hsplit with ⟨rfl, rfl⟩ | ⟨between, hsplit⟩
    · exact hlast
    · exact hearlier before y between hsplit

/-- In a sequence of calls of an engine that scans candidates by the built-in policy, from an empty
cache, a finding in a solution that counts is in a line of a heading, one that comes from the
specification of the very call or of an earlier one. -/
theorem leak_is_in_heading (henabled : e.settings.policy.enabled = true)
    (hpolicy : e.policy = .builtin) (hrouter : e.router.strategies = e.router.registry.strategies)
    (hfirst : first.solutions.entries = {}) (hcalls : Serves e first calls last) :
    ∀ before x after, calls = before ++ x :: after → ∀ a, x.result.outcome = .ok a →
      ∀ f ∈ LeakPolicy.builtin.scan a.code, e.leastConfidence.rank ≤ f.rule.confidence.rank →
        ∃ line head, (lines a.code)[f.line - 1]? = some line ∧ trim line = trim head ∧
          HeadingOf e.router.registry.strategies (before ++ [x]) head := by
  intro before x after hsplit a ha f hf hleast
  have htraced := (serves_traced (scans_builtin henabled hpolicy) hrouter hfirst hcalls).2
    before x after hsplit a ha
  obtain ⟨line, hline, hscan⟩ := LeakPolicy.line_of_mem_scan hf
  have hleaks : e.policy.leaks e.leastConfidence line = true := by
    rw [hpolicy]
    exact LeakPolicy.leaks_of_mem_scanLine hscan hleast
  obtain ⟨head, hhead, htrim⟩ := htraced line (List.mem_of_getElem? hline) hleaks
  exact ⟨line, head, hline, htrim, hhead⟩

end

section

/-- Leaves everything to a single case. -/
def whenDue : Strategy :=
  { intoHalves with
    decompose := fun _ _ =>
      .ok [{ specification := { description := "issue" }, condition := "due" }] }

def dispatching (policy : LeakPolicy) : Engine Unit where
  settings := { maxDepth := 1 }
  router := .new ⟨[whenDue]⟩ 0 .inOrder
  collaborators := { generator := fun _ _ _ => Request.answer { success := true, code := "done" } }
  policy
  clock := fun _ => 0

def rotation : Specification := { description := "rotate AKIA1234567890123456" }

def rotated (policy : LeakPolicy) : Served Unit :=
  .of (dispatching policy) rotation {} (freshSession {})

def rotationCode : String :=
  "dispatch \"rotate AKIA1234567890123456\":\n  when due:\n    done"

theorem rotated_code :
    ∃ a, (rotated .builtin).result.outcome = .ok a ∧ a.code = rotationCode := by
  have hcode : (rotated .builtin).result.solution?.map (·.code) = some rotationCode := by
    rw [LeakPolicy.builtin_eq]
    decide +kernel
  obtain ⟨a, ha, hcode⟩ := Option.map_eq_some_iff.mp hcode
  exact ⟨a, solution?_eq_some ha, hcode⟩

theorem scan_rotationCode : ∃ f ∈ LeakPolicy.builtin.scan rotationCode,
    f.rule.confidence = .high ∧ f.line = 1 ∧ f.matched = "AKIA1234567890123456" := by
  rw [LeakPolicy.builtin_eq]
  decide +kernel

theorem rank_le_of_high {confidence : Confidence} (h : confidence = .high) (least : Confidence) :
    least.rank ≤ confidence.rank := by
  rw [h]
  cases least <;> decide

/-- The leak from the solution of the rotation is in a heading. -/
theorem leak_is_in_heading_rotated : ∃ a, (rotated .builtin).result.outcome = .ok a ∧
    ∃ f ∈ LeakPolicy.builtin.scan a.code, f.rule.confidence = .high ∧
      ∃ line head, (lines a.code)[f.line - 1]? = some line ∧ trim line = trim head ∧
        HeadingOf [whenDue] [rotated .builtin] head := by
  obtain ⟨a, ha, hcode⟩ := rotated_code
  obtain ⟨f, hf, hhigh, _⟩ := scan_rotationCode
  rw [← hcode] at hf
  refine ⟨a, ha, f, hf, hhigh, ?_⟩
  -- What the policy is must not matter from here on, or it is worked out.
  generalize hpolicy : LeakPolicy.builtin = policy at ha ⊢
  have hserves : Serves (dispatching policy) (freshSession {}) [rotated policy]
      (rotated policy).after :=
    Serves.nil.snoc (Served.of_follows _ _ _ rfl rfl rfl rfl)
  have hleast := rank_le_of_high hhigh (dispatching policy).leastConfidence
  exact leak_is_in_heading rfl hpolicy.symm rfl rfl hserves [] _ [] rfl a ha f hf hleast

/-- The key in the description is in the code of the solution, above the branch that was
scanned. -/
theorem title_leaks_key : (dispatching .builtin).settings.policy.enabled = true ∧
    ∃ a f, (rotated .builtin).result.outcome = .ok a ∧ f ∈ LeakPolicy.builtin.scan a.code ∧
      (dispatching .builtin).leastConfidence.rank ≤ f.rule.confidence.rank ∧ f.line = 1 ∧
      f.matched = "AKIA1234567890123456" := by
  obtain ⟨a, ha, hcode⟩ := rotated_code
  obtain ⟨f, hf, hhigh, hline, hmatched⟩ := scan_rotationCode
  rw [← hcode] at hf
  exact ⟨rfl, a, f, ha, hf, rank_le_of_high hhigh _, hline, hmatched⟩

end

end Synthesis.Engine
