import Synthesis.Proofs.Budget

/-!
What becomes of a refused visit when a whole wave of subproblems is finished before its failures
are looked at. Only the first failure counts, in the order of the subproblems, so a refusal can
be masked by a failure ahead of it; the attempt then fails to compose, and another strategy may
go on. The call fails for its budget just when, from the newest refusal on, every failure that
was gathered passed the refusal on; and a refusal is lost only where it was masked.
-/
namespace Synthesis

namespace Action

/-- A failure of the budget counts among the failures gathered, or an attempt has failed. -/
def passesOn : Action → Bool
  | .gathered failures => failures.head?.any (·.kind == .budgetExceeded)
  | .recorded _ _ success => !success
  | _ => false

/-- Some failure gathered is one of the budget, but another one counts. -/
def masks : Action → Bool
  | .gathered failures =>
    failures.any (·.kind == .budgetExceeded) && !failures.head?.any (·.kind == .budgetExceeded)
  | _ => false

theorem passesOn_gathered (failures : List Failure) :
    (gathered failures).passesOn = true ↔
      failures.head?.map Failure.kind = some .budgetExceeded := by
  cases failures with
  | nil => simp [passesOn]
  | cons f rest => simp [passesOn]

/-- Failures among which one is of the budget pass it on or mask it. -/
theorem masks_gathered {failures : List Failure} {f : Failure} (hf : f ∈ failures)
    (hkind : f.kind = .budgetExceeded) (hpass : ¬ (gathered failures).passesOn = true) :
    (gathered failures).masks = true := by
  have hany : failures.any (·.kind == .budgetExceeded) = true :=
    List.any_eq_true.mpr ⟨f, hf, by simp [hkind]⟩
  simpa [masks, hany, passesOn] using hpass

end Action

/-- From the newest refusal on, it has only been passed on. -/
inductive Unwinds : List Action → Prop
  | refused (earlier : List Action) : Unwinds (.refused :: earlier)
  | passed {a : Action} {earlier : List Action} (ha : a.passesOn = true)
      (h : Unwinds earlier) : Unwinds (a :: earlier)

namespace Unwinds

theorem append {new : List Action} (h : Unwinds new) (earlier : List Action) :
    Unwinds (new ++ earlier) := by
  induction h with
  | refused later => exact .refused (later ++ earlier)
  | passed ha _ ih => exact .passed ha ih

theorem mem {new : List Action} (h : Unwinds new) : Action.refused ∈ new := by
  induction h with
  | refused earlier => exact List.mem_cons_self
  | passed _ _ ih => exact List.mem_cons_of_mem _ ih

theorem of_append {new earlier : List Action} (hnew : Action.refused ∉ new)
    (h : Unwinds (new ++ earlier)) : Unwinds earlier := by
  induction new with
  | nil => exact h
  | cons a new ih =>
    cases h with
    | refused => simp at hnew
    | passed _ h => exact ih (fun hmem => hnew (List.mem_cons_of_mem a hmem)) h

/-- What happened before an action that passes nothing on does not matter. -/
theorem of_append_cons {new earlier : List Action} {a : Action} (ha : a.passesOn = false)
    (hne : a ≠ .refused) (h : Unwinds (new ++ a :: earlier)) : Unwinds new := by
  induction new with
  | nil =>
    cases h with
    | refused => exact absurd rfl hne
    | passed hpass _ => simp [ha] at hpass
  | cons b new ih =>
    cases h with
    | refused => exact .refused new
    | passed hpass h => exact .passed hpass (ih h)

theorem append_cons_iff {new earlier : List Action} {a : Action} (ha : a.passesOn = false)
    (hne : a ≠ .refused) : Unwinds (new ++ a :: earlier) ↔ Unwinds new :=
  ⟨of_append_cons ha hne, fun h => h.append _⟩

end Unwinds

namespace Session

variable {ω : Type} {e : Engine ω} {σ σ' σ'' : Session ω}

/-- The next visit would be refused. -/
structure Exhausted (e : Engine ω) (σ : Session ω) : Prop where
  running : σ.stopped = none
  beyond : e.settings.maxIterations < σ.visits + 1

/-- How something that began in one session and ended in another, with a failure of this kind or
with none, accounts for the actions it added. -/
structure Account (e : Engine ω) (σ : Session ω) (new : List Action)
    (kind : Option FailureKind) (σ' : Session ω) : Prop where
  actions_eq : σ'.actions = new ++ σ.actions
  budget_iff : kind = some .budgetExceeded ↔ Unwinds new
  exhausted : kind = some .budgetExceeded → σ'.Exhausted e
  masked : Action.refused ∈ new →
    kind = some .budgetExceeded ∨ ∃ a ∈ new, a.masks = true

/-- What refuses no visit and does not fail for the budget is accounted for. -/
theorem Account.unrefused {new : List Action} {kind : Option FailureKind}
    (hactions : σ'.actions = new ++ σ.actions) (hnew : Action.refused ∉ new)
    (hkind : kind ≠ some .budgetExceeded) : Account e σ new kind σ' where
  actions_eq := hactions
  budget_iff := iff_of_false hkind fun h => hnew h.mem
  exhausted h := absurd h hkind
  masked hmem := absurd hmem hnew

/-- What is done before leaves the account as it is, if its last action passes nothing on. -/
theorem Account.after {new earlier : List Action} {a : Action} {kind : Option FailureKind}
    (h : Account e σ' new kind σ'') (hactions : σ'.actions = a :: earlier ++ σ.actions)
    (ha : a.passesOn = false) (hne : a ≠ .refused)
    (hearlier : Action.refused ∈ earlier → ∃ b ∈ earlier, b.masks = true) :
    Account e σ (new ++ a :: earlier) kind σ'' where
  actions_eq := by rw [h.actions_eq, hactions, List.append_assoc]
  budget_iff := h.budget_iff.trans (Unwinds.append_cons_iff ha hne).symm
  exhausted := h.exhausted
  masked := by
    intro hmem
    rw [List.mem_append, List.mem_cons] at hmem
    rcases hmem with hmem | hmem | hmem
    · rcases h.masked hmem with hkind | ⟨b, hb, hmasks⟩
      · exact Or.inl hkind
      · exact Or.inr ⟨b, List.mem_append_left _ hb, hmasks⟩
    · exact absurd hmem.symm hne
    · obtain ⟨b, hb, hmasks⟩ := hearlier hmem
      exact Or.inr ⟨b, List.mem_append_right _ (List.mem_cons_of_mem a hb), hmasks⟩

/-- What is done afterwards and refuses no visit keeps a failure from being one of the budget. -/
theorem Account.more {new : List Action} {kind kind' : Option FailureKind} (later : List Action)
    (h : Account e σ new kind σ') (hkind : kind ≠ some .budgetExceeded)
    (hactions : σ''.actions = later ++ σ'.actions) (hlater : Action.refused ∉ later)
    (hkind' : kind' ≠ some .budgetExceeded) : Account e σ (later ++ new) kind' σ'' where
  actions_eq := by rw [hactions, h.actions_eq, List.append_assoc]
  budget_iff := iff_of_false hkind' fun hunwinds =>
    hkind (h.budget_iff.mpr (hunwinds.of_append hlater))
  exhausted hbudget := absurd hbudget hkind'
  masked := by
    intro hmem
    rcases List.mem_append.mp hmem with hmem | hmem
    · exact absurd hmem hlater
    · rcases h.masked hmem with hbudget | ⟨a, ha, hmasks⟩
      · exact absurd hbudget hkind
      · exact Or.inr ⟨a, List.mem_append_right _ ha, hmasks⟩

/-- Recording a failed attempt keeps its account. -/
theorem Account.record {new : List Action} {kind : Option FailureKind}
    (h : Account e σ new kind σ') (s : Specification) (name : String) (iterations : Int) :
    Account e σ (.recorded s name false :: new) kind (σ'.note e s name false iterations) where
  actions_eq := by rw [note_actions, h.actions_eq, List.cons_append]
  budget_iff := by
    rw [h.budget_iff]
    constructor
    · exact .passed rfl
    · exact Unwinds.of_append (show Action.refused ∉ [.recorded s name false] by simp)
  exhausted hkind := ⟨(h.exhausted hkind).running, (h.exhausted hkind).beyond⟩
  masked := by
    intro hmem
    have hmem : Action.refused ∈ new := by simpa using hmem
    rcases h.masked hmem with hkind | ⟨a, ha, hmasks⟩
    · exact Or.inl hkind
    · exact Or.inr ⟨a, List.mem_cons_of_mem _ ha, hmasks⟩

end Session

namespace Engine

open Session

variable {ω : Type} {e : Engine ω}

def budgetFailed (r : Result) : Prop := kindOf r.outcome = some .budgetExceeded

/-- The solver accounts for what it does, and refuses when there is nothing left to spend. -/
structure Accountable (e : Engine ω) (solve : Solver ω) : Prop where
  account : ∀ s c σ, ∃ new, Account e σ new (kindOf (solve s c σ).1.outcome) (solve s c σ).2
  refuses : ∀ s c σ, σ.Exhausted e → budgetFailed (solve s c σ).1

/-- A wave accounts for what it does by the results of its members: if one of them fails for the
budget, so does the last one that was visited. -/
structure WaveAccount (e : Engine ω) (σ : Session ω) (new : List Action)
    (results : List (Nat × Result)) (σ' : Session ω) : Prop where
  actions_eq : σ'.actions = new ++ σ.actions
  unwinds : (∃ x ∈ results, budgetFailed x.2) → Unwinds new ∧ σ'.Exhausted e
  masked : Action.refused ∈ new →
    (∃ x ∈ results, budgetFailed x.2) ∨ ∃ a ∈ new, a.masks = true
  idle : results = [] → new = [] ∧ σ' = σ
  refuses : σ.Exhausted e → ∀ x ∈ results, budgetFailed x.2

theorem solveWave_account {solve : Solver ω} (hsolve : e.Accountable solve)
    (subs : List Subproblem) (c : Context) (wave : List Nat) (σ : Session ω) :
    ∃ new, WaveAccount e σ new (solveWave solve subs c wave σ).1
      (solveWave solve subs c wave σ).2 := by
  induction wave generalizing σ with
  | nil =>
    exact ⟨[], rfl, by simp [solveWave], by simp, fun _ => ⟨rfl, rfl⟩, by simp [solveWave]⟩
  | cons i rest ih =>
    cases hsub : subs[i]? with
    | none =>
      rw [solveWave_none rest c hsub]
      exact ih σ
    | some p =>
      obtain ⟨new₁, h₁⟩ := hsolve.account p.specification c σ
      have hrefuses := hsolve.refuses p.specification c σ
      rcases hr : solve p.specification c σ with ⟨r, σ₁⟩
      rw [hr] at h₁ hrefuses
      obtain ⟨new₂, h₂⟩ := ih σ₁
      rw [solveWave_some rest c hsub hr]
      refine ⟨new₂ ++ new₁, ?_, ?_, ?_, fun h => absurd h (List.cons_ne_nil _ _), ?_⟩
      · rw [h₂.actions_eq, h₁.actions_eq, List.append_assoc]
      · rintro ⟨x, hx, hfailed⟩
        by_cases hlater : ∃ x ∈ (solveWave solve subs c rest σ₁).1, budgetFailed x.2
        · have hunwinds := h₂.unwinds hlater
          exact ⟨hunwinds.1.append new₁, hunwinds.2⟩
        · -- Nobody fails for the budget after this member, so nobody comes after it.
          have hthis : budgetFailed r := by
            rcases List.mem_cons.mp hx with rfl | hx
            · exact hfailed
            · exact absurd ⟨x, hx, hfailed⟩ hlater
          have hexhausted := h₁.exhausted hthis
          have hnone : (solveWave solve subs c rest σ₁).1 = [] := by
            rw [List.eq_nil_iff_forall_not_mem]
            intro y hy
            exact hlater ⟨y, hy, h₂.refuses hexhausted y hy⟩
          obtain ⟨rfl, hsame⟩ := h₂.idle hnone
          rw [hsame]
          exact ⟨h₁.budget_iff.mp hthis, hexhausted⟩
      · intro hmem
        rcases List.mem_append.mp hmem with hmem | hmem
        · rcases h₂.masked hmem with ⟨x, hx, hfailed⟩ | ⟨a, ha, hmasks⟩
          · exact Or.inl ⟨x, List.mem_cons_of_mem _ hx, hfailed⟩
          · exact Or.inr ⟨a, List.mem_append_left _ ha, hmasks⟩
        · rcases h₁.masked hmem with hfailed | ⟨a, ha, hmasks⟩
          · exact Or.inl ⟨(i, r), List.mem_cons_self, hfailed⟩
          · exact Or.inr ⟨a, List.mem_append_right _ ha, hmasks⟩
      · intro hexhausted x hx
        have hfailed := hrefuses hexhausted
        rcases List.mem_cons.mp hx with rfl | hx
        · exact hfailed
        · exact h₂.refuses (h₁.exhausted hfailed) x hx

theorem budgetFailed_iff (r : Result) :
    budgetFailed r ↔ ∃ f, r.failure? = some f ∧ f.kind = .budgetExceeded := by
  unfold budgetFailed Result.failure?
  cases r.outcome with
  | ok a => simp [kindOf]
  | error f => simp [kindOf]

/-- Subproblems account for what was done by their failures. -/
structure ChildrenAccount (e : Engine ω) (σ : Session ω) (new : List Action)
    (children : Children) (σ' : Session ω) : Prop where
  actions_eq : σ'.actions = new ++ σ.actions
  unwinds : children.failure.map Failure.kind = some .budgetExceeded →
    Unwinds new ∧ σ'.Exhausted e
  masked : Action.refused ∈ new →
    (∃ f ∈ children.failures, f.kind = .budgetExceeded) ∨ ∃ a ∈ new, a.masks = true

theorem ChildrenAccount.unchanged (children : Children) (hnone : children.failures = [])
    (σ : Session ω) : ChildrenAccount e σ [] children σ where
  actions_eq := rfl
  unwinds h := by simp [Children.failure, hnone] at h
  masked h := by simp at h

/-- What is added after children that did not fail. -/
theorem ChildrenAccount.trans {σ σ₁ σ₂ : Session ω} {new₁ new₂ : List Action}
    {children₁ children₂ : Children} (hnone : children₁.failures = [])
    (h₁ : ChildrenAccount e σ new₁ children₁ σ₁) (h₂ : ChildrenAccount e σ₁ new₂ children₂ σ₂) :
    ChildrenAccount e σ (new₂ ++ new₁) children₂ σ₂ where
  actions_eq := by rw [h₂.actions_eq, h₁.actions_eq, List.append_assoc]
  unwinds h := ⟨(h₂.unwinds h).1.append new₁, (h₂.unwinds h).2⟩
  masked := by
    intro hmem
    rcases List.mem_append.mp hmem with hmem | hmem
    · rcases h₂.masked hmem with hfailed | ⟨a, ha, hmasks⟩
      · exact Or.inl hfailed
      · exact Or.inr ⟨a, List.mem_append_left _ ha, hmasks⟩
    · rcases h₁.masked hmem with ⟨f, hf, _⟩ | ⟨a, ha, hmasks⟩
      · simp [hnone] at hf
      · exact Or.inr ⟨a, List.mem_append_right _ ha, hmasks⟩

/-- Entering the results of a wave, in whatever order, keeps its account. -/
theorem WaveAccount.enterAll {σ σ₁ : Session ω} {new : List Action}
    {results entered : List (Nat × Result)} (h : WaveAccount e σ new results σ₁)
    (hmem : ∀ x, x ∈ entered ↔ x ∈ results) (children : Children)
    (hnone : children.failures = []) :
    ChildrenAccount e σ new (children.enterAll entered) σ₁ := by
  have hfailures : (children.enterAll entered).failures = entered.filterMap (·.2.failure?) := by
    rw [enterAll_failures, hnone, List.nil_append]
  refine ⟨h.actions_eq, ?_, ?_⟩
  · intro hkind
    obtain ⟨f, hf, hkind⟩ := Option.map_eq_some_iff.mp hkind
    have hfmem : f ∈ entered.filterMap (·.2.failure?) := by
      rw [← hfailures]
      exact List.mem_of_head? hf
    obtain ⟨x, hx, hxf⟩ := List.mem_filterMap.mp hfmem
    exact h.unwinds ⟨x, (hmem x).mp hx, (budgetFailed_iff x.2).mpr ⟨f, hxf, hkind⟩⟩
  · intro hrefused
    rcases h.masked hrefused with ⟨x, hx, hfailed⟩ | hmasks
    · obtain ⟨f, hf, hkind⟩ := (budgetFailed_iff x.2).mp hfailed
      refine Or.inl ⟨f, ?_, hkind⟩
      rw [hfailures]
      exact List.mem_filterMap.mpr ⟨x, (hmem x).mpr hx, hf⟩
    · exact Or.inr hmasks

theorem solveWaves_account {solve : Solver ω} (hsolve : e.Accountable solve)
    (subs : List Subproblem) (waves : List (List Nat)) (c : Context) (children : Children)
    (σ : Session ω) (hnone : children.failures = []) :
    ∃ new, ChildrenAccount e σ new (solveWaves solve subs waves c children σ).1
      (solveWaves solve subs waves c children σ).2 := by
  induction waves generalizing c children σ with
  | nil => exact ⟨[], .unchanged children hnone σ⟩
  | cons wave rest ih =>
    obtain ⟨new₁, h₁⟩ := solveWave_account hsolve subs c wave σ
    rcases hr : solveWave solve subs c wave σ with ⟨results, σ₁⟩
    rw [hr] at h₁
    have hentered : ChildrenAccount e σ new₁ (children.enterAll (inIndexOrder results)) σ₁ :=
      h₁.enterAll (fun _ => List.mem_mergeSort) children hnone
    cases hfailure : (children.enterAll (inIndexOrder results)).failure with
    | some f =>
      rw [solveWaves_failed rest c children hr hfailure]
      exact ⟨new₁, hentered⟩
    | none =>
      rw [solveWaves_passed rest c children hr hfailure]
      have hnone₁ : (children.enterAll (inIndexOrder results)).failures = [] :=
        List.head?_eq_none_iff.mp hfailure
      obtain ⟨new₂, h₂⟩ := ih (c.withSolvedAll (solvedEntries subs (inIndexOrder results))) _
        σ₁ hnone₁
      exact ⟨new₂ ++ new₁, hentered.trans hnone₁ h₂⟩

theorem solveChildren_account {solve : Solver ω} (hsolve : e.Accountable solve)
    (subs : List Subproblem) (c : Context) (σ : Session ω) :
    ∃ new, ChildrenAccount e σ new (e.solveChildren solve subs c σ).1
      (e.solveChildren solve subs c σ).2 := by
  rw [solveChildren_eq_solveWaves]
  exact solveWaves_account hsolve subs _ c (.start subs) σ rfl

theorem splitAttempt_account {solve : Solver ω} (hsolve : e.Accountable solve)
    (s : Specification) (c : Context) (subs : List Subproblem) (σ : Session ω) :
    ∃ new, Account e σ new (kindOf (e.splitAttempt solve s c subs σ).1.outcome)
      (e.splitAttempt solve s c subs σ).2 := by
  obtain ⟨new, h⟩ := solveChildren_account hsolve subs c σ
  unfold splitAttempt
  rcases hr : e.solveChildren solve subs c σ with ⟨children, σ₁⟩
  rw [hr] at h
  have hkind := composeParts_kind s subs children
  have hpasses : (Action.gathered children.failures).passesOn = true ↔
      children.failure.map Failure.kind = some .budgetExceeded :=
    Action.passesOn_gathered children.failures
  refine ⟨.gathered children.failures :: new, ?_, ?_, ?_, ?_⟩
  · rw [mark_actions, h.actions_eq, List.cons_append]
  · rw [hkind]
    constructor
    · intro hbudget
      exact .passed (hpasses.mpr hbudget) (h.unwinds hbudget).1
    · intro hunwinds
      cases hunwinds with
      | passed ha _ => exact hpasses.mp ha
  · intro hbudget
    have hexhausted := (h.unwinds (hkind.mp hbudget)).2
    exact ⟨hexhausted.running, hexhausted.beyond⟩
  · intro hmem
    have hmem : Action.refused ∈ new := by simpa using hmem
    rcases h.masked hmem with ⟨f, hf, hbudget⟩ | ⟨a, ha, hmasks⟩
    · by_cases hpass : (Action.gathered children.failures).passesOn = true
      · exact Or.inl (hkind.mpr (hpasses.mp hpass))
      · exact Or.inr ⟨_, List.mem_cons_self, Action.masks_gathered hf hbudget hpass⟩
    · exact Or.inr ⟨a, List.mem_cons_of_mem _ ha, hmasks⟩

theorem leafAttempt_account (depth : Int) (s : Specification) (c : Context) (σ : Session ω) :
    ∃ new, Account e σ new (kindOf (e.leafAttempt depth s c σ).1.outcome)
      (e.leafAttempt depth s c σ).2 := by
  obtain ⟨_, asked, hactions, hasks⟩ := leaf_asked e depth s c σ
  have hunrefused := Action.refused_notMem_of_asks hasks
  exact ⟨asked, .unrefused hactions hunrefused (leaf_kind e depth s c σ)⟩

theorem attempt_account {below : Option (Solver ω)}
    (hbelow : ∀ solve ∈ below, e.Accountable solve) (depth : Int) (s : Specification)
    (c : Context) (strategy : Strategy) (σ : Session ω) :
    ∃ new, Account e σ new (kindOf (e.attempt below depth s c strategy σ).1.outcome)
      (e.attempt below depth s c strategy σ).2 := by
  have hmarked : (σ.mark (.decomposed s strategy.name)).actions =
      [.decomposed s strategy.name] ++ σ.actions := rfl
  have hleaf : ∃ new, Account e σ new
      (kindOf (e.leafAttempt depth s c (σ.mark (.decomposed s strategy.name))).1.outcome)
      (e.leafAttempt depth s c (σ.mark (.decomposed s strategy.name))).2 := by
    obtain ⟨new, h⟩ := leafAttempt_account (e := e) depth s c
      (σ.mark (.decomposed s strategy.name))
    exact ⟨_, h.after hmarked rfl (by simp) (by simp)⟩
  unfold attempt
  cases below with
  | none => exact hleaf
  | some solve =>
    have hkind := decompose_kind s c strategy
    dsimp only
    cases hsubs : decompose s c strategy with
    | error f =>
      rw [hsubs] at hkind
      exact ⟨[.decomposed s strategy.name], .unrefused rfl (by simp) hkind⟩
    | ok subs =>
      cases subs with
      | nil => exact hleaf
      | cons p rest =>
        obtain ⟨new, h⟩ := splitAttempt_account (hbelow solve rfl) s c (p :: rest)
          (σ.mark (.decomposed s strategy.name))
        exact ⟨_, h.after hmarked rfl (by simp) (by simp)⟩

theorem attempts_account {below : Option (Solver ω)}
    (hbelow : ∀ solve ∈ below, e.Accountable solve) (depth : Int) (s : Specification)
    (c : Context) (retries : Nat) (tried : List String) (m : Match) (iterations : Int)
    (phases : List Phase) (σ : Session ω) :
    ∃ new, Account e σ new
      (kindOf (e.attempts below depth s c retries tried m iterations phases σ).1.outcome)
      (e.attempts below depth s c retries tried m iterations phases σ).2 := by
  induction retries using Nat.strongRecOn generalizing tried m iterations phases σ with
  | ind retries ih =>
    obtain ⟨new, h⟩ := attempt_account hbelow depth s c m.strategy σ
    rcases ha : e.attempt below depth s c m.strategy σ with ⟨a, σ₁⟩
    rw [ha] at h
    have hcontinues := attempts_continues e below depth s c retries tried m iterations phases σ ha
    generalize e.attempts below depth s c retries tried m iterations phases σ = out
      at hcontinues ⊢
    cases hcontinues with
    | solved artifact hout =>
      exact ⟨_, h.more [.recorded s m.name true] (by simp [hout, kindOf]) rfl (by simp)
        (kindOf_ok_ne artifact _)⟩
    | ended f hout hend =>
      rw [hout] at h
      exact ⟨_, h.record s m.name _⟩
    | exhausted f hout hretry hnext =>
      have hkind := kindOf_ne_of_isRetryable hout hretry
      refine ⟨_, h.more [.ranked s, .recorded s m.name false] hkind rfl (by simp) ?_⟩
      rwa [hout] at hkind
    | retried f n next hout hretries hstop hretry hnext =>
      obtain ⟨later, hlater⟩ := ih n (by omega) (tried ++ [next.name]) next
        (iterations + a.iterations) (a.passed phases ++ [.route])
        ((σ₁.note e s m.name false (iterations + a.iterations)).mark (.ranked s))
      have hrecorded := h.record s m.name (iterations + a.iterations)
      refine ⟨_, hlater.after (by rw [mark_actions, hrecorded.actions_eq]; rfl) rfl (by simp) ?_⟩
      intro hmem
      exact (hrecorded.masked hmem).resolve_left (kindOf_ne_of_isRetryable hout hretry)

theorem visit_accountable {below : Option (Solver ω)}
    (hbelow : ∀ solve ∈ below, e.Accountable solve) (depth : Int) :
    e.Accountable (e.visit below depth) := by
  constructor
  · intro s c σ
    have hvisits := visit_visits e below depth s c σ
    generalize e.visit below depth s c σ = out at hvisits ⊢
    cases hvisits with
    | turnedAway why hstopped =>
      exact ⟨[.turnedAway], .unrefused rfl (by simp) (fun h => by cases h)⟩
    | refused hstopped hover =>
      refine ⟨[.refused], rfl, iff_of_true rfl (.refused []), ?_, fun _ => Or.inl rfl⟩
      intro _
      exact ⟨hstopped, by simp only [Session.enter, mark_visits]; omega⟩
    | remembered hstopped hwithin artifact hretrieve =>
      exact ⟨[.admitted depth], .unrefused rfl (by simp) (kindOf_ok_ne artifact _)⟩
    | unrouted hstopped hwithin hretrieve f hchoose =>
      have hkind := choose_kind e s c ((σ.enter (.admitted depth)).retrieve e s c).2
      rw [hchoose] at hkind
      exact ⟨[.ranked s, .admitted depth], .unrefused rfl (by simp) hkind⟩
    | routed hstopped hwithin hretrieve m hchoose =>
      obtain ⟨new, h⟩ := attempts_account hbelow depth s c
        e.settings.maxValidationRetries.toNat [m.name] m 1 [.start, .cacheCheck, .route]
        (((σ.enter (.admitted depth)).retrieve e s c).2.choose e s c).2
      have hactions : (((σ.enter (.admitted depth)).retrieve e s c).2.choose e s c).2.actions =
          [.ranked s, .admitted depth] ++ σ.actions := rfl
      exact ⟨_, h.after hactions rfl (by simp) (by simp)⟩
  · intro s c σ hexhausted
    have hvisits := visit_visits e below depth s c σ
    have hrunning := hexhausted.running
    have hover := hexhausted.beyond
    generalize e.visit below depth s c σ = out at hvisits ⊢
    cases hvisits with
    | turnedAway why hstopped => simp [hrunning] at hstopped
    | refused hstopped hover => exact rfl
    | remembered hstopped hwithin artifact hretrieve => omega
    | unrouted hstopped hwithin hretrieve f hchoose => omega
    | routed hstopped hwithin hretrieve m hchoose => omega

theorem solve_accountable (n : Nat) (depth : Int) : e.Accountable (e.solve n depth) :=
  solve_induction (fun depth hbelow => visit_accountable hbelow depth) n depth

/-- A call fails for its budget just when, from the newest refusal on, the refusal was passed on
by all failures that were gathered; a refusal is lost only where some failures gathered mask it. -/
theorem budget_failure_iff_unwinds (e : Engine ω) (s : Specification) (c : Context)
    (session : Session ω) :
    ((∃ f, (e.synthesize s c session).1.outcome = .error f ∧ f.kind = .budgetExceeded) ↔
        Unwinds (e.synthesize s c session).2.actions) ∧
      (Action.refused ∈ (e.synthesize s c session).2.actions →
        Unwinds (e.synthesize s c session).2.actions ∨
          ∃ a ∈ (e.synthesize s c session).2.actions, a.masks = true) := by
  obtain ⟨new, h⟩ := (solve_accountable e.settings.maxDepth.toNat 0).account s c
    { session with visits := 0, actions := [] }
  unfold synthesize
  rcases hr : e.solve e.settings.maxDepth.toNat 0 s c { session with visits := 0, actions := [] }
    with ⟨r, σ⟩
  rw [hr] at h
  have hactions : σ.actions = new := by simpa using h.actions_eq
  dsimp only at h ⊢
  rw [← kindOf_eq_some, hactions, ← h.budget_iff]
  exact ⟨Iff.rfl, h.masked⟩

/-- The halves make one wave, and their results are entered one after the other. -/
theorem solveChildren_halves (e : Engine ω) (hwaves : e.settings.parallelSubproblems = true)
    {solve : Solver ω} {c : Context} {σ σ₀ σ₁ : Session ω} {r₀ r₁ : Result}
    (hleft : solve { description := "left" } c σ = (r₀, σ₀))
    (hright : solve { description := "right" } c σ₀ = (r₁, σ₁)) :
    e.solveChildren solve halves c σ =
      (((Children.start halves).enter 0 r₀).enter 1 r₁, σ₁) := by
  have hone : Decomposition.waves halves = [[0, 1]] := by
    simp [Decomposition.waves, Decomposition.wave, Decomposition.levels, Decomposition.levelAfter,
      Decomposition.indexed, halves, List.mergeSort_of_pairwise]
  have hwave : solveWave solve halves c [0, 1] σ = ([(0, r₀), (1, r₁)], σ₁) := by
    simp [solveWave, halves, hleft, hright]
  have hsorted : inIndexOrder [(0, r₀), (1, r₁)] = [(0, r₀), (1, r₁)] :=
    List.mergeSort_of_pairwise (by simp)
  have hentered : (Children.start halves).enterAll (inIndexOrder [(0, r₀), (1, r₁)]) =
      ((Children.start halves).enter 0 r₀).enter 1 r₁ := by
    rw [hsorted]
    rfl
  unfold solveChildren
  rw [if_pos hwaves, hone]
  cases hfailure : ((Children.start halves).enterAll
      (inIndexOrder [(0, r₀), (1, r₁)])).failure with
  | some f => rw [solveWaves_failed [] c _ hwave hfailure, hentered]
  | none =>
    rw [solveWaves_passed [] c _ hwave hfailure, hentered]
    rfl

/-- Two visits are enough for the whole and its left half. -/
def crowded : Settings :=
  { maxIterations := 2, maxDepth := 1, parallelSubproblems := true, maxParallelism := 1 }

/-- The session in which the first strategy for the whole has been chosen. -/
def routed : Session Unit :=
  ((((freshSession crowded).enter (.admitted 0)).retrieve (halving crowded) both {}).2.choose
    (halving crowded) both {}).2

set_option maxRecDepth 100000 in
/-- The right half is refused, but the failure of the left half counts: the call does not fail
for its budget. -/
theorem refusal_masked_by_left_half :
    Action.refused ∈
        ((halving crowded).synthesize both {} (freshSession crowded)).2.actions ∧
      ∃ f, ((halving crowded).synthesize both {} (freshSession crowded)).1.outcome = .error f ∧
        f.kind = .composition := by
  let m := (halving crowded).router.assess (freshSession crowded).experience none both {}
    intoHalves (((halving crowded).router.corpus.scores .inOrder "both").head!)
  have hsolve : (halving crowded).solve 1 0 both {} (freshSession crowded) =
      (halving crowded).attempts (some ((halving crowded).solve 0 1)) 0 both {} 2 ["halves"] m 1
        [.start, .cacheCheck, .route] routed := by
    with_unfolding_all rfl
  have hattempt : (halving crowded).attempt (some ((halving crowded).solve 0 1)) 0 both {}
      m.strategy routed = (halving crowded).splitAttempt ((halving crowded).solve 0 1) both {}
        halves (routed.mark (.decomposed both "halves")) := rfl
  have hchildren := solveChildren_halves (halving crowded) rfl
    (rfl : (halving crowded).solve 0 1 { description := "left" } {}
      (routed.mark (.decomposed both "halves")) = (_, _)) rfl
  rw [← kindOf_eq_some]
  change Action.refused ∈ ((halving crowded).solve 1 0 both {} (freshSession crowded)).2.actions ∧
    kindOf ((halving crowded).solve 1 0 both {} (freshSession crowded)).1.outcome =
      some .composition
  rw [hsolve]
  unfold attempts
  rw [hattempt]
  unfold splitAttempt
  rw [hchildren]
  constructor
  · exact List.mem_of_getElem? (i := 3) (by with_unfolding_all rfl)
  · decide +kernel

end Engine

end Synthesis
