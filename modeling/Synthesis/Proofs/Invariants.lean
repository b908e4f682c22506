import Synthesis.Proofs.Steps

/-!
Invariants of a call. A leaf asks for candidates and has them inspected, subproblems are solved by
visits one level deeper, and a visit adds a few steps of its own. So a property of sessions that
these steps keep is kept by a whole call, and what they make sure of for the artifacts they hand
on, the call makes sure of for its solution.
-/
namespace Synthesis

namespace Session

variable {ω : Type}

/-- The same remembered solutions and choices of strategies, and the same experience. -/
structure SameMemory (σ σ' : Session ω) : Prop where
  solutions : σ'.solutions = σ.solutions
  strategies : σ'.strategies = σ.strategies
  experience : σ'.experience = σ.experience

theorem SameMemory.refl (σ : Session ω) : σ.SameMemory σ := ⟨rfl, rfl, rfl⟩

theorem SameMemory.trans {σ σ' σ'' : Session ω} (h : σ.SameMemory σ') (h' : σ'.SameMemory σ'') :
    σ.SameMemory σ'' where
  solutions := h'.solutions.trans h.solutions
  strategies := h'.strategies.trans h.strategies
  experience := h'.experience.trans h.experience

theorem findAbstractions_sameMemory (e : Engine ω) (s : Specification) (c : Context) (limit : Int)
    (σ : Session ω) : σ.SameMemory (σ.findAbstractions e s c limit).2 := by
  unfold findAbstractions
  cases σ.abstractions with
  | none => exact .refl σ
  | some library => exact ⟨rfl, rfl, rfl⟩

end Session

namespace Engine

variable {ω : Type}

section Leaf

variable (e : Engine ω) (s : Specification) (c : Context) (hints : Hints)

/-- What becomes of a leaf when a candidate is asked for, with `n` more to follow. -/
inductive Offers (n : Nat) (k : Int) (issues : List String) (σ : Session ω) :
    Except Failure Artifact × Session ω → Prop
  | unproposed (f : Failure) (σ₁ : Session ω)
      (hpropose : σ.propose e s c { hints with attempt := k, issues } = (.error f, σ₁)) :
      Offers n k issues σ (.error (leafFailure σ₁.stopped f), σ₁)
  | empty (candidate : Candidate) (σ₁ : Session ω)
      (hpropose : σ.propose e s c { hints with attempt := k, issues } = (.ok candidate, σ₁))
      (hempty : (!candidate.success || Text.isAllBlank candidate.code) = true) :
      Offers n k issues σ
        (e.leafTries s c hints n (k + 1) ["generator produced no solution"] σ₁)
  | uninspected (candidate : Candidate) (σ₁ σ₂ : Session ω) (f : Failure)
      (hpropose : σ.propose e s c { hints with attempt := k, issues } = (.ok candidate, σ₁))
      (hfull : (!candidate.success || Text.isAllBlank candidate.code) = false)
      (hinspect : σ₁.inspect e s ⟨candidate.code, candidate.confidence, "generate"⟩ =
        (.error f, σ₂)) :
      Offers n k issues σ (.error (leafFailure σ₂.stopped (.wrapped "validate" f)), σ₂)
  | accepted (candidate : Candidate) (σ₁ σ₂ : Session ω) (report : Report)
      (hpropose : σ.propose e s c { hints with attempt := k, issues } = (.ok candidate, σ₁))
      (hfull : (!candidate.success || Text.isAllBlank candidate.code) = false)
      (hinspect : σ₁.inspect e s ⟨candidate.code, candidate.confidence, "generate"⟩ =
        (.ok report, σ₂))
      (hpassed : report.passed = true) :
      Offers n k issues σ (.ok ⟨candidate.code, candidate.confidence, "generate"⟩,
        σ₂.countUses hints.abstractions true)
  | rejected (candidate : Candidate) (σ₁ σ₂ : Session ω) (report : Report)
      (hpropose : σ.propose e s c { hints with attempt := k, issues } = (.ok candidate, σ₁))
      (hfull : (!candidate.success || Text.isAllBlank candidate.code) = false)
      (hinspect : σ₁.inspect e s ⟨candidate.code, candidate.confidence, "generate"⟩ =
        (.ok report, σ₂))
      (hpassed : report.passed = false) :
      Offers n k issues σ
        (e.leafTries s c hints n (k + 1) report.issues (σ₂.countUses hints.abstractions false))

theorem leafTries_offers (n : Nat) (k : Int) (issues : List String) (σ : Session ω) :
    Offers e s c hints n k issues σ (e.leafTries s c hints (n + 1) k issues σ) := by
  unfold leafTries
  rcases hpropose : σ.propose e s c { hints with attempt := k, issues } with ⟨proposed, σ₁⟩
  cases proposed with
  | error f => exact .unproposed f σ₁ hpropose
  | ok candidate =>
    dsimp only
    split
    · rename_i hempty
      exact .empty candidate σ₁ hpropose hempty
    · rename_i hfull
      rw [Bool.not_eq_true] at hfull
      rcases hinspect : σ₁.inspect e s ⟨candidate.code, candidate.confidence, "generate"⟩
        with ⟨inspected, σ₂⟩
      cases inspected with
      | error f => exact .uninspected candidate σ₁ σ₂ f hpropose hfull hinspect
      | ok report =>
        dsimp only
        cases hpassed : report.passed with
        | true => exact .accepted candidate σ₁ σ₂ report hpropose hfull hinspect hpassed
        | false => exact .rejected candidate σ₁ σ₂ report hpropose hfull hinspect hpassed

/-- What the steps of a leaf keep, and what passing the inspection makes sure of. -/
structure LeafKeeps (I : Session ω → Prop) (Q : Artifact → Session ω → Prop) : Prop where
  find : ∀ limit σ, I σ → I (σ.findAbstractions e s c limit).2
  propose : ∀ hints σ, I σ → I (σ.propose e s c hints).2
  inspect : ∀ a σ, I σ → I (σ.inspect e s a).2
  count : ∀ hits success σ, I σ → I (σ.countUses hits success)
  passed : ∀ a σ report hits, I σ → (σ.inspect e s a).1 = .ok report → report.passed = true →
    Q a ((σ.inspect e s a).2.countUses hits true)

variable {e s c} {I : Session ω → Prop} {Q : Artifact → Session ω → Prop}

theorem LeafKeeps.leafTries (h : LeafKeeps e s c I Q) (n : Nat) (k : Int) (issues : List String)
    (σ : Session ω) (hσ : I σ) :
    I (e.leafTries s c hints n k issues σ).2 ∧
      ∀ a, (e.leafTries s c hints n k issues σ).1 = .ok a →
        Q a (e.leafTries s c hints n k issues σ).2 := by
  induction n generalizing k issues σ with
  | zero => exact ⟨hσ, fun a ha => by cases ha⟩
  | succ n ih =>
    have hoffers := leafTries_offers e s c hints n k issues σ
    have hproposed := h.propose { hints with attempt := k, issues } σ hσ
    generalize e.leafTries s c hints (n + 1) k issues σ = out at hoffers ⊢
    cases hoffers with
    | unproposed f σ₁ hpropose =>
      rw [hpropose] at hproposed
      exact ⟨hproposed, fun a ha => by cases ha⟩
    | empty candidate σ₁ hpropose hempty =>
      rw [hpropose] at hproposed
      exact ih _ _ _ hproposed
    | uninspected candidate σ₁ σ₂ f hpropose hfull hinspect =>
      rw [hpropose] at hproposed
      have hinspected := h.inspect ⟨candidate.code, candidate.confidence, "generate"⟩ σ₁ hproposed
      rw [hinspect] at hinspected
      exact ⟨hinspected, fun a ha => by cases ha⟩
    | accepted candidate σ₁ σ₂ report hpropose hfull hinspect hpassed =>
      rw [hpropose] at hproposed
      have hinspected := h.inspect ⟨candidate.code, candidate.confidence, "generate"⟩ σ₁ hproposed
      rw [hinspect] at hinspected
      refine ⟨h.count _ _ _ hinspected, ?_⟩
      intro a ha
      cases ha
      have hgood := h.passed ⟨candidate.code, candidate.confidence, "generate"⟩ σ₁ report
        hints.abstractions hproposed (by rw [hinspect]) hpassed
      rw [hinspect] at hgood
      exact hgood
    | rejected candidate σ₁ σ₂ report hpropose hfull hinspect hpassed =>
      rw [hpropose] at hproposed
      have hinspected := h.inspect ⟨candidate.code, candidate.confidence, "generate"⟩ σ₁ hproposed
      rw [hinspect] at hinspected
      exact ih _ _ _ (h.count _ _ _ hinspected)

theorem LeafKeeps.leaf (h : LeafKeeps e s c I Q) (depth : Int) (σ : Session ω) (hσ : I σ) :
    I (e.leaf depth s c σ).2 ∧
      ∀ a, (e.leaf depth s c σ).1 = .ok a → Q a (e.leaf depth s c σ).2 :=
  h.leafTries _ _ _ _ _ (h.find maxAbstractions σ hσ)

end Leaf

/-- A leaf leaves alone what is remembered from call to call, apart from test results. -/
theorem leaf_sameMemory (e : Engine ω) (depth : Int) (s : Specification) (c : Context)
    (σ : Session ω) : σ.SameMemory (e.leaf depth s c σ).2 := by
  have hkeeps : LeafKeeps e s c σ.SameMemory fun _ _ => True :=
    { find := fun limit σ₁ h => h.trans (σ₁.findAbstractions_sameMemory e s c limit)
      propose := fun _ _ h => h.trans ⟨rfl, rfl, rfl⟩
      inspect := fun _ _ h => h.trans ⟨rfl, rfl, rfl⟩
      count := fun _ _ _ h => h.trans ⟨rfl, rfl, rfl⟩
      passed := fun _ _ _ _ _ _ _ => trivial }
  exact (hkeeps.leaf depth σ (.refl σ)).1

section Children

variable {solve : Solver ω} {subs : List Subproblem} {I : Session ω → Prop}
  {Q : Artifact → Prop}

/-- What visiting a subproblem keeps and makes sure of. -/
def SolvesWith (solve : Solver ω) (subs : List Subproblem) (I : Session ω → Prop)
    (Q : Artifact → Prop) : Prop :=
  ∀ p ∈ subs, ∀ c σ, I σ → I (solve p.specification c σ).2 ∧
    ∀ a, (solve p.specification c σ).1.outcome = .ok a → Q a

theorem solveWave_keeps (hsolve : SolvesWith solve subs I Q) (c : Context) (wave : List Nat)
    (σ : Session ω) (hσ : I σ) :
    I (solveWave solve subs c wave σ).2 ∧
      ∀ x ∈ (solveWave solve subs c wave σ).1, ∀ a, x.2.outcome = .ok a → Q a := by
  induction wave generalizing σ with
  | nil => exact ⟨hσ, by simp [solveWave]⟩
  | cons i rest ih =>
    cases hsub : subs[i]? with
    | none =>
      rw [solveWave_none rest c hsub]
      exact ih σ hσ
    | some p =>
      obtain ⟨hkept, hgood⟩ := hsolve p (List.mem_of_getElem? hsub) c σ hσ
      rcases hr : solve p.specification c σ with ⟨r, σ₁⟩
      rw [hr] at hkept hgood
      obtain ⟨hlater, hothers⟩ := ih σ₁ hkept
      rw [solveWave_some rest c hsub hr]
      exact ⟨hlater, List.forall_mem_cons.mpr ⟨hgood, hothers⟩⟩

theorem solution?_eq_some {r : Result} {a : Artifact} (h : r.solution? = some a) :
    r.outcome = .ok a := by
  unfold Result.solution? at h
  cases hout : r.outcome with
  | ok b =>
    rw [hout] at h
    exact congrArg Except.ok (Option.some.inj h)
  | error f =>
    rw [hout] at h
    cases h

/-- The parts of these subproblems, and only such solutions among them. -/
structure PartsOf (subs : List Subproblem) (Q : Artifact → Prop) (parts : List Part) : Prop where
  subproblems : parts.map (·.subproblem) = subs
  solutions : ∀ p ∈ parts, ∀ a, p.solution = some a → Q a

theorem start_partsOf (subs : List Subproblem) (Q : Artifact → Prop) :
    PartsOf subs Q (Children.start subs).parts where
  subproblems := by
    simp [Children.start, List.map_map, Function.comp_def]
  solutions := by
    intro p hp a ha
    obtain ⟨x, _, rfl⟩ := List.mem_map.mp hp
    cases ha

theorem getElem?_enter (children : Children) (i j : Nat) (r : Result) :
    (children.enter i r).parts[j]? = children.parts[j]?.map fun p =>
      if i = j then { p with solution := r.solution?, failure := r.failure? } else p :=
  List.getElem?_modify _ i children.parts j

theorem PartsOf.enter {children : Children} (h : PartsOf subs Q children.parts) (i : Nat)
    {r : Result} (hr : ∀ a, r.outcome = .ok a → Q a) :
    PartsOf subs Q (children.enter i r).parts where
  subproblems := by
    rw [← h.subproblems]
    refine List.ext_getElem? fun j => ?_
    rw [List.getElem?_map, List.getElem?_map, getElem?_enter, Option.map_map]
    congr 1
    funext p
    rw [Function.comp_apply]
    split
    · rfl
    · rfl
  solutions := by
    intro p hp a ha
    obtain ⟨j, hj⟩ := List.mem_iff_getElem?.mp hp
    rw [getElem?_enter] at hj
    obtain ⟨q, hq, rfl⟩ := Option.map_eq_some_iff.mp hj
    split at ha
    · exact hr a (solution?_eq_some ha)
    · exact h.solutions q (List.mem_of_getElem? hq) a ha

theorem PartsOf.enterAll {children : Children} (h : PartsOf subs Q children.parts)
    {results : List (Nat × Result)} (hr : ∀ x ∈ results, ∀ a, x.2.outcome = .ok a → Q a) :
    PartsOf subs Q (children.enterAll results).parts := by
  induction results generalizing children with
  | nil => exact h
  | cons x rest ih =>
    obtain ⟨hx, hrest⟩ := List.forall_mem_cons.mp hr
    exact ih (h.enter x.1 hx) hrest

theorem solveWaves_keeps (hsolve : SolvesWith solve subs I Q) (waves : List (List Nat))
    (c : Context) (children : Children) (hparts : PartsOf subs Q children.parts)
    (σ : Session ω) (hσ : I σ) :
    I (solveWaves solve subs waves c children σ).2 ∧
      PartsOf subs Q (solveWaves solve subs waves c children σ).1.parts := by
  induction waves generalizing c children σ with
  | nil => exact ⟨hσ, hparts⟩
  | cons wave rest ih =>
    obtain ⟨hkept, hgood⟩ := solveWave_keeps hsolve c wave σ hσ
    rcases hr : solveWave solve subs c wave σ with ⟨results, σ₁⟩
    rw [hr] at hkept hgood
    have hentered : PartsOf subs Q (children.enterAll (inIndexOrder results)).parts :=
      hparts.enterAll fun x hx => hgood x (List.mem_mergeSort.mp hx)
    cases hfailure : (children.enterAll (inIndexOrder results)).failure with
    | some f =>
      rw [solveWaves_failed rest c children hr hfailure]
      exact ⟨hkept, hentered⟩
    | none =>
      rw [solveWaves_passed rest c children hr hfailure]
      exact ih _ _ hentered σ₁ hkept

theorem solveChildren_keeps (e : Engine ω) (hsolve : SolvesWith solve subs I Q) (c : Context)
    (σ : Session ω) (hσ : I σ) :
    I (e.solveChildren solve subs c σ).2 ∧
      PartsOf subs Q (e.solveChildren solve subs c σ).1.parts := by
  rw [solveChildren_eq_solveWaves]
  exact solveWaves_keeps hsolve _ c _ (start_partsOf subs Q) σ hσ

end Children

/-- The ways an attempt by a strategy can go. -/
inductive Goes (e : Engine ω) (below : Option (Solver ω)) (depth : Int) (s : Specification)
    (c : Context) (strategy : Strategy) (σ : Session ω) : Attempt × Session ω → Prop
  | leaf : Goes e below depth s c strategy σ
      (e.leafAttempt depth s c (σ.mark (.decomposed s strategy.name)))
  | broken (f : Failure) (hsplit : decompose s c strategy = .error f) :
      Goes e below depth s c strategy σ
        ({ outcome := .error f, phases := [.decompose, .compose] },
          σ.mark (.decomposed s strategy.name))
  | split (solve : Solver ω) (subs : List Subproblem) (hbelow : solve ∈ below)
      (hsplit : decompose s c strategy = .ok subs) (hsome : subs ≠ []) :
      Goes e below depth s c strategy σ
        (e.splitAttempt solve s c subs (σ.mark (.decomposed s strategy.name)))

theorem attempt_goes (e : Engine ω) (below : Option (Solver ω)) (depth : Int)
    (s : Specification) (c : Context) (strategy : Strategy) (σ : Session ω) :
    Goes e below depth s c strategy σ (e.attempt below depth s c strategy σ) := by
  unfold attempt
  cases below with
  | none => exact .leaf
  | some solve =>
    dsimp only
    cases hsplit : decompose s c strategy with
    | error f => exact .broken f hsplit
    | ok subs =>
      cases subs with
      | nil => exact .leaf
      | cons p rest => exact .split solve (p :: rest) rfl hsplit (List.cons_ne_nil p rest)

end Engine

/-- What is ranked is a strategy of the router that can handle the specification. -/
theorem Router.of_mem_rank {r : Router} {walks : Walks} {x : Experience}
    {history : Option HistoryQuery} {s : Specification} {c : Context} {m : Match}
    (h : m ∈ r.rank walks x history s c) :
    m.strategy ∈ r.strategies ∧ m.strategy.canHandle s c = true := by
  unfold Router.rank at h
  obtain ⟨y, hy, rfl⟩ := List.mem_map.mp (List.mem_mergeSort.mp h)
  obtain ⟨hmem, hhandle⟩ := List.mem_filter.mp hy
  exact ⟨(List.of_mem_zip hmem).1, hhandle⟩

/-- A remembered choice is a registered strategy that can handle the specification. -/
theorem Router.of_remembered {r : Router} {walks : Walks} {x : Experience}
    {history : Option HistoryQuery} {now : Int} {s : Specification} {c : Context}
    {cache : StrategyCache} {m : Match}
    (h : (r.remembered walks x history now s c cache).1 = some m) :
    m.strategy ∈ r.registry.strategies ∧ m.strategy.canHandle s c = true := by
  unfold Router.remembered at h
  split at h
  · cases h
  next name _ _ =>
    split at h
    next t ht =>
      cases h
      obtain ⟨hget, hhandle⟩ := Option.filter_eq_some_iff.mp ht
      exact ⟨List.mem_of_find?_eq_some hget, hhandle⟩
    next => cases h

namespace Engine

variable {ω : Type} {e : Engine ω} {s : Specification} {c : Context} {σ : Session ω} {m : Match}

/-- The strategy that a visit begins with is a registered one that can handle the
specification. -/
theorem of_choose (hrouter : e.router.strategies = e.router.registry.strategies)
    (h : (σ.choose e s c).1 = .ok m) :
    m.strategy ∈ e.router.registry.strategies ∧ m.strategy.canHandle s c = true := by
  change (e.router.select (σ.walks e).scores σ.experience (σ.history e) (σ.now e) s c
    (some σ.strategies)).1 = .ok m at h
  unfold Router.select at h
  dsimp only at h
  split at h
  next remembered hremembered =>
    cases h
    exact Router.of_remembered hremembered
  next =>
    split at h
    · cases h
    next best rest hrank =>
      cases h
      rw [← hrouter]
      exact Router.of_mem_rank (hrank ▸ List.mem_cons_self)

/-- A further strategy is a registered one that can handle the specification, and new. -/
theorem of_nextStrategy? (hrouter : e.router.strategies = e.router.registry.strategies)
    {tried : List String} (h : e.nextStrategy? s c tried σ = some m) :
    (m.strategy ∈ e.router.registry.strategies ∧ m.strategy.canHandle s c = true) ∧
      m.name ∉ tried := by
  unfold nextStrategy? at h
  have hnew := List.find?_some h
  rw [← hrouter]
  exact ⟨Router.of_mem_rank (List.mem_of_find?_eq_some h), by simpa using hnew⟩

/-- One of the strategies can split the specification like this. -/
def Splits (strategies : List Strategy) (s : Specification) (subs : List Subproblem) : Prop :=
  ∃ c, ∃ strategy ∈ strategies, strategy.canHandle s c = true ∧ decompose s c strategy = .ok subs

/-- What the steps of a call keep and make sure of, for specifications of which `P` holds. -/
structure CallKeeps (e : Engine ω) (P : Specification → Prop) (I : Session ω → Prop)
    (Q : Artifact → Prop) : Prop where
  mark : ∀ action σ, I σ → I (σ.mark action)
  enter : ∀ action σ, I σ → I (σ.enter action)
  note : ∀ s name success iterations σ, I σ → I (σ.note e s name success iterations)
  choose : ∀ s c σ, I σ → I (σ.choose e s c).2
  retrieve : ∀ s c σ, I σ → I (σ.retrieve e s c).2
  retrieved : ∀ s c σ a, I σ → (σ.retrieve e s c).1 = some a → Q a
  remember : ∀ s c a σ, P s → I σ → Q a → I (σ.remember e s c a)
  leaf : ∀ s c, P s → LeafKeeps e s c I fun a _ => Q a
  parts : ∀ s subs, P s → Splits e.router.registry.strategies s subs →
    ∀ p ∈ subs, P p.specification
  composed : ∀ s subs parts a, P s → Splits e.router.registry.strategies s subs →
    PartsOf subs Q parts → (Composer.select subs).compose parts s = .ok a → Q a

/-- What a solver keeps and makes sure of. -/
def SolverKeeps (P : Specification → Prop) (I : Session ω → Prop) (Q : Artifact → Prop)
    (solve : Solver ω) : Prop :=
  ∀ s c σ, P s → I σ → I (solve s c σ).2 ∧ ∀ a, (solve s c σ).1.outcome = .ok a → Q a

theorem composeParts_eq_ok {subs : List Subproblem} {children : Children} {a : Artifact}
    (h : composeParts s subs children = .ok a) :
    (Composer.select subs).compose children.parts s = .ok a := by
  have hcomposed : ((Composer.select subs).compose children.parts s).mapError (·.failure) =
      .ok a := by
    unfold composeParts at h
    dsimp only at h
    split at h
    · split at h
      · cases h
      · exact h
    · exact h
  cases hout : (Composer.select subs).compose children.parts s with
  | error fault =>
    rw [hout] at hcomposed
    cases hcomposed
  | ok b =>
    rw [hout] at hcomposed
    cases hcomposed
    rfl

section

variable {P : Specification → Prop} {I : Session ω → Prop} {Q : Artifact → Prop}
  {below : Option (Solver ω)}

theorem CallKeeps.attempt (h : CallKeeps e P I Q) (hs : P s)
    (hbelow : ∀ solve ∈ below, SolverKeeps P I Q solve) (depth : Int) {strategy : Strategy}
    (hstrategy : strategy ∈ e.router.registry.strategies ∧ strategy.canHandle s c = true)
    (hσ : I σ) :
    I (e.attempt below depth s c strategy σ).2 ∧
      ∀ a, (e.attempt below depth s c strategy σ).1.outcome = .ok a → Q a := by
  have hgoes := attempt_goes e below depth s c strategy σ
  have hmarked := h.mark (.decomposed s strategy.name) σ hσ
  generalize e.attempt below depth s c strategy σ = out at hgoes ⊢
  cases hgoes with
  | leaf => exact (h.leaf s c hs).leaf depth _ hmarked
  | broken f hsplit => exact ⟨hmarked, fun a ha => by cases ha⟩
  | split solve subs hsolve hsplit hsome =>
    have hsplits : Splits e.router.registry.strategies s subs :=
      ⟨c, strategy, hstrategy.1, hstrategy.2, hsplit⟩
    have hsolves : SolvesWith solve subs I Q :=
      fun p hp c' σ' => hbelow solve hsolve p.specification c' σ' (h.parts s subs hs hsplits p hp)
    obtain ⟨hkept, hparts⟩ := solveChildren_keeps e hsolves c _ hmarked
    refine ⟨h.mark _ _ hkept, ?_⟩
    intro a ha
    exact h.composed s subs _ a hs hsplits hparts (composeParts_eq_ok ha)

theorem CallKeeps.attempts (h : CallKeeps e P I Q) (hs : P s)
    (hrouter : e.router.strategies = e.router.registry.strategies)
    (hbelow : ∀ solve ∈ below, SolverKeeps P I Q solve) (depth : Int) (retries : Nat)
    (tried : List String)
    (hm : m.strategy ∈ e.router.registry.strategies ∧ m.strategy.canHandle s c = true)
    (iterations : Int) (phases : List Phase) (hσ : I σ) :
    I (e.attempts below depth s c retries tried m iterations phases σ).2 ∧
      ∀ a, (e.attempts below depth s c retries tried m iterations phases σ).1.outcome = .ok a →
        Q a := by
  induction retries using Nat.strongRecOn generalizing tried m iterations phases σ with
  | ind retries ih =>
    obtain ⟨hkept, hsure⟩ := h.attempt hs hbelow depth hm hσ
    rcases ha : e.attempt below depth s c m.strategy σ with ⟨a, σ₁⟩
    rw [ha] at hkept hsure
    have hcontinues := attempts_continues e below depth s c retries tried m iterations phases σ ha
    generalize e.attempts below depth s c retries tried m iterations phases σ = out
      at hcontinues ⊢
    cases hcontinues with
    | solved artifact hout =>
      have hgood := hsure artifact hout
      refine ⟨h.note _ _ _ _ _ (h.remember s c artifact σ₁ hs hkept hgood), ?_⟩
      intro a' ha'
      cases ha'
      exact hgood
    | ended f hout hend => exact ⟨h.note _ _ _ _ _ hkept, fun a' ha' => by cases ha'⟩
    | exhausted f hout hretry hnext =>
      exact ⟨h.mark _ _ (h.note _ _ _ _ _ hkept), fun a' ha' => by cases ha'⟩
    | retried f n next hout hretries hstop hretry hnext =>
      exact ih n (by omega) _ (of_nextStrategy? hrouter hnext).1 _ _
        (h.mark _ _ (h.note _ _ _ _ _ hkept))

theorem CallKeeps.visit (h : CallKeeps e P I Q)
    (hrouter : e.router.strategies = e.router.registry.strategies) (depth : Int)
    (hbelow : ∀ solve ∈ below, SolverKeeps P I Q solve) :
    SolverKeeps P I Q (e.visit below depth) := by
  intro s c σ hs hσ
  have hentered := h.enter (.admitted depth) σ hσ
  have hretrieved := h.retrieve s c _ hentered
  have hvisits := visit_visits e below depth s c σ
  generalize e.visit below depth s c σ = out at hvisits ⊢
  cases hvisits with
  | turnedAway why hstopped => exact ⟨h.mark _ _ hσ, fun a ha => by cases ha⟩
  | refused hstopped hover => exact ⟨h.enter _ _ hσ, fun a ha => by cases ha⟩
  | remembered hstopped hwithin artifact hretrieve =>
    refine ⟨hretrieved, ?_⟩
    intro a ha
    cases ha
    exact h.retrieved s c _ artifact hentered hretrieve
  | unrouted hstopped hwithin hretrieve f hchoose =>
    exact ⟨h.choose _ _ _ hretrieved, fun a ha => by cases ha⟩
  | routed hstopped hwithin hretrieve m hchoose =>
    exact h.attempts hs hrouter hbelow depth _ _ (of_choose hrouter hchoose) _ _
      (h.choose _ _ _ hretrieved)

/-- A whole call keeps what its steps keep, and its solution is as they make sure of. -/
theorem CallKeeps.synthesize (h : CallKeeps e P I Q)
    (hrouter : e.router.strategies = e.router.registry.strategies) (hs : P s)
    (hσ : I { σ with visits := 0, actions := [] }) :
    I (e.synthesize s c σ).2 ∧ ∀ a, (e.synthesize s c σ).1.outcome = .ok a → Q a := by
  have hsolve : SolverKeeps P I Q (e.solve e.settings.maxDepth.toNat 0) :=
    solve_induction (fun depth hbelow => h.visit hrouter depth hbelow) _ 0
  exact hsolve s c { σ with visits := 0, actions := [] } hs hσ

end

end Engine

end Synthesis
