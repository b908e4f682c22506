import Synthesis.Engine.Solve

/-!
The actions of a call. Every step of a session says which action it adds and leaves the number of
visits alone; a leaf asks the generator and the validators and does nothing else. Of the
failures, only a refused visit is a failure of the budget.
-/
namespace Synthesis

namespace Action

/-- Visiting, looking for a strategy, splitting, and asking a collaborator. What is no work
takes note of how something ended. -/
def isWork : Action → Bool
  | .gathered _ => false
  | .recorded _ _ _ => false
  | _ => true

/-- Asking a collaborator. -/
def asks : Action → Bool
  | .proposed _ _ => true
  | .inspected _ _ => true
  | _ => false

theorem refused_notMem_of_asks {actions : List Action} (h : ∀ a ∈ actions, a.asks = true) :
    Action.refused ∉ actions := by
  intro hmem
  have hasks := h _ hmem
  simp [asks] at hasks

theorem refused_notMem_of_idle {actions : List Action} (h : ∀ a ∈ actions, a.isWork = false) :
    Action.refused ∉ actions := by
  intro hmem
  have hwork := h _ hmem
  simp [isWork] at hwork

end Action

/-- The kind of the failure something ended with, if it failed. -/
def kindOf {α : Type} : Except Failure α → Option FailureKind
  | .ok _ => none
  | .error f => some f.kind

theorem kindOf_eq_some {α : Type} {outcome : Except Failure α} {kind : FailureKind} :
    kindOf outcome = some kind ↔ ∃ f, outcome = .error f ∧ f.kind = kind := by
  cases outcome with
  | ok a => simp [kindOf]
  | error f => simp [kindOf]

/-- A solution is no failure of any kind. -/
theorem kindOf_ok_ne (a : Artifact) (kind : FailureKind) : kindOf (.ok a) ≠ some kind := by
  simp [kindOf]

/-- A failure that another strategy may mend is not one of the budget. -/
theorem kindOf_ne_of_isRetryable {α : Type} {outcome : Except Failure α} {f : Failure}
    (hout : outcome = .error f) (hretry : f.kind.isRetryable = true) :
    kindOf outcome ≠ some .budgetExceeded := by
  intro hbudget
  simp only [hout, kindOf, Option.some.injEq] at hbudget
  simp [hbudget, FailureKind.isRetryable] at hretry

namespace Session

variable {ω : Type}

@[simp] theorem mark_actions (a : Action) (σ : Session ω) :
    (σ.mark a).actions = a :: σ.actions := rfl

@[simp] theorem mark_visits (a : Action) (σ : Session ω) : (σ.mark a).visits = σ.visits := rfl

@[simp] theorem note_actions (e : Engine ω) (s : Specification) (name : String) (success : Bool)
    (iterations : Int) (σ : Session ω) :
    (σ.note e s name success iterations).actions = .recorded s name success :: σ.actions := rfl

@[simp] theorem note_stopped (e : Engine ω) (s : Specification) (name : String) (success : Bool)
    (iterations : Int) (σ : Session ω) :
    (σ.note e s name success iterations).stopped = σ.stopped := rfl

@[simp] theorem retrieve_actions (e : Engine ω) (s : Specification) (c : Context)
    (σ : Session ω) : (σ.retrieve e s c).2.actions = σ.actions := rfl

@[simp] theorem retrieve_visits (e : Engine ω) (s : Specification) (c : Context)
    (σ : Session ω) : (σ.retrieve e s c).2.visits = σ.visits := rfl

theorem choose_kind (e : Engine ω) (s : Specification) (c : Context) (σ : Session ω) :
    kindOf (σ.choose e s c).1 ≠ some .budgetExceeded := by
  change kindOf (e.router.select (σ.walks e).scores σ.experience (σ.history e) (σ.now e) s c
    (some σ.strategies)).1 ≠ _
  unfold Router.select
  dsimp only
  split
  · exact nofun
  · split <;> exact nofun

/-- From one session to a later one, nothing was done but to ask collaborators. -/
def Asked (σ σ' : Session ω) : Prop :=
  σ'.visits = σ.visits ∧
    ∃ asked, σ'.actions = asked ++ σ.actions ∧ ∀ a ∈ asked, a.asks = true

theorem Asked.refl (σ : Session ω) : σ.Asked σ := ⟨rfl, [], rfl, by simp⟩

theorem Asked.trans {σ σ' σ'' : Session ω} (h : σ.Asked σ') (h' : σ'.Asked σ'') :
    σ.Asked σ'' := by
  obtain ⟨hv, asked, ha, hasks⟩ := h
  obtain ⟨hv', asked', ha', hasks'⟩ := h'
  refine ⟨hv'.trans hv, asked' ++ asked, ?_, ?_⟩
  · rw [ha', ha, List.append_assoc]
  · intro a hmem
    rcases List.mem_append.mp hmem with h | h
    · exact hasks' a h
    · exact hasks a h

theorem propose_asked (e : Engine ω) (s : Specification) (c : Context) (hints : Hints)
    (σ : Session ω) : σ.Asked (σ.propose e s c hints).2 :=
  ⟨rfl, [.proposed s hints], rfl, by simp [Action.asks]⟩

theorem inspect_asked (e : Engine ω) (s : Specification) (a : Artifact) (σ : Session ω) :
    σ.Asked (σ.inspect e s a).2 :=
  ⟨rfl, [.inspected s a], rfl, by simp [Action.asks]⟩

theorem countUses_asked (hits : List ScoredAbstraction) (success : Bool) (σ : Session ω) :
    σ.Asked (σ.countUses hits success) :=
  ⟨rfl, [], rfl, by simp⟩

theorem findAbstractions_asked (e : Engine ω) (s : Specification) (c : Context) (limit : Int)
    (σ : Session ω) : σ.Asked (σ.findAbstractions e s c limit).2 := by
  unfold findAbstractions
  cases σ.abstractions with
  | none => exact .refl σ
  | some library => exact ⟨rfl, [], rfl, by simp⟩

end Session

namespace Engine

variable {ω : Type}

theorem leafTries_asked (e : Engine ω) (s : Specification) (c : Context) (hints : Hints)
    (n : Nat) (k : Int) (issues : List String) (σ : Session ω) :
    σ.Asked (e.leafTries s c hints n k issues σ).2 := by
  induction n generalizing k issues σ with
  | zero => exact .refl σ
  | succ n ih =>
    have hpropose := Session.propose_asked e s c { hints with attempt := k, issues } σ
    unfold leafTries
    rcases hp : σ.propose e s c { hints with attempt := k, issues } with ⟨proposed, σ₁⟩
    rw [hp] at hpropose
    cases proposed with
    | error f => exact hpropose
    | ok candidate =>
      dsimp only
      split
      · exact hpropose.trans (ih _ _ _)
      · have hinspect := Session.inspect_asked e s
          ⟨candidate.code, candidate.confidence, "generate"⟩ σ₁
        rcases hi : σ₁.inspect e s ⟨candidate.code, candidate.confidence, "generate"⟩
          with ⟨inspected, σ₂⟩
        rw [hi] at hinspect
        have hboth := hpropose.trans hinspect
        cases inspected with
        | error f => exact hboth
        | ok report =>
          have hcounted := hboth.trans
            (Session.countUses_asked hints.abstractions report.passed σ₂)
          dsimp only
          split
          · exact hcounted
          · exact hcounted.trans (ih _ _ _)

theorem leaf_asked (e : Engine ω) (depth : Int) (s : Specification) (c : Context)
    (σ : Session ω) : σ.Asked (e.leaf depth s c σ).2 :=
  (Session.findAbstractions_asked e s c maxAbstractions σ).trans (leafTries_asked ..)

theorem kind_leafFailure (stopped : Option Interruption) (f : Failure) :
    (leafFailure stopped f).kind ≠ .budgetExceeded := by
  cases stopped with
  | none => exact nofun
  | some why => cases why <;> exact nofun

theorem leafTries_kind (e : Engine ω) (s : Specification) (c : Context) (hints : Hints)
    (n : Nat) (k : Int) (issues : List String) (σ : Session ω) :
    kindOf (e.leafTries s c hints n k issues σ).1 ≠ some .budgetExceeded := by
  induction n generalizing k issues σ with
  | zero => exact nofun
  | succ n ih =>
    unfold leafTries
    rcases σ.propose e s c { hints with attempt := k, issues } with ⟨proposed, σ₁⟩
    cases proposed with
    | error f => simpa [kindOf] using kind_leafFailure σ₁.stopped f
    | ok candidate =>
      dsimp only
      split
      · exact ih _ _ _
      · rcases σ₁.inspect e s ⟨candidate.code, candidate.confidence, "generate"⟩
          with ⟨inspected, σ₂⟩
        cases inspected with
        | error f => simpa [kindOf] using kind_leafFailure σ₂.stopped (.wrapped "validate" f)
        | ok report =>
          dsimp only
          split
          · exact nofun
          · exact ih _ _ _

theorem leaf_kind (e : Engine ω) (depth : Int) (s : Specification) (c : Context)
    (σ : Session ω) : kindOf (e.leaf depth s c σ).1 ≠ some .budgetExceeded := by
  unfold leaf
  exact leafTries_kind e s c _ _ _ _ _

theorem decompose_kind (s : Specification) (c : Context) (strategy : Strategy) :
    kindOf (decompose s c strategy) ≠ some .budgetExceeded := by
  unfold decompose
  split
  · exact nofun
  · split
    · rename_i f _
      unfold Failure.asDecomposition
      split <;> exact nofun
    · split <;> exact nofun

/-- Composing the parts fails for the budget just when the failure that counts does. -/
theorem composeParts_kind (s : Specification) (subs : List Subproblem) (children : Children) :
    kindOf (composeParts s subs children) = some .budgetExceeded ↔
      children.failure.map Failure.kind = some .budgetExceeded := by
  have hcomposed : kindOf (((Composer.select subs).compose children.parts s).mapError
      (·.failure)) ≠ some .budgetExceeded := by
    cases (Composer.select subs).compose children.parts s with
    | ok a => exact nofun
    | error fault => cases fault <;> exact nofun
  unfold composeParts
  cases children.failure with
  | none => simpa using hcomposed
  | some f =>
    by_cases hends : f.endsCall = true
    · simp [hends, kindOf]
    · have hkind : f.kind ≠ .budgetExceeded := by
        intro h
        simp [Failure.endsCall, h] at hends
      simpa [hends, hkind] using hcomposed

end Engine

end Synthesis
