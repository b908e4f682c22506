import Synthesis.Proofs.Invariants
import Synthesis.Proofs.Calls
import Synthesis.Proofs.Budget

/-!
Remembered choices of strategies. A choice is remembered as soon as it is made, before its outcome
is known, and a failed attempt makes the engine forget it; in between, visits below may choose,
forget and record under the same key. So during a visit its own key is undecided. When the visit
ends, its last outcome decides the key: it is a success, or nothing is remembered under the key.
-/
namespace Synthesis

/-- The outcome that an action records for a key. -/
def Action.outcome? (key : String) : Action → Option Bool
  | .recorded s _ success => if strategyKey s = key then some success else none
  | _ => none

/-- The latest outcome recorded for a key, where the newest action comes first. -/
def latestOutcome (key : String) (actions : List Action) : Option Bool :=
  actions.findSome? (Action.outcome? key)

theorem latestOutcome_append {key : String} {new : List Action} (actions : List Action)
    (hnew : ∀ a ∈ new, a.outcome? key = none) :
    latestOutcome key (new ++ actions) = latestOutcome key actions := by
  unfold latestOutcome
  rw [List.findSome?_append, List.findSome?_eq_none_iff.mpr hnew, Option.none_or]

theorem latestOutcome_recorded (s : Specification) (name : String) (success : Bool)
    (actions : List Action) :
    latestOutcome (strategyKey s) (.recorded s name success :: actions) = some success := by
  simp [latestOutcome, Action.outcome?]

theorem latestOutcome_recorded_of_ne {key : String} {s : Specification} (h : strategyKey s ≠ key)
    (name : String) (success : Bool) (actions : List Action) :
    latestOutcome key (.recorded s name success :: actions) = latestOutcome key actions := by
  simp [latestOutcome, Action.outcome?, h]

theorem Action.outcome?_of_asks {a : Action} (h : a.asks = true) (key : String) :
    a.outcome? key = none := by
  cases a with
  | proposed s hints => rfl
  | inspected s artifact => rfl
  | _ => cases h

/-- Looking at a remembered choice makes no new one. -/
theorem Router.remembered_holds {r : Router} {walks : Walks} {x : Experience}
    {history : Option HistoryQuery} {now : Int} {s : Specification} {c : Context}
    {cache : StrategyCache} {P : String → String → Prop} (h : cache.Holds P) :
    (r.remembered walks x history now s c cache).2.Holds P := by
  have hgot := h.get now (strategyKey s)
  unfold Router.remembered
  split
  next later hget =>
    rw [hget] at hgot
    exact hgot
  next name later hget =>
    rw [hget] at hgot
    split
    · exact hgot
    · exact hgot.erase fun _ _ _ hk => hk

namespace Session

variable {ω : Type} {e : Engine ω} {s : Specification} {c : Context} {σ σ' : Session ω}

/-- Only for a strategy that is chosen something is remembered, under the key of the
specification. -/
theorem choose_holds {P : String → String → Prop} (h : σ.strategies.Holds P)
    (hnew : ∀ m, (σ.choose e s c).1 = .ok m → P (strategyKey s) m.name) :
    (σ.choose e s c).2.strategies.Holds P := by
  have hkept : (e.router.remembered (σ.walks e).scores σ.experience (σ.history e) (σ.now e) s c
      σ.strategies).2.Holds P :=
    Router.remembered_holds h
  change ∀ m, (e.router.select (σ.walks e).scores σ.experience (σ.history e) (σ.now e) s c
    (some σ.strategies)).1 = .ok m → P (strategyKey s) m.name at hnew
  change ((e.router.select (σ.walks e).scores σ.experience (σ.history e) (σ.now e) s c
    (some σ.strategies)).2.getD σ.strategies).Holds P
  unfold Router.select at hnew ⊢
  dsimp only at hnew ⊢
  split
  next => exact hkept
  next hnone =>
    rw [hnone] at hnew
    split
    next => exact hkept
    next best rest hrank =>
      rw [hrank] at hnew
      exact hkept.set _ (hnew best rfl)

/-- After the earlier actions, every remembered choice is under an undecided key, or the latest
outcome for its key is a success. -/
def Trusted (earlier : List Action) (undecided : List String) (σ : Session ω) : Prop :=
  σ.strategies.Holds fun key _ =>
    key ∈ undecided ∨ latestOutcome key (σ.actions ++ earlier) = some true

namespace Trusted

variable {earlier : List Action} {undecided : List String}

theorem weaken (h : σ.Trusted earlier undecided) (key : String) :
    σ.Trusted earlier (key :: undecided) := by
  refine Cache.Holds.imp h ?_
  intro k _ hk
  rcases hk with hmem | hlatest
  · exact Or.inl (List.mem_cons_of_mem key hmem)
  · exact Or.inr hlatest

/-- What records no outcome and leaves the choices alone keeps them trusted. -/
theorem grow (new : List Action) (h : σ.Trusted earlier undecided)
    (hstrategies : σ'.strategies = σ.strategies) (hactions : σ'.actions = new ++ σ.actions)
    (hnew : ∀ a ∈ new, ∀ key, a.outcome? key = none) : σ'.Trusted earlier undecided := by
  unfold Trusted
  rw [hstrategies]
  refine Cache.Holds.imp h ?_
  intro key _ hkey
  have hsame : latestOutcome key (σ'.actions ++ earlier) =
      latestOutcome key (σ.actions ++ earlier) := by
    rw [hactions, List.append_assoc]
    exact latestOutcome_append _ fun a ha => hnew a ha key
  rw [hsame]
  exact hkey

theorem mark (h : σ.Trusted earlier undecided) (a : Action) (ha : ∀ key, a.outcome? key = none) :
    (σ.mark a).Trusted earlier undecided :=
  h.grow [a] rfl rfl (by simpa using ha)

theorem asked (h : σ.Trusted earlier undecided) (hstrategies : σ'.strategies = σ.strategies)
    (hasked : σ.Asked σ') : σ'.Trusted earlier undecided := by
  obtain ⟨_, asked, hactions, hasks⟩ := hasked
  exact h.grow asked hstrategies hactions fun a ha key => a.outcome?_of_asks (hasks a ha) key

/-- The key of a specification is undecided from the choice of a strategy on; without a strategy
nothing is remembered. -/
theorem choose (h : σ.Trusted earlier undecided) :
    (σ.choose e s c).2.Trusted earlier (strategyKey s :: undecided) ∧
      ∀ f, (σ.choose e s c).1 = .error f → (σ.choose e s c).2.Trusted earlier undecided := by
  have hmarked : ∀ key, latestOutcome key ((σ.choose e s c).2.actions ++ earlier) =
      latestOutcome key (σ.actions ++ earlier) := by
    intro key
    have hranked : ∀ a ∈ [Action.ranked s], a.outcome? key = none := by simp [Action.outcome?]
    exact latestOutcome_append _ hranked
  constructor
  · unfold Trusted
    simp only [hmarked]
    refine choose_holds (h.weaken (strategyKey s)) ?_
    intro m _
    exact Or.inl List.mem_cons_self
  · intro f hf
    unfold Trusted
    simp only [hmarked]
    refine choose_holds h ?_
    intro m hm
    rw [hf] at hm
    cases hm

/-- The outcome decides the key: after a success it is trusted, after a failure nothing is
remembered under it. -/
theorem note (h : σ.Trusted earlier (strategyKey s :: undecided)) (name : String)
    (success : Bool) (iterations : Int) :
    (σ.note e s name success iterations).Trusted earlier undecided := by
  -- For any other key nothing has changed.
  have hother : ∀ key, key ≠ strategyKey s →
      key ∈ strategyKey s :: undecided ∨ latestOutcome key (σ.actions ++ earlier) = some true →
      key ∈ undecided ∨ latestOutcome key
        ((σ.note e s name success iterations).actions ++ earlier) = some true := by
    intro key hne hkey
    rw [note_actions, List.cons_append, latestOutcome_recorded_of_ne hne.symm]
    rcases hkey with hmem | hlatest
    · exact Or.inl (List.mem_of_ne_of_mem hne hmem)
    · exact Or.inr hlatest
  cases success with
  | true =>
    refine Cache.Holds.imp h ?_
    intro key _ hkey
    by_cases hown : key = strategyKey s
    · refine Or.inr ?_
      rw [hown, note_actions, List.cons_append]
      exact latestOutcome_recorded s name true _
    · exact hother key hown hkey
  | false =>
    refine Cache.Holds.erase h ?_
    intro key _ hne hkey
    exact hother key hne hkey

end Trusted

end Session

namespace Engine

open Session

variable {ω : Type} {e : Engine ω}

/-- The solver keeps choices trusted, whatever keys are undecided around it. -/
def KeepsTrust (solve : Solver ω) : Prop :=
  ∀ earlier undecided s c σ, σ.Trusted earlier undecided →
    (solve s c σ).2.Trusted earlier undecided

section

variable {below : Option (Solver ω)} (hbelow : ∀ solve ∈ below, KeepsTrust solve)
  {earlier : List Action} {undecided : List String} {σ : Session ω}

include hbelow

theorem attempt_trusted (depth : Int) (s : Specification) (c : Context) (strategy : Strategy)
    (h : σ.Trusted earlier undecided) :
    (e.attempt below depth s c strategy σ).2.Trusted earlier undecided := by
  have hmarked := h.mark (.decomposed s strategy.name) fun _ => rfl
  have hgoes := attempt_goes e below depth s c strategy σ
  generalize e.attempt below depth s c strategy σ = out at hgoes ⊢
  cases hgoes with
  | leaf =>
    have hsame := leaf_sameMemory e depth s c (σ.mark (.decomposed s strategy.name))
    exact hmarked.asked hsame.strategies (leaf_asked e depth s c _)
  | broken f hsplit => exact hmarked
  | split solve subs hsolve hsplit hsome =>
    have hkeeps : SolvesWith solve subs (Trusted earlier undecided) fun _ => True := by
      intro p _ c' σ' h'
      exact ⟨hbelow solve hsolve earlier undecided p.specification c' σ' h', fun _ _ => trivial⟩
    have hchildren := (solveChildren_keeps e hkeeps c _ hmarked).1
    exact hchildren.mark _ fun _ => rfl

/-- The induction is on the attempts that are left; each begins with the key undecided, and its
outcome decides it. -/
theorem attempts_trusted (depth : Int) (s : Specification) (c : Context) (retries : Nat)
    (tried : List String) (m : Match) (iterations : Int) (phases : List Phase)
    (h : σ.Trusted earlier (strategyKey s :: undecided)) :
    (e.attempts below depth s c retries tried m iterations phases σ).2.Trusted earlier
      undecided := by
  induction retries using Nat.strongRecOn generalizing tried m iterations phases σ with
  | ind retries ih =>
    have hattempt := attempt_trusted (e := e) hbelow depth s c m.strategy h
    rcases ha : e.attempt below depth s c m.strategy σ with ⟨a, σ₁⟩
    rw [ha] at hattempt
    have hcontinues := attempts_continues e below depth s c retries tried m iterations phases σ ha
    generalize e.attempts below depth s c retries tried m iterations phases σ = out
      at hcontinues ⊢
    cases hcontinues with
    | solved artifact hout =>
      have hremembered : (σ₁.remember e s c artifact).Trusted earlier
          (strategyKey s :: undecided) := hattempt.grow [] rfl rfl (by simp)
      exact hremembered.note m.name true _
    | ended f hout hend => exact hattempt.note m.name false _
    | exhausted f hout hretry hnext =>
      exact (hattempt.note m.name false _).mark _ fun _ => rfl
    | retried f n next hout hretries hstop hretry hnext =>
      have hdecided := (hattempt.note (e := e) m.name false (iterations + a.iterations)).mark
        (.ranked s) fun _ => rfl
      exact ih n (by omega) _ _ _ _ (hdecided.weaken (strategyKey s))

theorem visit_keepsTrust (depth : Int) : KeepsTrust (e.visit below depth) := by
  intro earlier undecided s c σ h
  have hentered : ((σ.enter (.admitted depth)).retrieve e s c).2.Trusted earlier undecided :=
    h.grow [.admitted depth] rfl rfl (by simp [Action.outcome?])
  have hvisits := visit_visits e below depth s c σ
  generalize e.visit below depth s c σ = out at hvisits ⊢
  cases hvisits with
  | turnedAway why hstopped => exact h.mark .turnedAway fun _ => rfl
  | refused hstopped hover => exact h.grow [.refused] rfl rfl (by simp [Action.outcome?])
  | remembered hstopped hwithin artifact hretrieve => exact hentered
  | unrouted hstopped hwithin hretrieve f hchoose => exact hentered.choose.2 f hchoose
  | routed hstopped hwithin hretrieve m hchoose =>
    exact attempts_trusted hbelow depth s c _ _ m _ _ hentered.choose.1

end

theorem solve_keepsTrust (n : Nat) (depth : Int) : KeepsTrust (e.solve n depth) :=
  solve_induction (fun depth hbelow => visit_keepsTrust hbelow depth) n depth

/-- All that was done in calls one after the other, the newest first. -/
def doneIn (calls : List (Served ω)) : List Action := calls.reverse.flatMap (·.after.actions)

theorem doneIn_concat (calls : List (Served ω)) (x : Served ω) :
    doneIn (calls ++ [x]) = x.after.actions ++ doneIn calls := by
  simp [doneIn]

theorem call_trusted {σ : Session ω} {calls : List (Served ω)} {x : Served ω}
    (hx : x.Follows e σ)
    (h : σ.strategies.Holds fun key _ => latestOutcome key (doneIn calls) = some true) :
    x.after.strategies.Holds fun key _ =>
      latestOutcome key (doneIn (calls ++ [x])) = some true := by
  have hstart : ({ x.before with visits := 0, actions := [] } : Session ω).Trusted
      (doneIn calls) [] := by
    unfold Trusted
    rw [hx.strategies]
    exact h.imp fun _ _ hkey => Or.inr hkey
  have hend : (x.engine.synthesize x.specification x.context x.before).2.Trusted
      (doneIn calls) [] :=
    solve_keepsTrust x.engine.settings.maxDepth.toNat 0 _ _ x.specification x.context _ hstart
  rw [hx.call] at hend
  rw [doneIn_concat]
  refine Cache.Holds.imp hend ?_
  intro key _ hkey
  rcases hkey with hmem | hlatest
  · cases hmem
  · exact hlatest

/-- In a sequence of calls that begins without remembered choices, whatever is remembered in the
end is under a key for which the latest outcome recorded is a success. -/
theorem remembered_choices_succeeded {first last : Session ω} {calls : List (Served ω)}
    (hfresh : first.strategies.entries = {}) (hcalls : Serves e first calls last) :
    last.strategies.Holds fun key _ => latestOutcome key (doneIn calls) = some true := by
  induction hcalls with
  | nil =>
    intro x hx
    rw [hfresh] at hx
    cases hx
  | snoc _ hx ih => exact call_trusted hx ih

/-- First the same without its tests, so that a visit and the one below it share a key. -/
def untestedFirst : Strategy where
  metadata := { name := "untested first", description := "", keywords := [] }
  canHandle _ _ := true
  decompose s _ :=
    if s.testList.isEmpty then .ok []
    else .ok [{ specification := { s with tests := none } }]
  estimate _ _ := 1

/-- Needs a tool for whatever it is asked. -/
def crafting : Engine Unit where
  settings := { policy := { enabled := false } }
  router := .new ⟨[untestedFirst]⟩ 0 .inOrder
  collaborators :=
    { generator := fun _ c _ =>
        if c.hasPrimitive "tool" then Request.answer { success := true, code := "done" }
        else Request.fail (.plain "no tool") }
  clock := fun _ => 0

def craft : Specification := { description := "craft", tests := some [{ name := "finished" }] }

def barehanded : Served Unit := .of crafting craft {} (freshSession {})

def equipped : Served Unit :=
  .of crafting craft (.ofPrimitives ["tool"]) { barehanded.after with stopped := none }

/-- Two visits under one key fail in the first call and succeed in the second one; the choice that
is remembered then is trusted. -/
theorem remembered_choices_succeeded_equipped :
    Serves crafting (freshSession {}) [barehanded, equipped] equipped.after ∧
      (doneIn [barehanded, equipped]).filterMap (Action.outcome? (strategyKey craft)) =
        [true, true, false, false] ∧
      equipped.after.strategies.entries.names = [strategyKey craft] ∧
      latestOutcome (strategyKey craft) (doneIn [barehanded, equipped]) = some true := by
  have hcalls : Serves crafting (freshSession {}) [barehanded, equipped] equipped.after :=
    serves_pair crafting _ craft craft {} (.ofPrimitives ["tool"])
  have hnames : equipped.after.strategies.entries.names = [strategyKey craft] := by
    decide +kernel
  obtain ⟨x, hx, hkey⟩ := List.mem_map.mp (hnames ▸ List.mem_singleton_self (strategyKey craft))
  have hsucceeded := remembered_choices_succeeded rfl hcalls x hx
  rw [hkey] at hsucceeded
  exact ⟨hcalls, by decide +kernel, hnames, hsucceeded⟩

end Engine

end Synthesis
