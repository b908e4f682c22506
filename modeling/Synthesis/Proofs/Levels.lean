import Synthesis.Proofs.Steps
import Synthesis.Proofs.Chains

/-!
An engine that only uses built-in strategies does not depend on how many levels of subproblems it
is allowed, as soon as there are as many as the longest chain of decompositions has. What an
attempt does is decided by the solver for its subproblems, and of that only by what it does to
the parts that are made; so the levels that are never reached do not matter.
-/
namespace Synthesis.Engine

open Strategy

variable {ω : Type}

section Congruence

variable {solve₁ solve₂ : Solver ω} {subs : List Subproblem}
  (h : ∀ p ∈ subs, ∀ c σ, solve₁ p.specification c σ = solve₂ p.specification c σ)

include h

theorem solveWave_congr (c : Context) (wave : List Nat) (σ : Session ω) :
    solveWave solve₁ subs c wave σ = solveWave solve₂ subs c wave σ := by
  induction wave generalizing σ with
  | nil => rfl
  | cons i rest ih =>
    unfold solveWave
    cases hi : subs[i]? with
    | none => exact ih σ
    | some p =>
      dsimp only
      rw [h p (List.mem_of_getElem? hi), ih]

theorem solveWaves_congr (waves : List (List Nat)) (c : Context) (children : Children)
    (σ : Session ω) :
    solveWaves solve₁ subs waves c children σ = solveWaves solve₂ subs waves c children σ := by
  induction waves generalizing c children σ with
  | nil => rfl
  | cons wave rest ih =>
    unfold solveWaves
    rw [solveWave_congr h]
    dsimp only
    split
    · rfl
    · exact ih _ _ _

/-- Only what a solver does to the parts counts. -/
theorem splitAttempt_congr (e : Engine ω) (s : Specification) (c : Context) (σ : Session ω) :
    e.splitAttempt solve₁ s c subs σ = e.splitAttempt solve₂ s c subs σ := by
  unfold splitAttempt
  rw [solveChildren_eq_solveWaves, solveChildren_eq_solveWaves, solveWaves_congr h]

end Congruence

variable {e : Engine ω}

/-- Two solvers of subproblems, or the lack of one, make no difference to any attempt by a
built-in strategy. -/
def Alike (e : Engine ω) (below₁ below₂ : Option (Solver ω)) (s : Specification) : Prop :=
  ∀ strategy ∈ builtin, ∀ depth c σ,
    e.attempt below₁ depth s c strategy σ = e.attempt below₂ depth s c strategy σ

/-- All strategies that can be chosen are built-in ones. -/
structure UsesBuiltin (e : Engine ω) : Prop where
  ranked : ∀ strategy ∈ e.router.strategies, strategy ∈ builtin
  registered : ∀ strategy ∈ e.router.registry.strategies, strategy ∈ builtin

namespace UsesBuiltin

theorem rank (h : e.UsesBuiltin) {walks : Walks} {experience : Experience}
    {history : Option HistoryQuery} {s : Specification} {c : Context} {m : Match}
    (hm : m ∈ e.router.rank walks experience history s c) : m.strategy ∈ builtin := by
  rw [Router.rank, List.mem_mergeSort, List.mem_map] at hm
  obtain ⟨⟨t, similarity⟩, ht, rfl⟩ := hm
  exact h.ranked t (List.of_mem_zip (List.mem_filter.mp ht).1).1

theorem nextStrategy? (h : e.UsesBuiltin) {s : Specification} {c : Context} {tried : List String}
    {σ : Session ω} {m : Match} (hm : e.nextStrategy? s c tried σ = some m) :
    m.strategy ∈ builtin :=
  h.rank (List.mem_of_find?_eq_some hm)

theorem remembered (h : e.UsesBuiltin) {walks : Walks} {experience : Experience}
    {history : Option HistoryQuery} {now : Int} {s : Specification} {c : Context}
    {cache : StrategyCache} {m : Match}
    (hm : (e.router.remembered walks experience history now s c cache).1 = some m) :
    m.strategy ∈ builtin := by
  unfold Router.remembered at hm
  split at hm
  next => cases hm
  next name later _ =>
    split at hm
    next t ht =>
      cases hm
      have hget := (Option.filter_eq_some_iff.mp ht).1
      exact h.registered t (List.mem_of_find?_eq_some hget)
    next => cases hm

theorem choose (h : e.UsesBuiltin) {s : Specification} {c : Context} {σ : Session ω} {m : Match}
    (hm : (σ.choose e s c).1 = .ok m) : m.strategy ∈ builtin := by
  unfold Session.choose Router.select at hm
  dsimp only at hm
  split at hm
  next m' hremembered =>
    cases hm
    exact h.remembered hremembered
  next =>
    split at hm
    next => cases hm
    next best rest hrank =>
      cases hm
      exact h.rank (hrank ▸ List.mem_cons_self)

end UsesBuiltin

theorem attempts_congr (huses : e.UsesBuiltin) {below₁ below₂ : Option (Solver ω)} {depth : Int}
    {s : Specification} {c : Context} (halike : e.Alike below₁ below₂ s) (retries : Nat)
    (tried : List String) {m : Match} (hm : m.strategy ∈ builtin) (iterations : Int)
    (phases : List Phase) (σ : Session ω) :
    e.attempts below₁ depth s c retries tried m iterations phases σ =
      e.attempts below₂ depth s c retries tried m iterations phases σ := by
  induction retries generalizing tried m iterations phases σ with
  | zero =>
    unfold attempts
    rw [halike m.strategy hm]
  | succ n ih =>
    unfold attempts
    rw [halike m.strategy hm]
    rcases e.attempt below₂ depth s c m.strategy σ with ⟨a, σ₁⟩
    dsimp only
    cases a.outcome with
    | ok artifact => rfl
    | error f =>
      dsimp only
      split
      · rfl
      · cases hnext : e.nextStrategy? s c tried
            ((σ₁.note e s m.name false (iterations + a.iterations)).mark (.ranked s)) with
        | none => rfl
        | some next => exact ih _ (huses.nextStrategy? hnext) _ _ _

theorem visit_congr (huses : e.UsesBuiltin) {below₁ below₂ : Option (Solver ω)}
    {s : Specification} (halike : e.Alike below₁ below₂ s) (depth : Int) (c : Context)
    (σ : Session ω) : e.visit below₁ depth s c σ = e.visit below₂ depth s c σ := by
  unfold visit
  split
  · rfl
  · split
    · rfl
    · rcases (σ.enter (.admitted depth)).retrieve e s c with ⟨remembered, σ₁⟩
      cases remembered with
      | some artifact => rfl
      | none =>
        dsimp only
        rcases hchoose : σ₁.choose e s c with ⟨selected, σ₂⟩
        cases selected with
        | error f => rfl
        | ok m =>
          have hm : (σ₁.choose e s c).1 = .ok m := by rw [hchoose]
          exact attempts_congr huses halike _ _ (huses.choose hm) _ _ _

/-- From the specification on there are at most so many decompositions in a row. -/
def Shallow (n : Nat) (s : Specification) : Prop :=
  ∀ names t, Chain s names t → names.length ≤ n

theorem Shallow.part {n : Nat} {s : Specification} (h : Shallow (n + 1) s) {strategy : Strategy}
    {c : Context} {subs : List Subproblem} {p : Subproblem} (hbuiltin : strategy ∈ builtin)
    (hsubs : strategy.decompose s c = .ok subs) (hp : p ∈ subs) : Shallow n p.specification := by
  intro names t hchain
  have hlength := h _ t (.split hbuiltin hsubs hp hchain)
  exact Nat.le_of_succ_le_succ hlength

/-- Parts that are accepted are those that the strategy makes. -/
theorem decompose_eq_ok {s : Specification} {c : Context} {strategy : Strategy}
    {subs : List Subproblem} {p : Subproblem} (h : decompose s c strategy = .ok subs)
    (hp : p ∈ subs) : strategy.decompose s c = .ok subs := by
  unfold decompose at h
  split at h
  · cases h
    simp at hp
  · split at h
    · cases h
    next made hmade =>
      split at h
      · cases h
      · cases h
        exact hmade

theorem decompose_of_shallow {s : Specification} (h : Shallow 0 s) {strategy : Strategy}
    (hbuiltin : strategy ∈ builtin) (c : Context) : decompose s c strategy = .ok [] := by
  have hmade : ∃ subs, strategy.decompose s c = .ok subs := by
    simp only [builtin, List.mem_cons, List.not_mem_nil, or_false] at hbuiltin
    rcases hbuiltin with rfl | rfl | rfl | rfl <;> exact ⟨_, rfl⟩
  obtain ⟨subs, hsubs⟩ := hmade
  unfold decompose
  cases subs with
  | nil =>
    rw [hsubs]
    split <;> rfl
  | cons p rest =>
    have hlength := h _ _ (.split hbuiltin hsubs List.mem_cons_self (.stop p.specification))
    simp at hlength

theorem alike_of_shallow {s : Specification} (h : Shallow 0 s)
    (below₁ below₂ : Option (Solver ω)) : e.Alike below₁ below₂ s := by
  have hleaf : ∀ (below : Option (Solver ω)) (strategy : Strategy), strategy ∈ builtin →
      ∀ depth c σ, e.attempt below depth s c strategy σ =
        e.leafAttempt depth s c (σ.mark (.decomposed s strategy.name)) := by
    intro below strategy hbuiltin depth c σ
    unfold attempt
    rw [decompose_of_shallow h hbuiltin c]
    cases below <;> rfl
  intro strategy hbuiltin depth c σ
  rw [hleaf below₁ strategy hbuiltin, hleaf below₂ strategy hbuiltin]

theorem alike_of_parts {s : Specification} {solve₁ solve₂ : Solver ω}
    (h : ∀ strategy ∈ builtin, ∀ c subs, strategy.decompose s c = .ok subs →
      ∀ p ∈ subs, ∀ c σ, solve₁ p.specification c σ = solve₂ p.specification c σ) :
    e.Alike (some solve₁) (some solve₂) s := by
  intro strategy hbuiltin depth c σ
  unfold attempt
  dsimp only
  cases hsubs : decompose s c strategy with
  | error f => rfl
  | ok subs =>
    cases subs with
    | nil => rfl
    | cons p rest =>
      exact splitAttempt_congr
        (h strategy hbuiltin c _ (decompose_eq_ok hsubs List.mem_cons_self)) e s c _

/-- Levels beyond the longest chain of decompositions make no difference. -/
theorem solve_of_shallow (huses : e.UsesBuiltin) {n : Nat} {s : Specification}
    (h : Shallow n s) {a b : Nat} (ha : n ≤ a) (hb : n ≤ b) (depth : Int) (c : Context)
    (σ : Session ω) : e.solve a depth s c σ = e.solve b depth s c σ := by
  induction n generalizing s a b depth c σ with
  | zero =>
    have hvisit : ∀ k, ∃ below, e.solve k depth = e.visit below depth := by
      intro k
      cases k with
      | zero => exact ⟨none, rfl⟩
      | succ k => exact ⟨some (e.solve k (depth + 1)), rfl⟩
    obtain ⟨below₁, h₁⟩ := hvisit a
    obtain ⟨below₂, h₂⟩ := hvisit b
    rw [h₁, h₂]
    exact visit_congr huses (alike_of_shallow h below₁ below₂) depth c σ
  | succ n ih =>
    obtain ⟨a, rfl⟩ := Nat.exists_eq_add_of_le' ha
    obtain ⟨b, rfl⟩ := Nat.exists_eq_add_of_le' hb
    refine visit_congr huses (alike_of_parts ?_) depth c σ
    intro strategy hbuiltin c subs hsubs p hp c σ
    exact ih (h.part hbuiltin hsubs hp) (Nat.le_add_left n a) (Nat.le_add_left n b) _ c σ

/-- Where all parameters are balanced, a chain of built-in decompositions has at most four
members: two by tests, one along the signature, and last one by recognised steps. So an engine
with built-in strategies comes to the same with any number of levels from four on as with the
number that is set by default. -/
theorem builtin_chains_end (s : Specification)
    (hbalanced : ∀ sig, Signature.parse? s.typeSignature = some sig →
      ∀ p ∈ sig.params, Signature.Balanced p) :
    (∀ names t, Chain s names t →
      names.length ≤ 4 ∧ names.count clusters.name ≤ 2 ∧ names.count parameters.name ≤ 1 ∧
        names.count stages.name ≤ 1 ∧ stages.name ∉ names.dropLast) ∧
      ∀ {ω : Type} (e : Engine ω), e.UsesBuiltin → ∀ n, 4 ≤ n → ∀ depth c σ,
        e.solve n depth s c σ = e.solve ({} : Settings).maxDepth.toNat depth s c σ := by
  have hbounded : ∀ names t, Chain s names t → Bounded s names :=
    fun names t hchain => hchain.bounded (Or.inl hbalanced)
  constructor
  · intro names t hchain
    have h := hbounded names t hchain
    obtain ⟨hclusters, hparameters, hlength⟩ := h.length_le
    exact ⟨hlength, hclusters, hparameters, h.stages_le, h.stages_last⟩
  · intro ω e huses n hn depth c σ
    have hshallow : Shallow 4 s :=
      fun names t hchain => (hbounded names t hchain).length_le.2.2
    exact solve_of_shallow huses hshallow hn (by decide) depth c σ

/-- Its tests differ in category and in operation, and its description names two steps. -/
def sorting : Specification where
  description := "load and sort"
  typeSignature := "(xs: list(int, int), n: int) -> list"
  tests := some
    [{ name := "error a", calls := some ["f"] }, { name := "error b", calls := some ["f"] },
      { name := "error c", calls := some ["g"] }, { name := "error d", calls := some ["g"] },
      { name := "empty", calls := some ["f"] }]

def standard : Engine Unit where
  settings := {}
  router := .new .builtin Router.defaultHistoryLimit .inOrder
  collaborators := { generator := fun _ _ _ => Request.answer { success := true, code := "done" } }
  clock := fun _ => 0

/-- A chain with all four decompositions; more levels than the default ones change nothing. -/
theorem builtin_chains_end_sorting :
    (∃ t, Chain sorting [parameters.name, clusters.name, clusters.name, stages.name] t) ∧
      (∀ names t, Chain sorting names t → names.length ≤ 4) ∧
        ∀ c σ, standard.solve 9 0 sorting c σ = standard.solve 5 0 sorting c σ := by
  have hbalanced : ∀ sig, Signature.parse? sorting.typeSignature = some sig →
      ∀ p ∈ sig.params, Signature.Balanced p := by
    intro sig hsig
    have hparse : Signature.parse? sorting.typeSignature =
        some ⟨[⟨"xs", "list(int, int)"⟩, ⟨"n", "int"⟩], "list"⟩ := by decide +kernel
    rw [hparse] at hsig
    cases hsig
    decide +kernel
  have hchain : ∃ t, Chain sorting
      [parameters.name, clusters.name, clusters.name, stages.name] t :=
    ⟨_, .split_at {} parameters (by simp [builtin]) rfl 2 (by decide +kernel)
      (.split_at {} clusters (by simp [builtin]) rfl 0 (by decide +kernel)
        (.split_at {} clusters (by simp [builtin]) rfl 1 (by decide +kernel)
          (.split_at {} stages (by simp [builtin]) rfl 0 (by decide +kernel) (.stop _))))⟩
  have huses : standard.UsesBuiltin := ⟨fun _ h => h, fun _ h => h⟩
  obtain ⟨hshort, hlevels⟩ := builtin_chains_end sorting hbalanced
  exact ⟨hchain, fun names t h => (hshort names t h).1, hlevels standard huses 9 (by decide) 0⟩

end Synthesis.Engine
