import Synthesis.Proofs.Steps

/-!
How the subproblems of a decomposition are started. One after the other or in waves, they are
started in groups: a group is started only when all groups before it are solved, and its members
get the context of the parent with the solutions of those groups. As a schedule respects
dependencies, what a subproblem depends on is then solved and visible to it.
-/
namespace Synthesis.Engine

open Decomposition

variable {ω : Type}

/-- The subproblem at an index is started in a context, and comes to a result. -/
structure Start where
  index : Nat
  context : Context
  result : Result

def Start.Solved (x : Start) : Prop := ∃ a, x.result.outcome = .ok a

/-- The solver is asked for these starts and for no others, each in the session that the one
before it has left. It may be any solver, also one that writes down whatever it is asked. -/
inductive Runs (solve : Solver ω) (subs : List Subproblem) :
    Session ω → List Start → Session ω → Prop
  | nil (σ : Session ω) : Runs solve subs σ [] σ
  | cons {σ σ₁ σ₂ : Session ω} {x : Start} {rest : List Start} {p : Subproblem}
      (hp : subs[x.index]? = some p)
      (hx : solve p.specification x.context σ = (x.result, σ₁))
      (hrest : Runs solve subs σ₁ rest σ₂) : Runs solve subs σ (x :: rest) σ₂

/-- The description of a subproblem that came to a solution, with the solution. -/
def Start.entry? (subs : List Subproblem) (x : Start) : Option (String × Artifact) :=
  match subs[x.index]?, x.result.outcome with
  | some p, .ok a => some (p.specification.description, a)
  | _, _ => none

/-- What a group adds to the context, in the order of indices. -/
def entries (subs : List Subproblem) (group : List Start) : List (String × Artifact) :=
  (group.mergeSort fun x y => x.index ≤ y.index).filterMap (Start.entry? subs)

theorem inIndexOrder_starts (group : List Start) :
    inIndexOrder (group.map fun x => (x.index, x.result)) =
      (group.mergeSort fun x y => x.index ≤ y.index).map fun x => (x.index, x.result) :=
  (List.map_mergeSort (by simp)).symm

theorem solvedEntries_eq_entries (subs : List Subproblem) (group : List Start) :
    solvedEntries subs (inIndexOrder (group.map fun x => (x.index, x.result))) =
      entries subs group := by
  unfold solvedEntries entries
  rw [inIndexOrder_starts, List.filterMap_map]
  congr 1
  funext x
  unfold Start.entry? Result.solution?
  simp only [Function.comp_apply]
  cases subs[x.index]? with
  | none => rfl
  | some p =>
    cases x.result.outcome with
    | ok a => rfl
    | error f => rfl

/-- Groups are started in the order of a schedule as long as all their members are solved; the
context grows with each of them. -/
inductive Progress (subs : List Subproblem) : Context → List (List Nat) → List (List Start) → Prop
  | finished (c : Context) : Progress subs c [] []
  | failed {c : Context} {indices : List Nat} {group : List Start} (rest : List (List Nat))
      (hindices : group.map (·.index) = indices) (hcontext : ∀ x ∈ group, x.context = c)
      (hfailed : ¬ ∀ x ∈ group, x.Solved) : Progress subs c (indices :: rest) [group]
  | passed {c : Context} {indices : List Nat} {group : List Start} {rest : List (List Nat)}
      {groups : List (List Start)}
      (hindices : group.map (·.index) = indices) (hcontext : ∀ x ∈ group, x.context = c)
      (hsolved : ∀ x ∈ group, x.Solved)
      (hrest : Progress subs (c.withSolvedAll (entries subs group)) rest groups) :
      Progress subs c (indices :: rest) (group :: groups)

theorem Runs.append {solve : Solver ω} {subs : List Subproblem} {σ σ₁ σ₂ : Session ω}
    {xs ys : List Start} (h₁ : Runs solve subs σ xs σ₁) (h₂ : Runs solve subs σ₁ ys σ₂) :
    Runs solve subs σ (xs ++ ys) σ₂ := by
  induction h₁ with
  | nil => exact h₂
  | cons hp hx _ ih => exact .cons hp hx (ih h₂)

theorem solveWave_runs (solve : Solver ω) {subs : List Subproblem} (c : Context) {wave : List Nat}
    (hwave : ∀ i ∈ wave, ∃ p, subs[i]? = some p) (σ : Session ω) :
    ∃ group, Runs solve subs σ group (solveWave solve subs c wave σ).2 ∧
      (solveWave solve subs c wave σ).1 = group.map (fun x => (x.index, x.result)) ∧
      group.map (·.index) = wave ∧ ∀ x ∈ group, x.context = c := by
  induction wave generalizing σ with
  | nil => exact ⟨[], .nil σ, rfl, rfl, by simp⟩
  | cons i rest ih =>
    obtain ⟨p, hp⟩ := hwave i List.mem_cons_self
    rcases hr : solve p.specification c σ with ⟨r, σ₁⟩
    obtain ⟨group, hruns, hresults, hindices, hcontext⟩ :=
      ih (fun j hj => hwave j (List.mem_cons_of_mem i hj)) σ₁
    rw [solveWave_some rest c hp hr]
    refine ⟨⟨i, c, r⟩ :: group, .cons hp hr hruns, ?_, ?_, ?_⟩
    · rw [List.map_cons, hresults]
    · rw [List.map_cons, hindices]
    · exact List.forall_mem_cons.mpr ⟨rfl, hcontext⟩

theorem Start.solved_iff (x : Start) : x.Solved ↔ x.result.failure? = none := by
  unfold Start.Solved Result.failure?
  cases x.result.outcome with
  | ok a => simp
  | error f => simp

/-- No failure is entered just when all members of a group are solved. -/
theorem failures_enterAll {children : Children} (hnone : children.failures = [])
    (group : List Start) :
    (children.enterAll (inIndexOrder (group.map fun x => (x.index, x.result)))).failures = [] ↔
      ∀ x ∈ group, x.Solved := by
  rw [enterAll_failures, hnone, List.nil_append, List.filterMap_eq_nil_iff]
  constructor
  · intro h x hx
    have hmem : (x.index, x.result) ∈ group.map fun x => (x.index, x.result) :=
      List.mem_map_of_mem hx
    exact x.solved_iff.mpr (h _ (List.mem_mergeSort.mpr hmem))
  · intro h y hy
    obtain ⟨x, hx, rfl⟩ := List.mem_map.mp (List.mem_mergeSort.mp hy)
    exact x.solved_iff.mp (h x hx)

theorem solveWaves_progress (solve : Solver ω) {subs : List Subproblem}
    {schedule : List (List Nat)} (hall : ∀ wave ∈ schedule, ∀ i ∈ wave, ∃ p, subs[i]? = some p)
    (c : Context) {children : Children} (hnone : children.failures = []) (σ : Session ω) :
    ∃ groups, Runs solve subs σ groups.flatten (solveWaves solve subs schedule c children σ).2 ∧
      Progress subs c schedule groups := by
  induction schedule generalizing c children σ with
  | nil => exact ⟨[], .nil σ, .finished c⟩
  | cons wave rest ih =>
    obtain ⟨group, hruns, hresults, hindices, hcontext⟩ :=
      solveWave_runs solve c (hall wave List.mem_cons_self) σ
    rcases hr : solveWave solve subs c wave σ with ⟨results, σ₁⟩
    rw [hr] at hruns hresults
    dsimp only at hruns hresults
    subst hresults
    cases hfailure : (children.enterAll
        (inIndexOrder (group.map fun x => (x.index, x.result)))).failure with
    | some f =>
      have hfailed : ¬ ∀ x ∈ group, x.Solved := by
        intro hsolved
        rw [Children.failure, (failures_enterAll hnone group).mpr hsolved] at hfailure
        cases hfailure
      rw [solveWaves_failed rest c children hr hfailure]
      exact ⟨[group], by simpa using hruns, .failed rest hindices hcontext hfailed⟩
    | none =>
      have hempty := List.head?_eq_none_iff.mp hfailure
      obtain ⟨groups, hlater, hprogress⟩ :=
        ih (fun w hw => hall w (List.mem_cons_of_mem wave hw))
          (c.withSolvedAll (entries subs group)) hempty σ₁
      rw [solveWaves_passed rest c children hr hfailure, solvedEntries_eq_entries]
      exact ⟨group :: groups, hruns.append hlater,
        .passed hindices hcontext ((failures_enterAll hnone group).mp hempty) hprogress⟩

namespace Progress

variable {subs : List Subproblem} {c : Context} {schedule : List (List Nat)}
  {groups : List (List Start)}

theorem indices_prefix (h : Progress subs c schedule groups) :
    groups.map (·.map (·.index)) <+: schedule := by
  induction h with
  | finished => exact List.prefix_rfl
  | failed rest hindices _ _ =>
    subst hindices
    exact ⟨rest, rfl⟩
  | passed hindices _ _ _ ih =>
    subst hindices
    exact List.cons_prefix_cons.mpr ⟨rfl, ih⟩

theorem indices_eq (h : Progress subs c schedule groups)
    (hsolved : ∀ x ∈ groups.flatten, x.Solved) :
    groups.map (·.map (·.index)) = schedule := by
  induction h with
  | finished => rfl
  | failed rest _ _ hfailed => exact absurd (by simpa using hsolved) hfailed
  | passed hindices _ _ _ ih =>
    rw [List.map_cons, hindices, ih]
    intro x hx
    exact hsolved x (List.mem_append_right _ hx)

/-- A group is started when those before it are solved, and their solutions are all that the
context has gained. -/
theorem context_of_split (h : Progress subs c schedule groups) {before after : List (List Start)}
    {group : List Start} (hsplit : groups = before ++ group :: after) :
    (∀ x ∈ before.flatten, x.Solved) ∧
      ∀ x ∈ group, x.context.solved = c.solved.insertAll (before.flatMap (entries subs)) ∧
        x.context.primitives = c.primitives ∧ x.context.library = c.library := by
  induction h generalizing before with
  | finished => simp at hsplit
  | failed rest _ hcontext _ =>
    cases before with
    | nil =>
      obtain ⟨rfl, _⟩ := List.cons.inj hsplit
      exact ⟨by simp, fun x hx => hcontext x hx ▸ ⟨rfl, rfl, rfl⟩⟩
    | cons first before => simp at hsplit
  | @passed c indices first rest groups _ hcontext hsolved _ ih =>
    cases before with
    | nil =>
      obtain ⟨rfl, _⟩ := List.cons.inj hsplit
      exact ⟨by simp, fun x hx => hcontext x hx ▸ ⟨rfl, rfl, rfl⟩⟩
    | cons front before =>
      obtain ⟨rfl, hrest⟩ := List.cons.inj hsplit
      obtain ⟨hbefore, hgroup⟩ := ih hrest
      refine ⟨?_, ?_⟩
      · rw [List.flatten_cons]
        exact List.forall_mem_append.mpr ⟨hsolved, hbefore⟩
      · intro x hx
        obtain ⟨hsolutions, hprimitives, hlibrary⟩ := hgroup x hx
        rw [hsolutions, hprimitives, hlibrary, List.flatMap_cons, Table.insertAll_append]
        exact ⟨rfl, Context.primitives_withSolvedAll c _, Context.library_withSolvedAll c _⟩

end Progress

theorem schedule_respects (e : Engine ω) {subs : List Subproblem} (hvalid : fault? subs = none) :
    Respects subs (e.schedule subs) := by
  unfold schedule
  split
  · exact waves_respects hvalid
  · exact executionOrder_respects subs

/-- Subproblems are started in the groups of the schedule, and no further group after one with a
failure. When one is started, all it depends on is solved; it gets the primitives and the library
of the parent, and what is solved for the parent, overlaid with the solutions of the earlier
groups, group by group and in the order of indices in each. -/
theorem started_after_dependencies (e : Engine ω) (solve : Solver ω) {subs : List Subproblem}
    (hvalid : fault? subs = none) (c : Context) (σ : Session ω) :
    ∃ groups : List (List Start),
      Runs solve subs σ groups.flatten (e.solveChildren solve subs c σ).2 ∧
      groups.map (·.map (·.index)) <+: e.schedule subs ∧
      (∀ before group after, groups = before ++ group :: after →
        (∀ x ∈ before.flatten, x.Solved) ∧
        ∀ x ∈ group,
          (∃ p, subs[x.index]? = some p ∧
            ∀ d ∈ p.dependencies, ∃ y ∈ before.flatten, d = (y.index : Int) ∧ y.Solved) ∧
          (∀ name, x.context.lookup? name =
            (Table.last name (before.flatMap (entries subs))).or (c.lookup? name)) ∧
          x.context.primitives = c.primitives ∧ x.context.library = c.library) ∧
      ((∀ x ∈ groups.flatten, x.Solved) →
        groups.map (·.map (·.index)) = e.schedule subs) := by
  have hrespects := e.schedule_respects hvalid
  have hnone : (Children.start subs).failures = [] := rfl
  obtain ⟨groups, hruns, hprogress⟩ :=
    solveWaves_progress solve (fun _ h => hrespects.of_mem h) c hnone σ
  rw [e.solveChildren_eq_solveWaves solve subs c σ]
  refine ⟨groups, hruns, hprogress.indices_prefix, ?_, hprogress.indices_eq⟩
  intro before group after hsplit
  obtain ⟨hsolved, hcontext⟩ := hprogress.context_of_split hsplit
  refine ⟨hsolved, ?_⟩
  intro x hx
  refine ⟨?_, ?_⟩
  · obtain ⟨rest, hrest⟩ := hprogress.indices_prefix
    have hindices : e.schedule subs = before.map (·.map (·.index)) ++
        group.map (·.index) :: (after.map (·.map (·.index)) ++ rest) := by
      rw [← hrest, hsplit]
      simp
    obtain ⟨p, hp, hdependencies⟩ := hrespects.split hindices x.index (List.mem_map_of_mem hx)
    refine ⟨p, hp, ?_⟩
    intro d hd
    obtain ⟨j, hj, rfl⟩ := hdependencies d hd
    rw [← List.map_flatten] at hj
    obtain ⟨y, hy, rfl⟩ := List.mem_map.mp hj
    exact ⟨y, hy, rfl, hsolved y hy⟩
  · obtain ⟨hsolutions, hprimitives, hlibrary⟩ := hcontext x hx
    refine ⟨fun name => ?_, hprimitives, hlibrary⟩
    rw [Context.lookup?, hsolutions, Table.get?_insertAll]
    rfl

theorem Runs.solved {solve : Solver ω} {subs : List Subproblem} {σ σ₁ : Session ω}
    {starts : List Start} (h : Runs solve subs σ starts σ₁)
    (hsolve : ∀ s c σ, ∃ a, (solve s c σ).1.outcome = .ok a) : ∀ x ∈ starts, x.Solved := by
  induction h with
  | nil => simp
  | @cons σ _ _ x _ p _ hx _ ih =>
    refine List.forall_mem_cons.mpr ⟨?_, ih⟩
    obtain ⟨a, ha⟩ := hsolve p.specification x.context σ
    rw [hx] at ha
    exact ⟨a, ha⟩

/-- Two subproblems, and one that depends on both. -/
def join : List Subproblem :=
  [{ specification := { description := "left" } }, { specification := { description := "right" } },
    { specification := { description := "both" }, dependencies := [0, 1] }]

def answering : Solver Unit := fun s _ σ => (.solved { code := s.description } 1, σ)

/-- When nothing fails, the whole schedule is run through. -/
theorem started_after_dependencies_join :
    fault? join = none ∧ ∀ (e : Engine Unit) (σ : Session Unit), ∃ groups : List (List Start),
      Runs answering join σ groups.flatten (e.solveChildren answering join {} σ).2 ∧
        groups.map (·.map (·.index)) = e.schedule join := by
  have hvalid : fault? join = none := by decide
  refine ⟨hvalid, ?_⟩
  intro e σ
  obtain ⟨groups, hruns, _, _, hcomplete⟩ :=
    started_after_dependencies e answering hvalid {} σ
  exact ⟨groups, hruns, hcomplete (hruns.solved fun s _ _ => ⟨{ code := s.description }, rfl⟩)⟩

end Synthesis.Engine
