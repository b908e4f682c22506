import Synthesis.Proofs.Invariants
import Synthesis.Proofs.Budget
import Mathlib.Logic.Relation
import Mathlib.Data.List.Perm.Subperm

/-!
The path of a visit. A visit is turned away or refused at its start, finds a remembered solution,
finds no strategy, or makes attempts, each by another strategy; the phases it passes show which of
these happened and how every attempt went. Beside the path, each attempt leaves one outcome in the
experience, and nothing else does but the visits below.
-/
namespace Synthesis.Engine

variable {ω : Type}

/-- How an attempt goes on once its strategy was asked to split the specification. -/
inductive Course where
  /-- There is no well-formed decomposition. -/
  | broken
  | leaf
  | split

def Course.phases : Course → List Phase
  | .broken => []
  | .leaf => [.atomic, .generate]
  | .split => [.subproblems, .recurse]

/-- One attempt of a visit. -/
structure Block where
  strategy : Strategy
  course : Course
  outcome : Except Failure Artifact

namespace Block

def success (b : Block) : Bool :=
  match b.outcome with
  | .ok _ => true
  | .error _ => false

def phases (b : Block) : List Phase :=
  [.route, .decompose] ++ b.course.phases ++ [.compose, .cacheStore, .recordOutcome]

end Block

/-- The paths a visit may take, with its attempts. -/
inductive Path : List Block → List Phase → Prop
  | refused : Path [] [.start, .failed]
  | remembered : Path [] [.start, .cacheCheck, .cached, .done]
  | unrouted : Path [] [.start, .cacheCheck, .route, .failed]
  | attempted (b : Block) (rest : List Block) (last : Phase)
      (hlast : last = .done ∨ last = .failed) :
      Path (b :: rest) ([.start, .cacheCheck] ++ (b :: rest).flatMap Block.phases ++ [last])

/-- What one visit below may make of the experience. -/
def Nested (below : Option (Solver ω)) (x y : Experience) : Prop :=
  ∃ solve ∈ below, ∃ s c σ, σ.experience = x ∧ (solve s c σ).2.experience = y

/-- The experience before and after some attempts: each of them is made by its strategy, changes
the experience by visits below only, and then has its outcome recorded. -/
inductive Learns (e : Engine ω) (below : Option (Solver ω)) (depth : Int) (s : Specification)
    (c : Context) : Experience → List Block → Experience → Prop
  | nil (x : Experience) : Learns e below depth s c x [] x
  | cons {b : Block} {rest : List Block} {σ σ₁ : Session ω} {a : Attempt} {y : Experience}
      (iterations : Int) (hattempt : e.attempt below depth s c b.strategy σ = (a, σ₁))
      (hout : a.outcome = b.outcome)
      (hbelow : Relation.ReflTransGen (Nested below) σ.experience σ₁.experience)
      (hrest : Learns e below depth s c
        (σ₁.experience.record (.ofUnixNanos (σ₁.now e)) s b.strategy.name b.success iterations)
        rest y) :
      Learns e below depth s c σ.experience (b :: rest) y

theorem solveChildren_nested (e : Engine ω) {below : Option (Solver ω)} {solve : Solver ω}
    (hsolve : solve ∈ below) (subs : List Subproblem) (c : Context) (σ : Session ω) :
    Relation.ReflTransGen (Nested below) σ.experience
      (e.solveChildren solve subs c σ).2.experience := by
  have hkeeps : SolvesWith solve subs
      (fun σ' => Relation.ReflTransGen (Nested below) σ.experience σ'.experience)
      (fun _ => True) := by
    intro p _ c σ' h
    exact ⟨h.tail ⟨solve, hsolve, p.specification, c, σ', rfl, rfl⟩, fun _ _ => trivial⟩
  exact (solveChildren_keeps e hkeeps c σ .refl).1

/-- An attempt takes one of the three courses, and only visits below change the experience. -/
theorem attempt_course {e : Engine ω} {below : Option (Solver ω)} {depth : Int}
    {s : Specification} {c : Context} {strategy : Strategy} {σ σ₁ : Session ω} {a : Attempt}
    (h : e.attempt below depth s c strategy σ = (a, σ₁)) :
    (∃ course : Course, a.phases = [.decompose] ++ course.phases ++ [.compose]) ∧
      Relation.ReflTransGen (Nested below) σ.experience σ₁.experience := by
  have hgoes := attempt_goes e below depth s c strategy σ
  rw [h] at hgoes
  generalize hpair : (a, σ₁) = out at hgoes
  cases hgoes with
  | leaf =>
    cases hpair
    have hsame := leaf_sameMemory e depth s c (σ.mark (.decomposed s strategy.name))
    refine ⟨⟨.leaf, rfl⟩, ?_⟩
    change Relation.ReflTransGen _ σ.experience
      (e.leaf depth s c (σ.mark (.decomposed s strategy.name))).2.experience
    rw [hsame.experience]
    exact .refl
  | broken f hsplit =>
    cases hpair
    exact ⟨⟨.broken, rfl⟩, .refl⟩
  | split solve subs hbelow hsplit hsome =>
    cases hpair
    exact ⟨⟨.split, rfl⟩,
      solveChildren_nested e hbelow subs c (σ.mark (.decomposed s strategy.name))⟩

def ending : Except Failure Artifact → Phase
  | .ok _ => .done
  | .error _ => .failed

/-- What attempts come to, of which the first one is `b`, from the experience `x`. -/
structure Attempts (e : Engine ω) (below : Option (Solver ω)) (depth : Int) (s : Specification)
    (c : Context) (retries : Nat) (tried : List String) (phases : List Phase) (x : Experience)
    (b : Block) (rest : List Block) (out : Result × Session ω) : Prop where
  phases_eq : out.1.phases =
    phases ++ (b :: rest).flatMap Block.phases ++ [ending out.1.outcome]
  length_le : rest.length ≤ retries
  single : e.settings.stopOnFirstValid = true → rest = []
  fresh : ∀ b' ∈ rest, b'.strategy.name ∉ tried
  distinct : (rest.map (·.strategy.name)).Nodup
  handled : ∀ b' ∈ rest, b'.strategy ∈ e.router.registry.strategies ∧
    b'.strategy.canHandle s c = true
  retried : ∀ b' ∈ (b :: rest).dropLast, ∃ f, b'.outcome = .error f ∧ f.kind.isRetryable = true
  learned : Learns e below depth s c x (b :: rest) out.2.experience

section

variable {e : Engine ω} {below : Option (Solver ω)} {depth : Int} {s : Specification}
  {c : Context} {retries : Nat} {tried : List String} {phases : List Phase} {x : Experience}
  {b : Block} {out : Result × Session ω}

theorem attempts_single
    (hphases : out.1.phases = phases ++ b.phases ++ [ending out.1.outcome])
    (hlearned : Learns e below depth s c x [b] out.2.experience) :
    Attempts e below depth s c retries tried phases x b [] out where
  phases_eq := by simpa using hphases
  length_le := Nat.zero_le _
  single _ := rfl
  fresh := by simp
  distinct := List.nodup_nil
  handled := by simp
  retried := by simp
  learned := hlearned

/-- One more attempt in front, which has failed. -/
theorem Attempts.cons {n : Nat} {x' : Experience} {b' : Block} {rest : List Block}
    (h : Attempts e below depth s c n (tried ++ [b'.strategy.name]) (phases ++ b.phases) x' b' rest
      out)
    (hretries : n < retries) (hstop : e.settings.stopOnFirstValid = false)
    (hnew : b'.strategy.name ∉ tried)
    (hoffered : b'.strategy ∈ e.router.registry.strategies ∧ b'.strategy.canHandle s c = true)
    (hfailed : ∃ f, b.outcome = .error f ∧ f.kind.isRetryable = true)
    (hlearned : Learns e below depth s c x (b :: b' :: rest) out.2.experience) :
    Attempts e below depth s c retries tried phases x b (b' :: rest) out where
  phases_eq := by
    rw [h.phases_eq]
    simp
  length_le := by
    have hlength := h.length_le
    rw [List.length_cons]
    omega
  single hfirst := by
    rw [hstop] at hfirst
    cases hfirst
  fresh := by
    refine List.forall_mem_cons.mpr ⟨hnew, ?_⟩
    intro y hy hmem
    exact h.fresh y hy (List.mem_append_left _ hmem)
  distinct := by
    rw [List.map_cons, List.nodup_cons]
    refine ⟨?_, h.distinct⟩
    intro hmem
    obtain ⟨y, hy, heq⟩ := List.mem_map.mp hmem
    exact h.fresh y hy (by rw [heq]; simp)
  handled := List.forall_mem_cons.mpr ⟨hoffered, h.handled⟩
  retried := by
    rw [List.dropLast_cons_of_ne_nil (List.cons_ne_nil b' rest)]
    exact List.forall_mem_cons.mpr ⟨hfailed, h.retried⟩
  learned := hlearned

end

theorem attempts_spec {e : Engine ω} (hrouter : e.router.strategies = e.router.registry.strategies)
    (below : Option (Solver ω)) (depth : Int) (s : Specification) (c : Context) (retries : Nat)
    (tried : List String) (m : Match) (iterations : Int) (phases : List Phase) (σ : Session ω) :
    ∃ (b : Block) (rest : List Block), b.strategy = m.strategy ∧
      Attempts e below depth s c retries tried phases σ.experience b rest
        (e.attempts below depth s c retries tried m iterations (phases ++ [.route]) σ) := by
  induction retries using Nat.strongRecOn generalizing tried m iterations phases σ with
  | ind retries ih =>
    rcases ha : e.attempt below depth s c m.strategy σ with ⟨a, σ₁⟩
    obtain ⟨⟨course, hcourse⟩, hnested⟩ := attempt_course ha
    have hcontinues := attempts_continues e below depth s c retries tried m iterations
      (phases ++ [.route]) σ ha
    generalize e.attempts below depth s c retries tried m iterations (phases ++ [.route]) σ = out
      at hcontinues ⊢
    let b : Block := ⟨m.strategy, course, a.outcome⟩
    have hpassed : a.passed (phases ++ [.route]) = phases ++ b.phases := by
      simp [Attempt.passed, hcourse, Block.phases, b]
    have hlearn : ∀ {blocks y}, Learns e below depth s c (σ₁.experience.record
        (.ofUnixNanos (σ₁.now e)) s m.name b.success (iterations + a.iterations)) blocks y →
        Learns e below depth s c σ.experience (b :: blocks) y :=
      fun hrest => .cons (iterations + a.iterations) ha rfl hnested hrest
    refine ⟨b, ?_⟩
    cases hcontinues with
    | solved artifact hout =>
      have hsuccess : b.success = true := by simp only [b, Block.success, hout]
      rw [hsuccess] at hlearn
      exact ⟨[], rfl, attempts_single (by rw [← hpassed]; rfl) (hlearn (.nil _))⟩
    | ended f hout hend =>
      have hsuccess : b.success = false := by simp only [b, Block.success, hout]
      rw [hsuccess] at hlearn
      exact ⟨[], rfl, attempts_single (by rw [← hpassed]; rfl) (hlearn (.nil _))⟩
    | exhausted f hout hretry hnext =>
      have hsuccess : b.success = false := by simp only [b, Block.success, hout]
      rw [hsuccess] at hlearn
      exact ⟨[], rfl, attempts_single (by rw [← hpassed]; rfl) (hlearn (.nil _))⟩
    | retried f n next hout hretries hstop hretry hnext =>
      have hsuccess : b.success = false := by simp only [b, Block.success, hout]
      rw [hsuccess] at hlearn
      obtain ⟨hoffered, hnew⟩ := of_nextStrategy? hrouter hnext
      obtain ⟨b', rest, hb', h⟩ := ih n (by omega) (tried ++ [next.name]) next
        (iterations + a.iterations) (a.passed (phases ++ [.route]))
        ((σ₁.note e s m.name false (iterations + a.iterations)).mark (.ranked s))
      have hname : next.name = b'.strategy.name := by rw [hb']; rfl
      rw [hname] at h hnew ⊢
      rw [hpassed] at h ⊢
      rw [← hb'] at hoffered
      have hless : n < retries := by omega
      exact ⟨b' :: rest, rfl, h.cons hless hstop hnew hoffered ⟨f, hout, hretry⟩
        (hlearn h.learned)⟩

/-- What a visit shows of its attempts, from the experience `x`. -/
structure Story (e : Engine ω) (below : Option (Solver ω)) (depth : Int) (s : Specification)
    (c : Context) (x : Experience) (blocks : List Block) (out : Result × Session ω) : Prop where
  path : Path blocks out.1.phases
  done_iff : out.1.phases.getLast? = some .done ↔ out.1.success = true
  solution_iff : out.1.success = true ↔ out.1.solution?.isSome = true
  silent_iff : out.1.success = true ↔ out.1.kindText = "" ∧ out.1.errorText = ""
  length_le_retries : blocks.length ≤ 1 + e.settings.maxValidationRetries.toNat
  length_le_handlers :
    blocks.length ≤ (e.router.registry.strategies.filter (·.canHandle s c)).length
  single : e.settings.stopOnFirstValid = true → blocks.length ≤ 1
  distinct : (blocks.map (·.strategy.name)).Nodup
  handled : ∀ b ∈ blocks, b.strategy ∈ e.router.registry.strategies ∧
    b.strategy.canHandle s c = true
  retried : ∀ b ∈ blocks.dropLast, ∃ f, b.outcome = .error f ∧ f.kind.isRetryable = true
  learned : Learns e below depth s c x blocks out.2.experience

theorem success_iff_solution (r : Result) : r.success = true ↔ r.solution?.isSome = true := by
  unfold Result.success Result.solution?
  cases r.outcome <;> simp

theorem kind_name_ne_empty (k : FailureKind) : k.name ≠ "" := by
  cases k <;> decide

theorem success_iff_silent (r : Result) :
    r.success = true ↔ r.kindText = "" ∧ r.errorText = "" := by
  unfold Result.success Result.kindText Result.errorText Result.failure?
  cases r.outcome with
  | ok a => simp
  | error f => simp [kind_name_ne_empty]

theorem ending_eq_done (r : Result) : ending r.outcome = .done ↔ r.success = true := by
  unfold ending Result.success
  cases r.outcome <;> simp

/-- Attempts by different strategies, each of which can handle the specification, are no more than
there are such strategies. -/
theorem length_le_handlers {strategies : List Strategy} {handles : Strategy → Bool}
    {blocks : List Block} (hdistinct : (blocks.map (·.strategy.name)).Nodup)
    (hhandled : ∀ b ∈ blocks, b.strategy ∈ strategies ∧ handles b.strategy = true) :
    blocks.length ≤ (strategies.filter handles).length := by
  have hsub : blocks.map (·.strategy.name) ⊆ (strategies.filter handles).map (·.name) := by
    intro name hname
    obtain ⟨b, hb, rfl⟩ := List.mem_map.mp hname
    exact List.mem_map_of_mem (List.mem_filter.mpr (hhandled b hb))
  simpa using (List.subperm_of_subset hdistinct hsub).length_le

/-- The story of a visit that makes no attempt. -/
theorem story_nil {e : Engine ω} {below : Option (Solver ω)} {depth : Int} {s : Specification}
    {c : Context} {x : Experience} {out : Result × Session ω} (hpath : Path [] out.1.phases)
    (hlast : out.1.phases.getLast? = some (ending out.1.outcome)) (hsame : out.2.experience = x) :
    Story e below depth s c x [] out where
  path := hpath
  done_iff := by
    rw [hlast, Option.some_inj]
    exact ending_eq_done out.1
  solution_iff := success_iff_solution out.1
  silent_iff := success_iff_silent out.1
  length_le_retries := Nat.zero_le _
  length_le_handlers := Nat.zero_le _
  single _ := Nat.zero_le _
  distinct := List.nodup_nil
  handled := by simp
  retried := by simp
  learned := by
    rw [hsame]
    exact .nil x

/-- The story of attempts after the first strategy was chosen. -/
theorem Attempts.story {e : Engine ω} {below : Option (Solver ω)} {depth : Int}
    {s : Specification} {c : Context} {x : Experience} {b : Block} {rest : List Block}
    {out : Result × Session ω}
    (h : Attempts e below depth s c e.settings.maxValidationRetries.toNat [b.strategy.name]
      [.start, .cacheCheck] x b rest out)
    (hfirst : b.strategy ∈ e.router.registry.strategies ∧ b.strategy.canHandle s c = true) :
    Story e below depth s c x (b :: rest) out := by
  have hdistinct : ((b :: rest).map (·.strategy.name)).Nodup := by
    rw [List.map_cons, List.nodup_cons]
    refine ⟨?_, h.distinct⟩
    intro hmem
    obtain ⟨b', hb', heq⟩ := List.mem_map.mp hmem
    exact h.fresh b' hb' (by simp [heq])
  have hhandled : ∀ b' ∈ b :: rest, b'.strategy ∈ e.router.registry.strategies ∧
      b'.strategy.canHandle s c = true := by
    intro b' hb'
    rcases List.mem_cons.mp hb' with rfl | hb'
    · exact hfirst
    · exact h.handled b' hb'
  constructor
  · rw [h.phases_eq]
    refine .attempted b rest _ ?_
    unfold ending
    cases out.1.outcome <;> simp
  · rw [h.phases_eq, List.getLast?_concat, Option.some_inj]
    exact ending_eq_done out.1
  · exact success_iff_solution out.1
  · exact success_iff_silent out.1
  · have hlength := h.length_le
    rw [List.length_cons]
    omega
  · exact length_le_handlers hdistinct hhandled
  · intro hstop
    rw [h.single hstop]
    exact Nat.le_refl 1
  · exact hdistinct
  · exact hhandled
  · exact h.retried
  · exact h.learned

/-- Every visit, of a whole call or below another one, tells such a story. -/
theorem visit_tells_story {e : Engine ω}
    (hrouter : e.router.strategies = e.router.registry.strategies) (below : Option (Solver ω))
    (depth : Int) (s : Specification) (c : Context) (σ : Session ω) :
    ∃ blocks, Story e below depth s c σ.experience blocks (e.visit below depth s c σ) := by
  have hvisits := visit_visits e below depth s c σ
  generalize e.visit below depth s c σ = out at hvisits ⊢
  cases hvisits with
  | turnedAway why hstopped =>
    exact ⟨[], story_nil .refused rfl rfl⟩
  | refused hstopped hover =>
    exact ⟨[], story_nil .refused rfl rfl⟩
  | remembered hstopped hwithin artifact hretrieve =>
    exact ⟨[], story_nil .remembered rfl rfl⟩
  | unrouted hstopped hwithin hretrieve f hchoose =>
    exact ⟨[], story_nil .unrouted rfl rfl⟩
  | routed hstopped hwithin hretrieve m hchoose =>
    obtain ⟨b, rest, hb, h⟩ := attempts_spec hrouter below depth s c
      e.settings.maxValidationRetries.toNat [m.name] m 1 [.start, .cacheCheck]
      (((σ.enter (.admitted depth)).retrieve e s c).2.choose e s c).2
    have hfirst := of_choose hrouter hchoose
    have hname : m.name = b.strategy.name := by rw [hb]; rfl
    rw [← hb] at hfirst
    refine ⟨b :: rest, Attempts.story ?_ hfirst⟩
    rw [← hname]
    exact h

/-- The visit of the whole by the engine that is not able to solve its left half: one attempt,
which splits the whole. -/
theorem story_both :
    (halving {}).router.strategies = (halving {}).router.registry.strategies ∧
      ((halving {}).visit (some ((halving {}).solve 0 1)) 0 both {} (freshSession {})).1.phases =
        [.start, .cacheCheck, .route, .decompose, .subproblems, .recurse, .compose, .cacheStore,
          .recordOutcome, .failed] ∧
      ∃ blocks, Story (halving {}) (some ((halving {}).solve 0 1)) 0 both {}
        (freshSession {}).experience blocks
        ((halving {}).visit (some ((halving {}).solve 0 1)) 0 both {} (freshSession {})) :=
  ⟨rfl, by decide +kernel, visit_tells_story rfl _ 0 both {} _⟩

end Synthesis.Engine
