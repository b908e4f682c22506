import Synthesis.Proofs.Starts
import Synthesis.Proofs.Invariants
import Synthesis.Proofs.Budget
import Mathlib.Data.List.Nodup
import Mathlib.Data.List.Flatten

/-!
Who is blamed when a subproblem fails. The parts are looked through by index, while they are
solved by priority or in waves; so the first part without a solution need not be one that failed,
but may be one that was never started. The failure of the whole names a failed subproblem, and
carries its failure, just when everything with a lower index is solved and no two of these claim
one slot.
-/
namespace Synthesis

namespace Decomposition

/-- The slots that the subproblems claim. -/
def slotNames (subs : List Subproblem) : List String :=
  subs.zipIdx.map fun x => x.1.slotName x.2

end Decomposition

/-- The slot of a part. -/
def Part.slot (p : Part) : String := p.subproblem.slotName p.index

namespace Composition

/-- What looking through parts in their places comes to. -/
inductive Checked (parts : List Part) : Except Fault (List (Subproblem × Artifact)) → Prop
  | complete (solutions : List (Subproblem × Artifact))
      (hsolved : ∀ q ∈ parts, q.solution ≠ none) : Checked parts (.ok solutions)
  | missing (before : List Part) (p : Part) (after : List Part)
      (hsplit : parts = before ++ p :: after) (hsolved : ∀ q ∈ before, q.solution ≠ none)
      (hslots : (before.map Part.slot).Nodup) (hmissing : p.solution = none) :
      Checked parts (.error (.missing p.slot p.index p.failure))
  | clash (before : List Part) (p : Part) (after : List Part) (first : Int)
      (hsplit : parts = before ++ p :: after) (hsolved : ∀ q ∈ before ++ [p], q.solution ≠ none)
      (hslots : ¬ ((before ++ [p]).map Part.slot).Nodup) :
      Checked parts (.error (.slotClash p.slot first p.index))

theorem Checked.map {parts : List Part} {out : Except Fault (List (Subproblem × Artifact))}
    (h : Checked parts out) (f : List (Subproblem × Artifact) → List (Subproblem × Artifact)) :
    Checked parts (out.map f) := by
  cases h with
  | complete solutions hsolved => exact .complete (f solutions) hsolved
  | missing before p after hsplit hsolved hslots hmissing =>
    exact .missing before p after hsplit hsolved hslots hmissing
  | clash before p after first hsplit hsolved hslots =>
    exact .clash before p after first hsplit hsolved hslots

theorem solvedFrom_checked {parts : List Part}
    (hplaces : ∀ (j : Nat) (p : Part), parts[j]? = some p → p.index = j)
    (before rest : List Part) (slots : Table Int) (hsplit : parts = before ++ rest)
    (hsolved : ∀ q ∈ before, q.solution ≠ none) (hslots : (before.map Part.slot).Nodup)
    (htaken : ∀ name, (slots.get? name).isSome = true ↔ name ∈ before.map Part.slot) :
    Checked parts (solvedFrom before.length slots rest) := by
  induction rest generalizing before slots with
  | nil =>
    rw [List.append_nil] at hsplit
    subst hsplit
    exact .complete [] hsolved
  | cons p rest ih =>
    have hindex : p.index = before.length := hplaces before.length p (by simp [hsplit])
    unfold solvedFrom
    dsimp only
    rw [if_neg (not_not_intro hindex)]
    cases hp : p.solution with
    | none => exact .missing before p rest hsplit hsolved hslots hp
    | some a =>
      have hsolved' : ∀ q ∈ before ++ [p], q.solution ≠ none := by
        intro q hq
        rcases List.mem_append.mp hq with hq | hq
        · exact hsolved q hq
        · rw [List.mem_singleton.mp hq, hp]
          exact Option.some_ne_none a
      have hslot := htaken p.slot
      dsimp only
      have hname : p.subproblem.slotName p.index = p.slot := rfl
      rw [hname]
      cases hget : slots.get? p.slot with
      | some first =>
        rw [hget] at hslot
        refine .clash before p rest first hsplit hsolved' ?_
        rw [List.map_append, List.map_singleton, ← List.concat_eq_append, List.nodup_concat]
        exact fun hnodup => hnodup.1 (hslot.mp rfl)
      | none =>
        rw [hget] at hslot
        have hnew : p.slot ∉ before.map Part.slot := fun hmem => by
          cases hslot.mpr hmem
        have hlater := ih (before ++ [p]) (slots.insert p.slot p.index) (by simp [hsplit])
          hsolved' (by
            rw [List.map_append, List.map_singleton, ← List.concat_eq_append, List.nodup_concat]
            exact ⟨hnew, hslots⟩) (by
            intro name
            rw [Table.get?_insert, List.map_append, List.map_singleton, List.mem_append,
              List.mem_singleton, ← htaken name]
            split
            · rename_i heq
              simp [heq]
            · rename_i hne
              simp [Ne.symm hne])
        rw [List.length_append, List.length_singleton] at hlater
        exact hlater.map _

theorem solved_checked {parts : List Part}
    (hplaces : ∀ (j : Nat) (p : Part), parts[j]? = some p → p.index = j) :
    Checked parts (solved parts) :=
  solvedFrom_checked hplaces [] parts {} rfl (by simp) List.nodup_nil (by simp)

end Composition

namespace Engine

open Decomposition Synthesis.Composition

variable {ω : Type}

theorem schedule_nodup (e : Engine ω) (subs : List Subproblem) :
    (e.schedule subs).flatten.Nodup := by
  unfold schedule
  split
  · exact waves_nodup subs
  · rw [flatten_oneByOne]
    exact orderFrom_nodup subs.length List.nodup_nil

/-- What stands in the part at an index, from the results with their indices. -/
inductive Entered (results : List (Nat × Result)) (j : Nat) (p : Part) : Prop
  | started (r : Result) (hmem : (j, r) ∈ results) (hsolution : p.solution = r.solution?)
      (hfailure : p.failure = r.failure?)
  | unstarted (hnone : ∀ r, (j, r) ∉ results) (hsolution : p.solution = none)
      (hfailure : p.failure = none)

/-- The parts of subproblems after these results. -/
structure Recorded (subs : List Subproblem) (results : List (Nat × Result))
    (children : Children) : Prop where
  place : ∀ j : Nat, children.parts[j]?.map (fun p => (p.index, p.subproblem)) =
    subs[j]?.map fun q => ((j : Int), q)
  entry : ∀ (j : Nat) (p : Part), children.parts[j]? = some p → Entered results j p
  failure : ∀ f ∈ children.failures, ∃ x ∈ results, x.2.outcome = .error f

theorem failure?_eq_some {r : Result} {f : Failure} (h : r.failure? = some f) :
    r.outcome = .error f := by
  unfold Result.failure? at h
  cases hout : r.outcome with
  | ok a =>
    rw [hout] at h
    cases h
  | error g =>
    rw [hout] at h
    exact congrArg Except.error (Option.some.inj h)

namespace Recorded

variable {subs : List Subproblem} {results later : List (Nat × Result)} {children : Children}

theorem start (subs : List Subproblem) : Recorded subs [] (.start subs) where
  place j := by
    simp [Children.start, Option.map_map, Function.comp_def]
  entry j p hp := by
    obtain ⟨x, _, rfl⟩ := List.mem_map.mp (List.mem_of_getElem? hp)
    exact .unstarted (by simp) rfl rfl
  failure f hf := by cases hf

theorem enter (h : Recorded subs results children) (i : Nat) (r : Result) :
    Recorded subs (results ++ [(i, r)]) (children.enter i r) where
  place j := by
    rw [← h.place j, getElem?_enter, Option.map_map]
    congr 1
    funext p
    rw [Function.comp_apply]
    split
    · rfl
    · rfl
  entry j p hp := by
    rw [getElem?_enter] at hp
    obtain ⟨q, hq, rfl⟩ := Option.map_eq_some_iff.mp hp
    split
    · rename_i heq
      subst heq
      exact .started r (by simp) rfl rfl
    · rename_i hne
      cases h.entry j q hq with
      | started r' hmem hsolution hfailure =>
        exact .started r' (List.mem_append_left _ hmem) hsolution hfailure
      | unstarted hnone hsolution hfailure =>
        refine .unstarted ?_ hsolution hfailure
        intro r' hmem
        rcases List.mem_append.mp hmem with hmem | hmem
        · exact hnone r' hmem
        · exact hne (Prod.mk.inj (List.mem_singleton.mp hmem)).1.symm
  failure f hf := by
    rcases List.mem_append.mp hf with hf | hf
    · obtain ⟨x, hx, hout⟩ := h.failure f hf
      exact ⟨x, List.mem_append_left _ hx, hout⟩
    · exact ⟨(i, r), by simp, failure?_eq_some (Option.mem_toList.mp hf)⟩

theorem enterAll (h : Recorded subs results children) :
    Recorded subs (results ++ later) (children.enterAll later) := by
  induction later generalizing results children with
  | nil =>
    rw [List.append_nil]
    exact h
  | cons x rest ih =>
    have hrest := ih (h.enter x.1 x.2)
    rw [List.append_assoc] at hrest
    exact hrest

/-- The order of the results is of no account. -/
theorem of_mem_iff (h : Recorded subs results children)
    (hmem : ∀ x, x ∈ later ↔ x ∈ results) : Recorded subs later children where
  place := h.place
  entry j p hp := by
    cases h.entry j p hp with
    | started r hr hsolution hfailure => exact .started r ((hmem _).mpr hr) hsolution hfailure
    | unstarted hnone hsolution hfailure =>
      exact .unstarted (fun r hr => hnone r ((hmem _).mp hr)) hsolution hfailure
  failure f hf := by
    obtain ⟨x, hx, hout⟩ := h.failure f hf
    exact ⟨x, (hmem x).mpr hx, hout⟩

end Recorded

/-- The results of starts, with their indices. -/
def resultsOf (starts : List Start) : List (Nat × Result) :=
  starts.map fun x => (x.index, x.result)

theorem solveWaves_recorded (solve : Solver ω) {subs : List Subproblem}
    {schedule : List (List Nat)} (hall : ∀ wave ∈ schedule, ∀ i ∈ wave, ∃ p, subs[i]? = some p)
    (c : Context) {children : Children} {done : List Start}
    (hdone : Recorded subs (resultsOf done) children) (σ : Session ω) :
    ∃ starts, Runs solve subs σ starts (solveWaves solve subs schedule c children σ).2 ∧
      starts.map (·.index) <+: schedule.flatten ∧
      Recorded subs (resultsOf (done ++ starts))
        (solveWaves solve subs schedule c children σ).1 := by
  induction schedule generalizing c children done σ with
  | nil =>
    refine ⟨[], .nil σ, List.prefix_rfl, ?_⟩
    rw [List.append_nil]
    exact hdone
  | cons wave rest ih =>
    obtain ⟨group, hruns, hresults, hindices, _⟩ :=
      solveWave_runs solve c (hall wave List.mem_cons_self) σ
    rcases hr : solveWave solve subs c wave σ with ⟨results, σ₁⟩
    rw [hr] at hruns hresults
    dsimp only at hruns hresults
    have hentered : Recorded subs (resultsOf (done ++ group))
        (children.enterAll (inIndexOrder results)) := by
      refine hdone.enterAll.of_mem_iff ?_
      intro x
      rw [resultsOf, List.map_append, List.mem_append, List.mem_append, ← hresults, inIndexOrder,
        List.mem_mergeSort]
      rfl
    cases hfailure : (children.enterAll (inIndexOrder results)).failure with
    | some f =>
      rw [solveWaves_failed rest c children hr hfailure, List.flatten_cons]
      exact ⟨group, hruns, ⟨rest.flatten, by rw [hindices]⟩, hentered⟩
    | none =>
      obtain ⟨starts, hlater, hbegins, hrecorded⟩ :=
        ih (fun w hw => hall w (List.mem_cons_of_mem wave hw)) _ hentered σ₁
      rw [solveWaves_passed rest c children hr hfailure, List.flatten_cons]
      refine ⟨group ++ starts, hruns.append hlater, ?_, ?_⟩
      · rw [List.map_append, hindices]
        exact List.prefix_append_right_inj wave |>.mpr hbegins
      · rw [← List.append_assoc]
        exact hrecorded

/-- The failure names the slot of this subproblem and carries its failure. -/
def Start.Blamed (subs : List Subproblem) (x : Start) (f : Failure) : Prop :=
  ∃ p g reason, subs[x.index]? = some p ∧ x.result.outcome = .error g ∧
    f = .composition (p.slotName x.index) reason (some g)

/-- Everything below an index is solved, and no two of these claim one slot. -/
structure Cleared (subs : List Subproblem) (starts : List Start) (i : Nat) : Prop where
  solved : ∀ j < i, ∃ y ∈ starts, y.index = j ∧ y.Solved
  slots : ((slotNames subs).take i).Nodup

namespace Recorded

variable {subs : List Subproblem} {starts : List Start} {children : Children}

theorem index_eq (h : Recorded subs (resultsOf starts) children) (j : Nat) (p : Part)
    (hp : children.parts[j]? = some p) : p.index = j := by
  have hplace := h.place j
  rw [hp, Option.map_some] at hplace
  obtain ⟨q, _, hq⟩ := Option.map_eq_some_iff.mp hplace.symm
  exact (Prod.mk.inj hq).1.symm

theorem slots_eq (h : Recorded subs (resultsOf starts) children) :
    children.parts.map Part.slot = slotNames subs := by
  refine List.ext_getElem? fun j => ?_
  have hplace := congrArg (Option.map fun x : Int × Subproblem => x.2.slotName x.1) (h.place j)
  rw [Option.map_map, Option.map_map] at hplace
  rw [List.getElem?_map, slotNames, List.getElem?_map, List.getElem?_zipIdx, Option.map_map,
    Nat.zero_add]
  exact hplace

/-- In the part of a subproblem that was started stands what it came to. -/
theorem entry_of_mem (h : Recorded subs (resultsOf starts) children)
    (hnodup : (starts.map (·.index)).Nodup) {x : Start} (hx : x ∈ starts) {p : Part}
    (hp : children.parts[x.index]? = some p) :
    p.solution = x.result.solution? ∧ p.failure = x.result.failure? := by
  cases h.entry x.index p hp with
  | started r hmem hsolution hfailure =>
    obtain ⟨y, hy, heq⟩ := List.mem_map.mp hmem
    obtain ⟨hindex, rfl⟩ := Prod.mk.inj heq
    obtain rfl := List.inj_on_of_nodup_map hnodup hy hx hindex
    exact ⟨hsolution, hfailure⟩
  | unstarted hnone _ _ => exact absurd (List.mem_map_of_mem hx) (hnone x.result)

/-- A part with a solution is that of a subproblem that was started and solved. -/
theorem solved_of_part (h : Recorded subs (resultsOf starts) children) {j : Nat} {p : Part}
    (hp : children.parts[j]? = some p) (hsolution : p.solution ≠ none) :
    ∃ y ∈ starts, y.index = j ∧ y.Solved := by
  cases h.entry j p hp with
  | started r hmem heq _ =>
    obtain ⟨y, hy, hpair⟩ := List.mem_map.mp hmem
    obtain ⟨hindex, rfl⟩ := Prod.mk.inj hpair
    rw [heq] at hsolution
    obtain ⟨a, ha⟩ := Option.ne_none_iff_exists'.mp hsolution
    exact ⟨y, hy, hindex, a, solution?_eq_some ha⟩
  | unstarted _ heq _ => exact absurd heq hsolution

end Recorded

theorem solution?_eq_none_iff (x : Start) : x.result.solution? = none ↔ ¬ x.Solved := by
  unfold Start.Solved Result.solution?
  cases x.result.outcome with
  | ok a => simp
  | error f => simp

/-- An unsolved start fails, and has no solution. -/
theorem Start.failure_of_not_solved {x : Start} (h : ¬ x.Solved) :
    ∃ g, x.result.outcome = .error g ∧ x.result.failure? = some g := by
  unfold Start.Solved at h
  unfold Result.failure?
  cases hout : x.result.outcome with
  | ok a => exact absurd ⟨a, hout⟩ h
  | error g => exact ⟨g, rfl, rfl⟩

/-- A failed subproblem with everything below it cleared. -/
def Answerable (subs : List Subproblem) (starts : List Start) (x : Start) : Prop :=
  x ∈ starts ∧ ¬ x.Solved ∧ Cleared subs starts x.index

/-- A composition fails like this: it blames a failed subproblem just when there is an answerable
one, and else it has no cause. -/
structure Blames (subs : List Subproblem) (starts : List Start) (slot reason : String)
    (cause : Option Failure) : Prop where
  blamed_iff : (∃ x ∈ starts, x.Blamed subs (.composition slot reason cause)) ↔
    ∃ x, Answerable subs starts x
  unknown : (¬ ∃ x, Answerable subs starts x) → cause = none

section

variable {subs : List Subproblem} {starts : List Start} {children : Children}

theorem Recorded.part_of_mem (h : Recorded subs (resultsOf starts) children)
    (hall : ∀ x ∈ starts, ∃ q, subs[x.index]? = some q) {x : Start} (hx : x ∈ starts) :
    ∃ p, children.parts[x.index]? = some p := by
  obtain ⟨q, hq⟩ := hall x hx
  have hplace := h.place x.index
  rw [hq, Option.map_some] at hplace
  obtain ⟨p, hp, _⟩ := Option.map_eq_some_iff.mp hplace
  exact ⟨p, hp⟩

/-- All parts before a place are solved, so an unsolved subproblem is not before it. -/
theorem Recorded.le_index (h : Recorded subs (resultsOf starts) children)
    (hnodup : (starts.map (·.index)).Nodup) (hall : ∀ x ∈ starts, ∃ q, subs[x.index]? = some q)
    {before after : List Part} (hsplit : children.parts = before ++ after)
    (hsolved : ∀ q ∈ before, q.solution ≠ none) {x : Start} (hx : x ∈ starts)
    (hunsolved : ¬ x.Solved) : before.length ≤ x.index := by
  refine Nat.le_of_not_lt fun hlt => ?_
  obtain ⟨p, hp⟩ := h.part_of_mem hall hx
  have hbefore : p ∈ before := by
    refine List.mem_of_getElem? (i := x.index) ?_
    rw [← hp, hsplit, List.getElem?_append_left hlt]
  obtain ⟨hsolution, _⟩ := h.entry_of_mem hnodup hx hp
  rw [(solution?_eq_none_iff x).mpr hunsolved] at hsolution
  exact hsolved p hbefore hsolution

/-- The first missing part. -/
theorem Recorded.blames_missing (h : Recorded subs (resultsOf starts) children)
    (hnodup : (starts.map (·.index)).Nodup) (hall : ∀ x ∈ starts, ∃ q, subs[x.index]? = some q)
    {before after : List Part} {p : Part} (hsplit : children.parts = before ++ p :: after)
    (hsolved : ∀ q ∈ before, q.solution ≠ none) (hslots : (before.map Part.slot).Nodup)
    (hmissing : p.solution = none) (reason : String) :
    Blames subs starts p.slot reason p.failure := by
  have hp : children.parts[before.length]? = some p := by simp [hsplit]
  have hcleared : Cleared subs starts before.length := by
    refine ⟨?_, ?_⟩
    · intro j hj
      have hpart : children.parts[j]? = some before[j] := by
        rw [hsplit, List.getElem?_append_left hj, List.getElem?_eq_getElem hj]
      exact h.solved_of_part hpart (hsolved _ (List.getElem_mem hj))
    · rw [← h.slots_eq, hsplit, List.map_append, ← List.length_map Part.slot, List.take_left]
      exact hslots
  -- A cause can only come from the subproblem in that place.
  have hcause : ∀ g, p.failure = some g → ∃ x, Answerable subs starts x := by
    intro g hg
    cases h.entry before.length p hp with
    | unstarted _ _ hfailure =>
      rw [hfailure] at hg
      cases hg
    | started r hmem hsolution _ =>
      obtain ⟨x, hx, hpair⟩ := List.mem_map.mp hmem
      obtain ⟨hindex, rfl⟩ := Prod.mk.inj hpair
      refine ⟨x, hx, ?_, hindex ▸ hcleared⟩
      rw [← solution?_eq_none_iff, ← hsolution, hmissing]
  refine ⟨⟨?_, ?_⟩, ?_⟩
  · rintro ⟨x, _, q, g, reason', _, _, heq⟩
    exact hcause g (Failure.composition.inj heq).2.2
  · rintro ⟨x, hx, hunsolved, hx_cleared⟩
    have hle := h.le_index hnodup hall hsplit hsolved hx hunsolved
    have hindex : x.index = before.length := by
      refine Nat.le_antisymm (Nat.le_of_not_lt fun hlt => ?_) hle
      obtain ⟨y, hy, hyindex, a, ha⟩ := hx_cleared.solved before.length hlt
      obtain ⟨hsolution, _⟩ := h.entry_of_mem hnodup hy (hyindex ▸ hp)
      rw [hmissing, eq_comm, solution?_eq_none_iff] at hsolution
      exact hsolution ⟨a, ha⟩
    obtain ⟨q, hq⟩ := hall x hx
    obtain ⟨g, hout, hfail⟩ := Start.failure_of_not_solved hunsolved
    obtain ⟨_, hpfailure⟩ := h.entry_of_mem hnodup hx (hindex ▸ hp)
    have hslot : p.slot = q.slotName x.index := by
      have hplace := h.place x.index
      rw [hindex, hp, ← hindex, hq] at hplace
      obtain ⟨hi, hs⟩ := Prod.mk.inj (Option.some.inj hplace)
      rw [Part.slot, hi, hs]
    exact ⟨x, hx, q, g, reason, hq, hout, by rw [hslot, hpfailure, hfail]⟩
  · intro hnone
    cases hp' : p.failure with
    | none => rfl
    | some g => exact absurd (hcause g hp') hnone

/-- Two solved parts with one slot before any missing part. -/
theorem Recorded.blames_clash (h : Recorded subs (resultsOf starts) children)
    (hnodup : (starts.map (·.index)).Nodup) (hall : ∀ x ∈ starts, ∃ q, subs[x.index]? = some q)
    {before after : List Part} {p : Part} (hsplit : children.parts = before ++ p :: after)
    (hsolved : ∀ q ∈ before ++ [p], q.solution ≠ none)
    (hslots : ¬ ((before ++ [p]).map Part.slot).Nodup) (slot reason : String) :
    Blames subs starts slot reason none := by
  have hnone : ¬ ∃ x, Answerable subs starts x := by
    rintro ⟨x, hx, hunsolved, hcleared⟩
    have hsplit' : children.parts = (before ++ [p]) ++ after := by simp [hsplit]
    have hle := h.le_index hnodup hall hsplit' hsolved hx hunsolved
    refine hslots (hcleared.slots.sublist ?_)
    rw [← h.slots_eq, hsplit']
    have hlength : ((before ++ [p]).map Part.slot).length ≤ x.index := by simpa using hle
    exact (List.prefix_take_iff.mpr ⟨(List.prefix_append _ _).map _, hlength⟩).sublist
  refine ⟨⟨?_, fun hx => absurd hx hnone⟩, fun _ => rfl⟩
  rintro ⟨x, _, q, g, reason', _, _, heq⟩
  cases heq

end

theorem composeParts_error (s : Specification) (subs : List Subproblem) {children : Children}
    {f : Failure} (hfailure : children.failure = some f) (hgoes : f.endsCall = false)
    {fault : Fault} (hfault : Composition.solved children.parts = .error fault) :
    composeParts s subs children = .error fault.failure := by
  have hcompose : (Composer.select subs).compose children.parts s = .error fault := by
    unfold Composer.compose
    rw [hfault]
    rfl
  simp only [composeParts, hfailure, hgoes, hcompose]
  rfl

/-- When subproblems have failed but the call goes on, the attempt fails in the composition. It
blames a subproblem that failed, and carries its failure, just when one failed with everything
below it cleared; else it has no cause. -/
theorem failure_blames_iff_cleared (e : Engine ω) (solve : Solver ω) {subs : List Subproblem}
    (hvalid : fault? subs = none) (s : Specification) (c : Context) (σ : Session ω)
    {f : Failure} (hfailure : (e.solveChildren solve subs c σ).1.failure = some f)
    (hgoes : f.endsCall = false) :
    ∃ starts, Runs solve subs σ starts (e.solveChildren solve subs c σ).2 ∧
      (starts.map (·.index)).Nodup ∧
      ∃ slot reason cause,
        (e.splitAttempt solve s c subs σ).1.outcome = .error (.composition slot reason cause) ∧
        Blames subs starts slot reason cause := by
  have hrespects := e.schedule_respects hvalid
  have hstart : Recorded subs (resultsOf []) (.start subs) := Recorded.start subs
  obtain ⟨starts, hruns, hbegins, hrecorded⟩ :=
    solveWaves_recorded solve (fun _ h => hrespects.of_mem h) c hstart σ
  rw [List.nil_append, ← e.solveChildren_eq_solveWaves solve subs c σ] at hrecorded
  rw [← e.solveChildren_eq_solveWaves solve subs c σ] at hruns
  have hnodup : (starts.map (·.index)).Nodup :=
    (e.schedule_nodup subs).sublist hbegins.sublist
  have hall : ∀ x ∈ starts, ∃ q, subs[x.index]? = some q := by
    intro x hx
    obtain ⟨wave, hwave, hmem⟩ :=
      List.mem_flatten.mp (hbegins.subset (List.mem_map_of_mem hx))
    exact hrespects.of_mem hwave _ hmem
  refine ⟨starts, hruns, hnodup, ?_⟩
  have hcompose : ∀ fault, Composition.solved (e.solveChildren solve subs c σ).1.parts =
      .error fault → composeParts s subs (e.solveChildren solve subs c σ).1 =
        .error fault.failure :=
    fun _ => composeParts_error s subs hfailure hgoes
  change ∃ slot reason cause, composeParts s subs (e.solveChildren solve subs c σ).1 =
    .error (.composition slot reason cause) ∧ Blames subs starts slot reason cause
  generalize (e.solveChildren solve subs c σ).1 = children at hfailure hrecorded hcompose ⊢
  have hchecked := solved_checked hrecorded.index_eq
  generalize hsolved : Composition.solved children.parts = out at hchecked
  cases hchecked with
  | complete solutions hcomplete =>
    -- Some part belongs to the failed subproblem, so not all are solved.
    obtain ⟨y, hy, hout⟩ := hrecorded.failure f (List.mem_of_head? hfailure)
    obtain ⟨x, hx, rfl⟩ := List.mem_map.mp hy
    have hunsolved : ¬ x.Solved := by
      rintro ⟨a, ha⟩
      rw [ha] at hout
      cases hout
    obtain ⟨p, hp⟩ := hrecorded.part_of_mem hall hx
    obtain ⟨hsolution, _⟩ := hrecorded.entry_of_mem hnodup hx hp
    rw [(solution?_eq_none_iff x).mpr hunsolved] at hsolution
    exact absurd hsolution (hcomplete p (List.mem_of_getElem? hp))
  | missing before p after hsplit hbefore hslots hmissing =>
    exact ⟨_, _, _, hcompose _ hsolved,
      hrecorded.blames_missing hnodup hall hsplit hbefore hslots hmissing _⟩
  | clash before p after first hsplit hbefore hslots =>
    exact ⟨_, _, _, hcompose _ hsolved,
      hrecorded.blames_clash hnodup hall hsplit hbefore hslots _ _⟩

/-- Two subproblems, of which the second comes first. -/
def ranked : List Subproblem :=
  [{ specification := { description := "late" }, priority := 1 },
    { specification := { description := "early" } }]

/-- Two subproblems, of which the first comes first. -/
def listed : List Subproblem :=
  [{ specification := { description := "late" } }, { specification := { description := "early" } }]

/-- Is not able to solve the early one. -/
def stumbling : Solver Unit := fun s _ σ =>
  if s.description = "early" then (.failed (.plain "model refused") 1, σ)
  else (.solved { code := s.description } 1, σ)

/-- The second one fails when the first one is solved, so it is answerable and blamed. -/
theorem failure_blames_second :
    fault? listed = none ∧
      ((halving {}).splitAttempt stumbling both {} listed (freshSession {})).1.outcome =
        .error (.composition "part-1" "missing sub-solution for subproblem 1"
          (some (.plain "model refused"))) ∧
      ∃ starts x, Answerable listed starts x := by
  have hvalid : fault? listed = none := by decide
  have hout : ((halving {}).splitAttempt stumbling both {} listed (freshSession {})).1.outcome =
      .error (.composition "part-1" "missing sub-solution for subproblem 1"
        (some (.plain "model refused"))) := by rfl
  refine ⟨hvalid, hout, ?_⟩
  obtain ⟨starts, _, _, slot, reason, cause, hout', hblames⟩ :=
    failure_blames_iff_cleared (halving {}) stumbling hvalid both {} (freshSession {})
      (f := .plain "model refused") rfl (by decide)
  rw [hout] at hout'
  obtain ⟨_, _, rfl⟩ := Failure.composition.inj (Except.error.inj hout')
  refine ⟨starts, ?_⟩
  by_contra hnone
  cases hblames.unknown hnone

/-- An engine that splits everything into these subproblems and is not able to solve the early
one. -/
def splitting (settings : Settings) (subs : List Subproblem) : Engine Unit where
  settings := settings
  router := .new ⟨[{ intoHalves with decompose := fun _ _ => .ok subs }]⟩
    settings.history.queryLimit .inOrder
  collaborators :=
    { generator := fun s _ _ =>
        if s.description = "early" then Request.fail (.plain "model refused")
        else Request.answer { success := true, code := "done" } }
  clock := fun _ => 0

def Action.proposedFor : Action → Option String
  | .proposed s _ => some s.description
  | _ => none

/-- The failure names the subproblem that was never started, and is silent about the early one,
which failed. -/
theorem unstarted_is_named :
    ((splitting { maxDepth := 1 } ranked).synthesize both {} (freshSession {})).1.errorText =
        "composition failed at slot part-0: missing sub-solution for subproblem 0" ∧
      ((splitting { maxDepth := 1 } ranked).synthesize both {}
        (freshSession {})).2.actions.filterMap Action.proposedFor = ["early"] := by
  decide +kernel

end Engine

end Synthesis
