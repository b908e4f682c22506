import Synthesis.Proofs.Matching

/-!
The search follows all threads at once. At one place every thread is taken as far as it gets
without a character; since no instruction is entered twice, this comes to an end, and what was
skipped had been reached before. A thread that accepts ends those behind it, but then there is a
match. So a match is found just when there is one, and what is found is a match.
-/
namespace Synthesis.Program

theorem accept_not_mem_code (q : Pattern) (i : Nat) : Instr.accept ∉ (q.code i).1 := by
  have hbranch : ∀ greedy again after, Instr.accept ≠ Pattern.branch greedy again after := by
    intro greedy again after
    unfold Pattern.branch
    cases greedy <;> simp
  induction q generalizing i with
  | empty => simp [Pattern.code]
  | char set => simp [Pattern.code]
  | test t => simp [Pattern.code]
  | seq a b iha ihb => simp [Pattern.code, iha, ihb]
  | alt a b iha ihb => simp [Pattern.code, iha, ihb]
  | optional a greedy iha => simp [Pattern.code, hbranch, iha]
  | repeated a greedy iha => simp [Pattern.code, hbranch, iha]
  | star a greedy iha =>
    have hlast : ∀ j, Instr.accept ≠
        if a.mayBeEmpty then Pattern.branch greedy (i + 1) j else .jump i := by
      intro j
      split
      · exact hbranch _ _ _
      · simp
    simp [Pattern.code, hbranch, iha, hlast]

theorem eq_goal_of_accept {q : Pattern} {k : Nat}
    (h : (ofPattern q).instrs[k]? = some .accept) : k = goal q := by
  rw [ofPattern, List.getElem?_toArray] at h
  obtain ⟨hk, _⟩ := List.getElem?_eq_some_iff.mp h
  rw [List.length_append, List.length_singleton] at hk
  rw [goal, code_end, Nat.zero_add]
  refine Nat.le_antisymm (Nat.le_of_lt_succ hk) (Nat.le_of_not_lt fun hlt => ?_)
  rw [List.getElem?_append_left hlt] at h
  exact accept_not_mem_code q 0 (List.mem_of_getElem? h)

section Settle

variable (p : Program) (x : Place)

/-- The thread waits for a character or accepts. -/
def Halts (i : Nat) : Prop :=
  p.instrs[i]? = some .accept ∨ ∃ set, p.instrs[i]? = some (.char set)

/-- Where a thread goes on without a character. -/
def targets (i : Nat) : List Nat :=
  match p.instrs[i]? with
  | some (.test q) => if x.passes q then [i + 1] else []
  | some (.jump j) => [j]
  | some (.fork j k) => [j, k]
  | _ => []

variable {p x}

theorem quiet_iff_mem_targets {i j : Nat} : Quiet p x i j ↔ j ∈ p.targets x i := by
  constructor
  · intro h
    cases h with
    | test hi ht => simp [targets, hi, ht]
    | jump hi => simp [targets, hi]
    | preferred hi => simp [targets, hi]
    | other hi => simp [targets, hi]
  · intro h
    unfold targets at h
    split at h
    next q hi =>
      split at h
      next ht =>
        rw [List.mem_singleton.mp h]
        exact .test hi ht
      next => cases h
    next k hi =>
      rw [List.mem_singleton.mp h]
      exact .jump hi
    next k l hi =>
      rcases List.mem_cons.mp h with rfl | h
      · exact .preferred hi
      · rw [List.mem_singleton.mp h]
        exact .other hi
    next => cases h

theorem length_targets_le (i : Nat) : (p.targets x i).length ≤ 2 := by
  unfold targets
  split
  · split <;> simp
  · simp
  · simp
  · simp

theorem targets_of_size_le {i : Nat} (h : p.instrs.size ≤ i) : p.targets x i = [] := by
  unfold targets
  rw [Array.getElem?_eq_none h]

/-- What becomes of the first of some threads, where `seen` tells which instructions were
entered. -/
inductive Settling (p : Program) (x : Place) (fuel : Nat) (t : Thread) (ts : List Thread)
    (seen : Nat) : List Thread → Prop
  | skipped (hseen : seen.testBit t.index = true) :
      Settling p x fuel t ts seen (p.settle x fuel ts seen)
  | accepted (hi : p.instrs[t.index]? = some .accept) : Settling p x fuel t ts seen [t]
  | waiting (set : CharSet) (hnew : seen.testBit t.index = false)
      (hi : p.instrs[t.index]? = some (.char set)) :
      Settling p x fuel t ts seen (t :: p.settle x fuel ts (seen ||| (1 <<< t.index)))
  | entered (hnew : seen.testBit t.index = false) (hhalts : ¬ p.Halts t.index) :
      Settling p x fuel t ts seen
        (p.settle x fuel ((p.targets x t.index).map (⟨·, t.start⟩) ++ ts)
          (seen ||| (1 <<< t.index)))

theorem settle_settling (fuel : Nat) (t : Thread) (ts : List Thread) (seen : Nat) :
    Settling p x fuel t ts seen (p.settle x (fuel + 1) (t :: ts) seen) := by
  cases hseen : seen.testBit t.index with
  | true =>
    rw [settle, if_pos hseen]
    exact .skipped hseen
  | false =>
    have hgo : ¬ p.Halts t.index → p.settle x (fuel + 1) (t :: ts) seen =
        p.settle x fuel ((p.targets x t.index).map (⟨·, t.start⟩) ++ ts)
          (seen ||| (1 <<< t.index)) →
        Settling p x fuel t ts seen (p.settle x (fuel + 1) (t :: ts) seen) := by
      intro hhalts heq
      rw [heq]
      exact .entered hseen hhalts
    cases hi : p.instrs[t.index]? with
    | none =>
      refine hgo (by simp [Halts, hi]) ?_
      simp [settle, hseen, instr?, targets, hi]
    | some instr =>
      cases instr with
      | char set =>
        rw [settle, if_neg (by simp [hseen]), instr?, hi]
        exact .waiting set hseen hi
      | accept =>
        rw [settle, if_neg (by simp [hseen]), instr?, hi]
        exact .accepted hi
      | test q =>
        refine hgo (by simp [Halts, hi]) ?_
        cases hq : x.passes q <;> simp [settle, hseen, instr?, targets, hi, hq]
      | jump j =>
        refine hgo (by simp [Halts, hi]) ?_
        simp [settle, hseen, instr?, targets, hi]
      | fork j k =>
        refine hgo (by simp [Halts, hi]) ?_
        simp [settle, hseen, instr?, targets, hi]

/-- A settled thread comes from one of the given ones. -/
theorem settle_sound {fuel : Nat} {ts : List Thread} {seen : Nat} {t : Thread}
    (h : t ∈ p.settle x fuel ts seen) :
    ∃ t₀ ∈ ts, t.start = t₀.start ∧ Relation.ReflTransGen (Quiet p x) t₀.index t.index := by
  induction fuel generalizing ts seen with
  | zero => simp [settle] at h
  | succ fuel ih =>
    cases ts with
    | nil => simp [settle] at h
    | cons u us =>
      have hsettling := settle_settling (p := p) (x := x) fuel u us seen
      generalize p.settle x (fuel + 1) (u :: us) seen = out at hsettling h
      have hlater : ∀ {seen'}, t ∈ p.settle x fuel us seen' → ∃ t₀ ∈ u :: us, t.start = t₀.start ∧
          Relation.ReflTransGen (Quiet p x) t₀.index t.index := by
        intro seen' hmem
        obtain ⟨t₀, ht₀, hfrom⟩ := ih hmem
        exact ⟨t₀, List.mem_cons_of_mem u ht₀, hfrom⟩
      cases hsettling with
      | skipped hseen => exact hlater h
      | accepted hi =>
        rw [List.mem_singleton.mp h]
        exact ⟨u, List.mem_cons_self, rfl, .refl⟩
      | waiting set hnew hi =>
        rcases List.mem_cons.mp h with rfl | h
        · exact ⟨t, List.mem_cons_self, rfl, .refl⟩
        · exact hlater h
      | entered hnew hhalts =>
        obtain ⟨t₀, ht₀, hstart, hreach⟩ := ih h
        rcases List.mem_append.mp ht₀ with ht₀ | ht₀
        · obtain ⟨j, hj, rfl⟩ := List.mem_map.mp ht₀
          exact ⟨u, List.mem_cons_self, hstart, .head (quiet_iff_mem_targets.mpr hj) hreach⟩
        · exact ⟨t₀, List.mem_cons_of_mem u ht₀, hstart, hreach⟩

/-- From one index to another without a character and past the instructions in `seen`. -/
inductive Avoids (p : Program) (x : Place) (seen : Nat) : Nat → Nat → Prop
  | refl {i : Nat} (hnew : seen.testBit i = false) : Avoids p x seen i i
  | head {i j k : Nat} (hnew : seen.testBit i = false) (h : Quiet p x i j)
      (hrest : Avoids p x seen j k) : Avoids p x seen i k

theorem testBit_entered (seen i j : Nat) :
    (seen ||| (1 <<< i)).testBit j = (seen.testBit j || decide (i = j)) := by
  rw [Nat.testBit_or, Nat.one_shiftLeft, Nat.testBit_two_pow]

/-- A way past `seen` goes past the next instruction too, ends there, or goes on from there. -/
theorem Avoids.enter {seen i k : Nat} (h : Avoids p x seen i k) (j : Nat) :
    k = j ∨ Avoids p x (seen ||| (1 <<< j)) i k ∨
      ∃ l, Quiet p x j l ∧ Avoids p x (seen ||| (1 <<< j)) l k := by
  have hnew' : ∀ {i}, seen.testBit i = false → i ≠ j →
      (seen ||| (1 <<< j)).testBit i = false := by
    intro i hnew hne
    rw [testBit_entered, hnew, decide_eq_false (Ne.symm hne)]
    rfl
  induction h with
  | @refl i hnew =>
    by_cases hij : i = j
    · exact Or.inl hij
    · exact Or.inr (Or.inl (.refl (hnew' hnew hij)))
  | @head i l k hnew hstep _ ih =>
    rcases ih with heq | havoids | hfrom
    · exact Or.inl heq
    · by_cases hij : i = j
      · subst hij
        exact Or.inr (Or.inr ⟨l, hstep, havoids⟩)
      · exact Or.inr (Or.inl (.head (hnew' hnew hij) hstep havoids))
    · exact Or.inr (Or.inr hfrom)

theorem not_avoids_entered (seen i k : Nat) : ¬ Avoids p x (seen ||| (1 <<< i)) i k := by
  have hentered : (seen ||| (1 <<< i)).testBit i = true := by simp
  intro h
  cases h with
  | refl hnew => rw [hentered] at hnew; cases hnew
  | head hnew _ _ => rw [hentered] at hnew; cases hnew

/-- The instructions that were not entered. -/
def unseen (p : Program) (seen : Nat) : Finset Nat :=
  (Finset.range p.instrs.size).filter fun i => seen.testBit i = false

theorem card_unseen_enter {seen i : Nat} (hi : i < p.instrs.size)
    (hnew : seen.testBit i = false) :
    (unseen p (seen ||| (1 <<< i))).card + 1 = (unseen p seen).card := by
  have herase : unseen p (seen ||| (1 <<< i)) = (unseen p seen).erase i := by
    ext j
    simp only [unseen, Finset.mem_filter, Finset.mem_erase, testBit_entered, Bool.or_eq_false_iff,
      decide_eq_false_iff_not]
    tauto
  have hmem : i ∈ unseen p seen := by simp [unseen, hi, hnew]
  rw [herase, Finset.card_erase_add_one hmem]

theorem card_unseen_enter_le (seen i : Nat) :
    (unseen p (seen ||| (1 <<< i))).card ≤ (unseen p seen).card := by
  refine Finset.card_le_card ?_
  intro j hj
  simp only [unseen, Finset.mem_filter, testBit_entered, Bool.or_eq_false_iff] at hj ⊢
  exact ⟨hj.1, hj.2.1⟩

/-- The last of these threads accepts. -/
def EndsAccepting (p : Program) (ts : List Thread) : Prop :=
  ∃ t, ts.getLast? = some t ∧ p.instrs[t.index]? = some .accept

/-- Entering an instruction for the first time leaves room for its targets. -/
theorem room_of_entered {fuel seen i : Nat} {us : List Thread} (hnew : seen.testBit i = false)
    (hfuel : us.length + 1 + 2 * (unseen p seen).card < fuel + 1) (start : Nat) :
    ((p.targets x i).map (⟨·, start⟩) ++ us : List Thread).length +
      2 * (unseen p (seen ||| (1 <<< i))).card < fuel := by
  rw [List.length_append, List.length_map]
  by_cases hsize : i < p.instrs.size
  · have hcard := card_unseen_enter hsize hnew
    have htwo := length_targets_le (p := p) (x := x) i
    omega
  · have hcard := card_unseen_enter_le (p := p) seen i
    rw [targets_of_size_le (Nat.le_of_not_lt hsize), List.length_nil]
    omega

/-- With enough fuel, either a thread accepts, or every thread that gets to a character past the
instructions in `seen` is among the settled ones, and none gets to accept. -/
theorem settle_complete {fuel : Nat} {ts : List Thread} {seen : Nat}
    (hfuel : ts.length + 2 * (unseen p seen).card < fuel) :
    EndsAccepting p (p.settle x fuel ts seen) ∨
      ∀ t ∈ ts, ∀ k, p.Halts k → Avoids p x seen t.index k →
        (∃ set, p.instrs[k]? = some (.char set)) ∧
          ∃ t' ∈ p.settle x fuel ts seen, t'.index = k := by
  induction fuel generalizing ts seen with
  | zero => omega
  | succ fuel ih =>
    cases ts with
    | nil => exact Or.inr (by simp)
    | cons u us =>
      rw [List.length_cons] at hfuel
      have hsettling := settle_settling (p := p) (x := x) fuel u us seen
      generalize p.settle x (fuel + 1) (u :: us) seen = out at hsettling ⊢
      cases hsettling with
      | accepted hi => exact Or.inl ⟨u, rfl, hi⟩
      | skipped hseen =>
        refine (ih (by omega)).imp_right fun hlater => ?_
        intro t ht k hhalts havoids
        rcases List.mem_cons.mp ht with rfl | ht
        · -- No way past an instruction begins at it.
          cases havoids with
          | refl hnew => rw [hseen] at hnew; cases hnew
          | head hnew _ _ => rw [hseen] at hnew; cases hnew
        · exact hlater t ht k hhalts havoids
      | waiting set hnew hi =>
        have hcard := card_unseen_enter_le (p := p) seen u.index
        have hrest := ih (show us.length + 2 * (unseen p (seen ||| (1 <<< u.index))).card < fuel by
          omega)
        rcases hrest with ⟨t, hlast, haccept⟩ | hlater
        · refine Or.inl ⟨t, ?_, haccept⟩
          rw [List.getLast?_cons, hlast]
          rfl
        · refine Or.inr ?_
          intro t ht k hhalts havoids
          rcases havoids.enter u.index with rfl | havoids | ⟨l, hquiet, _⟩
          · exact ⟨⟨set, hi⟩, u, List.mem_cons_self, rfl⟩
          · rcases List.mem_cons.mp ht with rfl | ht
            · exact absurd havoids (not_avoids_entered _ _ _)
            · obtain ⟨hchar, t', ht', hindex⟩ := hlater t ht k hhalts havoids
              exact ⟨hchar, t', List.mem_cons_of_mem u ht', hindex⟩
          · rw [quiet_iff_mem_targets, targets, hi] at hquiet
            cases hquiet
      | entered hnew hgoes =>
        have hroom := room_of_entered (x := x) hnew hfuel u.start
        refine (ih hroom).imp_right fun hlater => ?_
        intro t ht k hhalts havoids
        rcases havoids.enter u.index with rfl | havoids | ⟨l, hquiet, havoids⟩
        · exact absurd hhalts hgoes
        · rcases List.mem_cons.mp ht with rfl | ht
          · exact absurd havoids (not_avoids_entered _ _ _)
          · exact hlater t (List.mem_append_right _ ht) k hhalts havoids
        · have hmem : (⟨l, u.start⟩ : Thread) ∈ (p.targets x u.index).map (⟨·, u.start⟩) ++ us :=
            List.mem_append_left _ (List.mem_map_of_mem (quiet_iff_mem_targets.mp hquiet))
          exact hlater ⟨l, u.start⟩ hmem k hhalts havoids

theorem avoids_zero {i k : Nat} (h : Relation.ReflTransGen (Quiet p x) i k) :
    Avoids p x 0 i k := by
  induction h using Relation.ReflTransGen.head_induction_on with
  | refl => exact .refl (Nat.zero_testBit _)
  | head hstep _ ih => exact .head (Nat.zero_testBit _) hstep ih

/-- Either a thread accepts, or every thread that gets to a character is among the settled
ones, and none gets to accept. -/
theorem settled_complete (ts : List Thread) :
    EndsAccepting p (p.settled x ts) ∨
      ∀ t ∈ ts, ∀ k, p.Halts k → Relation.ReflTransGen (Quiet p x) t.index k →
        (∃ set, p.instrs[k]? = some (.char set)) ∧ ∃ t' ∈ p.settled x ts, t'.index = k := by
  have hcard : (unseen p 0).card ≤ p.instrs.size := by
    simp [unseen]
  have hfuel : ts.length + 2 * (unseen p 0).card < ts.length + 2 * p.instrs.size + 1 := by omega
  refine (settle_complete hfuel).imp_right fun h => ?_
  intro t ht k hhalts hreach
  exact h t ht k hhalts (avoids_zero hreach)

end Settle

section Search

variable {p : Program}

/-- The place in a text behind so many characters. -/
def placeAt (text : List Char) (n : Nat) : Place := ⟨(text.take n).getLast?, text.drop n⟩

theorem placeAt_succ {text cs : List Char} {n : Nat} {b : Option Char} {c : Char}
    (h : placeAt text n = ⟨b, c :: cs⟩) :
    placeAt text (n + 1) = ⟨some c, cs⟩ ∧ n < text.length := by
  have hdrop : text.drop n = c :: cs := congrArg Place.rest h
  have hlt : n < text.length := by
    refine Nat.lt_of_not_le fun hle => ?_
    rw [List.drop_eq_nil_of_le hle] at hdrop
    cases hdrop
  have hget : text[n]? = some c := by
    rw [← Nat.add_zero n, ← List.getElem?_drop, hdrop]
    rfl
  refine ⟨?_, hlt⟩
  unfold placeAt
  rw [List.take_add_one, hget, ← List.drop_drop, hdrop]
  simp

theorem length_of_placeAt {text : List Char} {n : Nat} {b : Option Char} (hn : n ≤ text.length)
    (h : placeAt text n = ⟨b, []⟩) : n = text.length := by
  have hdrop : text.drop n = [] := congrArg Place.rest h
  rw [List.drop_eq_nil_iff] at hdrop
  omega

/-- A thread that started at its place in the text has come to this place. -/
def Came (p : Program) (text : List Char) (here : Nat) (t : Thread) : Prop :=
  t.start ≤ here ∧ Reach p (0, placeAt text t.start) (t.index, placeAt text here)

/-- A thread has come from the start of the span to accept at its end. -/
def Found (p : Program) (text : List Char) (m : Span) : Prop :=
  m.start ≤ m.stop ∧ m.stop ≤ text.length ∧
    ∃ k, p.instrs[k]? = some .accept ∧
      Reach p (0, placeAt text m.start) (k, placeAt text m.stop)

theorem reach_of_quiet {x : Place} {i j : Nat} (h : Relation.ReflTransGen (Quiet p x) i j) :
    Reach p (i, x) (j, x) := by
  induction h using Relation.ReflTransGen.head_induction_on with
  | refl => exact .refl _
  | head hstep _ ih => exact .head (.quiet hstep) ih

theorem accepted?_eq_some {ts : List Thread} {t : Thread} (h : p.accepted? ts = some t) :
    t ∈ ts ∧ p.instrs[t.index]? = some .accept := by
  unfold accepted? at h
  obtain ⟨u, hlast, hu⟩ := Option.bind_eq_some_iff.mp h
  split at hu
  next hi =>
    cases hu
    exact ⟨List.mem_of_getLast? hlast, hi⟩
  next => cases hu

/-- The threads at a place, with a new one as long as nothing has been found. -/
def atPlace (ts : List Thread) (best : Option Span) (here : Nat) : List Thread :=
  if best.isNone then ts ++ [⟨0, here⟩] else ts

/-- What has been found when these threads are settled. -/
def bestOf (p : Program) (live : List Thread) (best : Option Span) (here : Nat) : Option Span :=
  match p.accepted? live with
  | some t => some ⟨t.start, here⟩
  | none => best

theorem search_nil (ts : List Thread) (best : Option Span) (here : Nat) (before : Option Char) :
    p.search ts best here before [] =
      p.bestOf (p.settled ⟨before, []⟩ (atPlace ts best here)) best here := rfl

theorem search_cons (ts : List Thread) (best : Option Span) (here : Nat) (before : Option Char)
    (c : Char) (cs : List Char) :
    let live := p.settled ⟨before, c :: cs⟩ (atPlace ts best here)
    p.search ts best here before (c :: cs) =
      if (p.bestOf live best here).isSome && (live.filterMap (p.pass? c)).isEmpty then
        p.bestOf live best here
      else p.search (live.filterMap (p.pass? c)) (p.bestOf live best here) (here + 1) (some c) cs :=
  rfl

theorem pass?_eq_some {c : Char} {t u : Thread} (h : p.pass? c t = some u) :
    ∃ set, p.instrs[t.index]? = some (.char set) ∧ set.contains c = true ∧
      u = ⟨t.index + 1, t.start⟩ := by
  unfold pass? at h
  split at h
  next set hi =>
    split at h
    next hc =>
      cases h
      exact ⟨set, hi, hc, rfl⟩
    next => cases h
  next => cases h

section Sound

variable {text : List Char} {ts : List Thread} {best : Option Span} {here : Nat}

theorem settled_came (best : Option Span) (hts : ∀ t ∈ ts, Came p text here t) :
    ∀ t ∈ p.settled (placeAt text here) (atPlace ts best here), Came p text here t := by
  intro t ht
  obtain ⟨t₀, ht₀, hstart, hreach⟩ := settle_sound ht
  have hcame : Came p text here t₀ := by
    unfold atPlace at ht₀
    split at ht₀
    · rcases List.mem_append.mp ht₀ with ht₀ | ht₀
      · exact hts t₀ ht₀
      · rw [List.mem_singleton.mp ht₀]
        exact ⟨Nat.le_refl here, .refl _⟩
    · exact hts t₀ ht₀
  refine ⟨hstart ▸ hcame.1, ?_⟩
  rw [hstart]
  exact hcame.2.trans (reach_of_quiet hreach)

theorem bestOf_found {live : List Thread} (hhere : here ≤ text.length)
    (hlive : ∀ t ∈ live, Came p text here t) (hbest : ∀ m ∈ best, Found p text m) :
    ∀ m ∈ p.bestOf live best here, Found p text m := by
  intro m hm
  unfold bestOf at hm
  split at hm
  next t haccepted =>
    cases hm
    obtain ⟨hmem, hi⟩ := accepted?_eq_some haccepted
    obtain ⟨hle, hreach⟩ := hlive t hmem
    exact ⟨hle, hhere, t.index, hi, hreach⟩
  next => exact hbest m hm

/-- What is found has been reached. -/
theorem search_sound (rest : List Char) {before : Option Char}
    (hplace : placeAt text here = ⟨before, rest⟩) (hhere : here ≤ text.length)
    (hts : ∀ t ∈ ts, Came p text here t) (hbest : ∀ m ∈ best, Found p text m) :
    ∀ m ∈ p.search ts best here before rest, Found p text m := by
  induction rest generalizing ts best here before with
  | nil =>
    rw [search_nil, ← hplace]
    exact bestOf_found hhere (settled_came best hts) hbest
  | cons c cs ih =>
    obtain ⟨hnext, hlt⟩ := placeAt_succ hplace
    have hlive := settled_came best hts
    have hfound := bestOf_found hhere hlive hbest
    rw [search_cons, ← hplace]
    split
    · exact hfound
    · refine ih hnext hlt ?_ hfound
      intro u hu
      obtain ⟨t, ht, hpass⟩ := List.mem_filterMap.mp hu
      obtain ⟨set, hi, hc, rfl⟩ := pass?_eq_some hpass
      obtain ⟨hle, hreach⟩ := hlive t ht
      refine ⟨Nat.le_succ_of_le hle, hreach.trans ?_⟩
      rw [hnext, hplace]
      exact .single (.char before cs hi hc)

end Sound

/-- From here a thread can come to accept. -/
def Accepts (p : Program) (i : Nat) (x : Place) : Prop :=
  ∃ k y, p.instrs[k]? = some .accept ∧ Reach p (i, x) (k, y)

/-- A thread that can come to accept does so without a character, or gets to a character from
behind which it can. -/
theorem Accepts.halts {i : Nat} {x : Place} (h : Accepts p i x) :
    ∃ k, Relation.ReflTransGen (Quiet p x) i k ∧
      (p.instrs[k]? = some .accept ∨
        ∃ set c cs, p.instrs[k]? = some (.char set) ∧ x.rest = c :: cs ∧ set.contains c = true ∧
          Accepts p (k + 1) ⟨some c, cs⟩) := by
  obtain ⟨k, y, haccept, n, hpath⟩ := h
  induction n generalizing i with
  | zero =>
    cases hpath
    exact ⟨_, .refl, Or.inl haccept⟩
  | succ n ih =>
    cases hpath with
    | head hstep hrest =>
      cases hstep with
      | quiet hquiet =>
        obtain ⟨k', hreach, hhalts⟩ := ih hrest
        exact ⟨k', .head hquiet hreach, hhalts⟩
      | char b cs hi hc =>
        exact ⟨_, .refl, Or.inr ⟨_, _, cs, hi, rfl, hc, k, y, haccept, n, hrest⟩⟩

theorem bestOf_isSome {live : List Thread} {best : Option Span} {here : Nat}
    (h : best.isSome = true ∨ EndsAccepting p live) : (p.bestOf live best here).isSome = true := by
  unfold bestOf
  rcases h with hbest | ⟨t, hlast, hi⟩
  · split
    · rfl
    · exact hbest
  · have haccepted : p.accepted? live = some t := by simp [accepted?, hlast, instr?, hi]
    rw [haccepted]
    rfl

/-- One of these threads can come to accept, so one does, or one gets behind the next
character and still can. -/
theorem live_of_accepts {x : Place} {ts : List Thread} {t : Thread} (ht : t ∈ ts)
    (h : Accepts p t.index x) :
    EndsAccepting p (p.settled x ts) ∨
      ∃ c cs, x.rest = c :: cs ∧ ∃ u ∈ (p.settled x ts).filterMap (p.pass? c),
        Accepts p u.index ⟨some c, cs⟩ := by
  obtain ⟨k, hreach, hhalts⟩ := h.halts
  rcases settled_complete (p := p) (x := x) ts with hends | hall
  · exact Or.inl hends
  · rcases hhalts with haccept | ⟨set, c, cs, hi, hrest, hc, haccepts⟩
    · obtain ⟨⟨set, hi⟩, _⟩ := hall t ht k (Or.inl haccept) hreach
      cases haccept.symm.trans hi
    · obtain ⟨_, t', ht', rfl⟩ := hall t ht k (Or.inr ⟨set, hi⟩) hreach
      refine Or.inr ⟨c, cs, hrest, ⟨t'.index + 1, t'.start⟩, ?_, haccepts⟩
      refine List.mem_filterMap.mpr ⟨t', ht', ?_⟩
      simp [pass?, instr?, hi, hc]

/-- As long as nothing is found, a new thread starts here, or further on. -/
theorem now_or_later {text : List Char} {ts : List Thread} {here : Nat}
    (h : (∃ t ∈ ts, Accepts p t.index (placeAt text here)) ∨
      ∃ n, here ≤ n ∧ n ≤ text.length ∧ Accepts p 0 (placeAt text n)) :
    (∃ t ∈ atPlace ts none here, Accepts p t.index (placeAt text here)) ∨
      ∃ n, here + 1 ≤ n ∧ n ≤ text.length ∧ Accepts p 0 (placeAt text n) := by
  rcases h with ⟨t, ht, haccepts⟩ | ⟨n, hn, hlength, haccepts⟩
  · exact Or.inl ⟨t, List.mem_append_left _ ht, haccepts⟩
  · rcases Nat.eq_or_lt_of_le hn with rfl | hlt
    · exact Or.inl ⟨⟨0, here⟩, List.mem_append_right _ (List.mem_singleton_self _), haccepts⟩
    · exact Or.inr ⟨n, hlt, hlength, haccepts⟩

/-- A match is found if there is one already, if one of the threads can come to accept, or if a
new one can further on. -/
theorem search_complete {text : List Char} (rest : List Char) {ts : List Thread}
    {best : Option Span} {here : Nat} {before : Option Char}
    (hplace : placeAt text here = ⟨before, rest⟩) (hhere : here ≤ text.length)
    (h : best.isSome = true ∨ (∃ t ∈ ts, Accepts p t.index (placeAt text here)) ∨
      ∃ n, here ≤ n ∧ n ≤ text.length ∧ Accepts p 0 (placeAt text n)) :
    (p.search ts best here before rest).isSome = true := by
  induction rest generalizing ts best here before with
  | nil =>
    rw [search_nil, ← hplace]
    refine bestOf_isSome ?_
    cases best with
    | some m => exact Or.inl rfl
    | none =>
      rcases now_or_later (h.resolve_left (by simp)) with ⟨t, ht, haccepts⟩ | ⟨n, hn, hlength, _⟩
      · refine Or.inr ((live_of_accepts ht haccepts).resolve_right ?_)
        rintro ⟨c, cs, hrest, _⟩
        rw [hplace] at hrest
        cases hrest
      · have hend := length_of_placeAt hhere hplace
        omega
  | cons c cs ih =>
    obtain ⟨hnext, hlt⟩ := placeAt_succ hplace
    rw [search_cons, ← hplace]
    cases hbest' : (p.bestOf (p.settled (placeAt text here) (atPlace ts best here))
      best here).isSome with
    | true =>
      split
      · exact hbest'
      · exact ih hnext hlt (Or.inl hbest')
    | false =>
      have hno : ¬ (best.isSome = true ∨
          EndsAccepting p (p.settled (placeAt text here) (atPlace ts best here))) := by
        intro hsome
        rw [bestOf_isSome hsome] at hbest'
        cases hbest'
      obtain ⟨hnone, hends⟩ := not_or.mp hno
      have hbest : best = none := by simpa using hnone
      subst hbest
      rw [if_neg (by simp)]
      refine ih hnext hlt (Or.inr ?_)
      rcases now_or_later (h.resolve_left hnone) with ⟨t, ht, haccepts⟩ | hlater
      · obtain ⟨c', cs', hrest, u, hu, hbehind⟩ :=
          (live_of_accepts ht haccepts).resolve_left hends
        rw [hplace] at hrest
        cases hrest
        refine Or.inl ⟨u, hu, ?_⟩
        rw [hnext]
        exact hbehind
      · exact Or.inr hlater

end Search

variable {q : Pattern} {text : List Char}

/-- What is found is a match. -/
theorem span?_sound {m : Span} (h : (ofPattern q).span? text = some m) :
    m.start ≤ m.stop ∧ m.stop ≤ text.length ∧
      q.Matches (placeAt text m.start) (placeAt text m.stop) := by
  have hplace : placeAt text 0 = ⟨none, text⟩ := rfl
  obtain ⟨hle, hlength, k, haccept, hreach⟩ :=
    search_sound text hplace (Nat.zero_le _) (by simp) (by simp) m h
  rw [eq_goal_of_accept haccept, reach_goal_iff] at hreach
  exact ⟨hle, hlength, hreach⟩

/-- Where there is a match, one is found. -/
theorem span?_complete {n : Nat} {y : Place} (hn : n ≤ text.length)
    (h : q.Matches (placeAt text n) y) : ((ofPattern q).span? text).isSome = true := by
  have hplace : placeAt text 0 = ⟨none, text⟩ := rfl
  refine search_complete text hplace (Nat.zero_le _) (Or.inr (Or.inr ⟨n, Nat.zero_le n, hn, ?_⟩))
  exact ⟨goal q, y, (coded_ofPattern q).2, (reach_goal_iff q _ y).mpr h⟩

/-- The program of a pattern is in a text just when the pattern matches somewhere in it. -/
theorem isIn_ofPattern_iff (q : Pattern) (text : String) :
    (ofPattern q).isIn text = true ↔
      ∃ n ≤ text.toList.length, ∃ y, q.Matches (placeAt text.toList n) y := by
  constructor
  · intro h
    obtain ⟨m, hm⟩ := Option.isSome_iff_exists.mp h
    obtain ⟨hle, hlength, hmatch⟩ := span?_sound hm
    exact ⟨m.start, Nat.le_trans hle hlength, _, hmatch⟩
  · rintro ⟨n, hn, y, hmatch⟩
    exact span?_complete hn hmatch

end Synthesis.Program
