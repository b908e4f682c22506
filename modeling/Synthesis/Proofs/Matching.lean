import Synthesis.Pattern.Program
import Mathlib.Data.Finset.Card
import Mathlib.Logic.Relation

/-!
What a pattern matches, and that its program finds just that. A match leads from one place of a
text to another. A program with the code of a pattern between two indices leads a thread from the
first index to the second one along every match, and along nothing else; the search follows all
threads at once, so it comes to a match just when there is one.
-/
namespace Synthesis

namespace Pattern

/-- The pattern leads from one place to another. -/
inductive Matches : Pattern → Place → Place → Prop
  | empty (x : Place) : Matches .empty x x
  | char {set : CharSet} {c : Char} (b : Option Char) (cs : List Char)
      (hc : set.contains c = true) : Matches (.char set) ⟨b, c :: cs⟩ ⟨some c, cs⟩
  | test {t : Place.Test} {x : Place} (ht : x.passes t = true) : Matches (.test t) x x
  | seq {a b : Pattern} {x y z : Place} (ha : Matches a x y) (hb : Matches b y z) :
      Matches (.seq a b) x z
  | first {a : Pattern} (b : Pattern) {x y : Place} (ha : Matches a x y) : Matches (.alt a b) x y
  | second (a : Pattern) {b : Pattern} {x y : Place} (hb : Matches b x y) : Matches (.alt a b) x y
  | absent (a : Pattern) (greedy : Bool) (x : Place) : Matches (.optional a greedy) x x
  | present {a : Pattern} (greedy : Bool) {x y : Place} (ha : Matches a x y) :
      Matches (.optional a greedy) x y
  | once {a : Pattern} (greedy : Bool) {x y : Place} (ha : Matches a x y) :
      Matches (.repeated a greedy) x y
  | again {a : Pattern} {greedy : Bool} {x y z : Place} (ha : Matches a x y)
      (hmore : Matches (.repeated a greedy) y z) : Matches (.repeated a greedy) x z
  | none (a : Pattern) (greedy : Bool) (x : Place) : Matches (.star a greedy) x x
  | more {a : Pattern} {greedy : Bool} {x y z : Place} (ha : Matches a x y)
      (hmore : Matches (.star a greedy) y z) : Matches (.star a greedy) x z

end Pattern

namespace Program

/-- The program has the code of a pattern from one index up to another. -/
inductive Coded (p : Program) : Pattern → Nat → Nat → Prop
  | empty (i : Nat) : Coded p .empty i i
  | char {set : CharSet} {i : Nat} (hi : p.instrs[i]? = some (.char set)) :
      Coded p (.char set) i (i + 1)
  | test {t : Place.Test} {i : Nat} (hi : p.instrs[i]? = some (.test t)) :
      Coded p (.test t) i (i + 1)
  | seq {a b : Pattern} {i j k : Nat} (ha : Coded p a i j) (hb : Coded p b j k) :
      Coded p (.seq a b) i k
  | alt {a b : Pattern} {i j k : Nat} (hi : p.instrs[i]? = some (.fork (i + 1) (j + 1)))
      (ha : Coded p a (i + 1) j) (hj : p.instrs[j]? = some (.jump k)) (hb : Coded p b (j + 1) k) :
      Coded p (.alt a b) i k
  | optional {a : Pattern} {greedy : Bool} {i j : Nat}
      (hi : p.instrs[i]? = some (Pattern.branch greedy (i + 1) j)) (ha : Coded p a (i + 1) j) :
      Coded p (.optional a greedy) i j
  | repeated {a : Pattern} {greedy : Bool} {i j : Nat} (ha : Coded p a i j)
      (hj : p.instrs[j]? = some (Pattern.branch greedy i (j + 1))) :
      Coded p (.repeated a greedy) i (j + 1)
  | star {a : Pattern} {greedy : Bool} {i j : Nat}
      (hi : p.instrs[i]? = some (Pattern.branch greedy (i + 1) (j + 1)))
      (ha : Coded p a (i + 1) j)
      (hj : p.instrs[j]? = some (if a.mayBeEmpty then Pattern.branch greedy (i + 1) (j + 1)
        else .jump i)) :
      Coded p (.star a greedy) i (j + 1)

section Code

variable {p : Program}

/-- The program has these instructions from an index on. -/
def Holds (p : Program) (i : Nat) (is : List Instr) : Prop :=
  ∀ k instr, is[k]? = some instr → p.instrs[i + k]? = some instr

theorem holds_cons {i : Nat} {a : Instr} {is : List Instr} (h : p.Holds i (a :: is)) :
    p.instrs[i]? = some a ∧ p.Holds (i + 1) is := by
  refine ⟨h 0 a rfl, ?_⟩
  intro k instr hk
  have hnext := h (k + 1) instr hk
  rwa [Nat.add_comm k 1, ← Nat.add_assoc] at hnext

theorem holds_append {i : Nat} {is js : List Instr} (h : p.Holds i (is ++ js)) :
    p.Holds i is ∧ p.Holds (i + is.length) js := by
  refine ⟨?_, ?_⟩
  · intro k instr hk
    have hlt := (List.getElem?_eq_some_iff.mp hk).1
    exact h k instr (by rw [List.getElem?_append_left hlt, hk])
  · intro k instr hk
    have hlater := h (is.length + k) instr (by
      rw [List.getElem?_append_right (Nat.le_add_right _ _), Nat.add_sub_cancel_left, hk])
    rwa [← Nat.add_assoc] at hlater

theorem code_end (q : Pattern) (i : Nat) : (q.code i).2 = i + (q.code i).1.length := by
  induction q generalizing i with
  | empty => rfl
  | char set => rfl
  | test t => rfl
  | seq a b iha ihb =>
    simp only [Pattern.code, List.length_append]
    rw [ihb, iha]
    omega
  | alt a b iha ihb =>
    simp only [Pattern.code, List.length_append, List.length_cons]
    rw [ihb, iha]
    omega
  | optional a greedy iha =>
    simp only [Pattern.code, List.length_cons]
    rw [iha]
    omega
  | repeated a greedy iha =>
    simp only [Pattern.code, List.length_append, List.length_singleton]
    rw [iha]
    omega
  | star a greedy iha =>
    simp only [Pattern.code, List.length_append, List.length_cons, List.length_nil]
    rw [iha]
    omega

theorem coded_of_holds (q : Pattern) (i : Nat) (h : p.Holds i (q.code i).1) :
    Coded p q i (q.code i).2 := by
  induction q generalizing i with
  | empty => exact .empty i
  | char set => exact .char (holds_cons h).1
  | test t => exact .test (holds_cons h).1
  | seq a b iha ihb =>
    obtain ⟨ha, hb⟩ := holds_append h
    rw [← code_end] at hb
    exact .seq (iha i ha) (ihb _ hb)
  | alt a b iha ihb =>
    obtain ⟨hi, hrest⟩ := holds_cons h
    obtain ⟨ha, hrest⟩ := holds_append hrest
    rw [← code_end] at hrest
    obtain ⟨hj, hb⟩ := holds_cons hrest
    exact .alt hi (iha _ ha) hj (ihb _ hb)
  | optional a greedy iha =>
    obtain ⟨hi, ha⟩ := holds_cons h
    exact .optional hi (iha _ ha)
  | repeated a greedy iha =>
    obtain ⟨ha, hrest⟩ := holds_append h
    rw [← code_end] at hrest
    exact .repeated (iha i ha) (holds_cons hrest).1
  | star a greedy iha =>
    obtain ⟨hi, hrest⟩ := holds_cons h
    obtain ⟨ha, hrest⟩ := holds_append hrest
    rw [← code_end] at hrest
    exact .star hi (iha _ ha) (holds_cons hrest).1

theorem Coded.le {q : Pattern} {i j : Nat} (h : Coded p q i j) : i ≤ j := by
  induction h with
  | empty => exact Nat.le_refl _
  | char => exact Nat.le_succ _
  | test => exact Nat.le_succ _
  | seq _ _ iha ihb => exact Nat.le_trans iha ihb
  | alt _ _ _ _ iha ihb => omega
  | optional _ _ iha => omega
  | repeated _ _ iha => omega
  | star _ _ _ iha => omega

end Code

/-- The index where the program of a pattern accepts. -/
def goal (q : Pattern) : Nat := (q.code 0).2

theorem coded_ofPattern (q : Pattern) :
    Coded (ofPattern q) q 0 (goal q) ∧ (ofPattern q).instrs[goal q]? = some .accept := by
  have hall : (ofPattern q).Holds 0 ((q.code 0).1 ++ [Instr.accept]) := by
    intro k instr hk
    rw [ofPattern, Nat.zero_add, List.getElem?_toArray]
    exact hk
  obtain ⟨hcode, haccept⟩ := holds_append hall
  refine ⟨coded_of_holds q 0 hcode, ?_⟩
  rw [goal, code_end]
  exact (holds_cons haccept).1

/-- A thread goes on at a place without a character. -/
inductive Quiet (p : Program) (x : Place) : Nat → Nat → Prop
  | test {t : Place.Test} {i : Nat} (hi : p.instrs[i]? = some (.test t))
      (ht : x.passes t = true) : Quiet p x i (i + 1)
  | jump {i j : Nat} (hi : p.instrs[i]? = some (.jump j)) : Quiet p x i j
  | preferred {i j k : Nat} (hi : p.instrs[i]? = some (.fork j k)) : Quiet p x i j
  | other {i j k : Nat} (hi : p.instrs[i]? = some (.fork j k)) : Quiet p x i k

/-- A thread takes one step, from an index at a place to another one. -/
inductive Step (p : Program) : Nat × Place → Nat × Place → Prop
  | quiet {x : Place} {i j : Nat} (h : Quiet p x i j) : Step p (i, x) (j, x)
  | char {set : CharSet} {i : Nat} {c : Char} (b : Option Char) (cs : List Char)
      (hi : p.instrs[i]? = some (.char set)) (hc : set.contains c = true) :
      Step p (i, ⟨b, c :: cs⟩) (i + 1, ⟨some c, cs⟩)

/-- So many steps. -/
inductive Path (p : Program) : Nat → Nat × Place → Nat × Place → Prop
  | refl (a : Nat × Place) : Path p 0 a a
  | head {n : Nat} {a b c : Nat × Place} (h : Step p a b) (hrest : Path p n b c) :
      Path p (n + 1) a c

section Steps

variable {p : Program} {x y : Place} {i j k n : Nat}

theorem quiet_branch {greedy : Bool} (hi : p.instrs[i]? = some (Pattern.branch greedy j k)) :
    Quiet p x i j ∧ Quiet p x i k := by
  unfold Pattern.branch at hi
  cases greedy with
  | true => exact ⟨.preferred hi, .other hi⟩
  | false => exact ⟨.other hi, .preferred hi⟩

theorem eq_of_quiet_branch {greedy : Bool} {l : Nat}
    (hi : p.instrs[i]? = some (Pattern.branch greedy j k)) (h : Quiet p x i l) : l = j ∨ l = k := by
  unfold Pattern.branch at hi
  cases greedy with
  | true =>
    cases h with
    | test h' => cases hi.symm.trans h'
    | jump h' => cases hi.symm.trans h'
    | preferred h' => cases hi.symm.trans h'; exact Or.inl rfl
    | other h' => cases hi.symm.trans h'; exact Or.inr rfl
  | false =>
    cases h with
    | test h' => cases hi.symm.trans h'
    | jump h' => cases hi.symm.trans h'
    | preferred h' => cases hi.symm.trans h'; exact Or.inr rfl
    | other h' => cases hi.symm.trans h'; exact Or.inl rfl

/-- A step from an instruction that is no character stays at the place. -/
theorem quiet_of_step {b : Nat × Place} {instr : Instr} (hi : p.instrs[i]? = some instr)
    (hno : ∀ set, instr ≠ .char set) (h : Step p (i, x) b) : ∃ l, b = (l, x) ∧ Quiet p x i l := by
  cases h with
  | quiet h => exact ⟨_, rfl, h⟩
  | char _ _ hi' _ =>
    rw [hi] at hi'
    exact absurd (Option.some.inj hi') (hno _)

/-- A path to another index begins with a step. -/
theorem Path.first (h : Path p n (i, x) (k, y)) (hne : i ≠ k) :
    ∃ m b, n = m + 1 ∧ Step p (i, x) b ∧ Path p m b (k, y) := by
  cases h with
  | refl => exact absurd rfl hne
  | head h hrest => exact ⟨_, _, rfl, h, hrest⟩

/-- A path that leaves a branch goes to one of its two targets. -/
theorem Path.branch {greedy : Bool} {l : Nat} (h : Path p n (i, x) (l, y)) (hne : i ≠ l)
    (hi : p.instrs[i]? = some (Pattern.branch greedy j k)) :
    ∃ m, n = m + 1 ∧ (Path p m (j, x) (l, y) ∨ Path p m (k, x) (l, y)) := by
  obtain ⟨m, b, hn, hstep, hrest⟩ := h.first hne
  have hno : ∀ set, Pattern.branch greedy j k ≠ .char set := by
    intro set
    unfold Pattern.branch
    cases greedy with
    | true => exact fun h => by cases h
    | false => exact fun h => by cases h
  obtain ⟨l', rfl, hquiet⟩ := quiet_of_step hi hno hstep
  rcases eq_of_quiet_branch hi hquiet with rfl | rfl
  · exact ⟨m, hn, Or.inl hrest⟩
  · exact ⟨m, hn, Or.inr hrest⟩

theorem Path.jump {l : Nat} (h : Path p n (i, x) (l, y)) (hne : i ≠ l)
    (hi : p.instrs[i]? = some (.jump j)) : ∃ m, n = m + 1 ∧ Path p m (j, x) (l, y) := by
  obtain ⟨m, b, hn, hstep, hrest⟩ := h.first hne
  obtain ⟨l', rfl, hquiet⟩ := quiet_of_step hi (fun _ h => by cases h) hstep
  cases hquiet with
  | test h' => cases hi.symm.trans h'
  | jump h' => cases hi.symm.trans h'; exact ⟨m, hn, hrest⟩
  | preferred h' => cases hi.symm.trans h'
  | other h' => cases hi.symm.trans h'

end Steps

/-- A path out of the code of a pattern follows a match of it first. -/
theorem Coded.sound {p : Program} {q : Pattern} {i j : Nat} (h : Coded p q i j) {l : Nat}
    {x y : Place} {n : Nat} (hl : j ≤ l) (hpath : Path p n (i, x) (l, y)) :
    ∃ m z, m ≤ n ∧ q.Matches x z ∧ Path p m (j, z) (l, y) := by
  induction h generalizing x n with
  | empty => exact ⟨n, x, Nat.le_refl n, .empty x, hpath⟩
  | @char set i hi =>
    obtain ⟨m, b, hn, hstep, hrest⟩ := hpath.first (by omega)
    cases hstep with
    | quiet hquiet =>
      cases hquiet with
      | test h' => cases hi.symm.trans h'
      | jump h' => cases hi.symm.trans h'
      | preferred h' => cases hi.symm.trans h'
      | other h' => cases hi.symm.trans h'
    | char b cs hi' hc =>
      cases hi.symm.trans hi'
      exact ⟨m, _, by omega, .char b cs hc, hrest⟩
  | @test t i hi =>
    obtain ⟨m, b, hn, hstep, hrest⟩ := hpath.first (by omega)
    obtain ⟨l', rfl, hquiet⟩ := quiet_of_step hi (fun _ h => by cases h) hstep
    cases hquiet with
    | test h' ht =>
      cases hi.symm.trans h'
      exact ⟨m, x, by omega, .test ht, hrest⟩
    | jump h' => cases hi.symm.trans h'
    | preferred h' => cases hi.symm.trans h'
    | other h' => cases hi.symm.trans h'
  | seq ha hb iha ihb =>
    obtain ⟨m₁, y₁, hm₁, hmatch₁, hpath₁⟩ := iha (Nat.le_trans hb.le hl) hpath
    obtain ⟨m₂, y₂, hm₂, hmatch₂, hpath₂⟩ := ihb hl hpath₁
    exact ⟨m₂, y₂, Nat.le_trans hm₂ hm₁, .seq hmatch₁ hmatch₂, hpath₂⟩
  | @alt a b i j k hi ha hj hb iha ihb =>
    have hij := ha.le
    have hjk := hb.le
    have hfork : p.instrs[i]? = some (Pattern.branch true (i + 1) (j + 1)) := hi
    obtain ⟨m, hn, hforked⟩ := hpath.branch (by omega) hfork
    rcases hforked with hfirst | hsecond
    · obtain ⟨m₁, z, hm₁, hmatch, hpath₁⟩ := iha (by omega) hfirst
      obtain ⟨m₂, hm₂, hpath₂⟩ := hpath₁.jump (by omega) hj
      exact ⟨m₂, z, by omega, .first b hmatch, hpath₂⟩
    · obtain ⟨m₁, z, hm₁, hmatch, hpath₁⟩ := ihb hl hsecond
      exact ⟨m₁, z, by omega, .second a hmatch, hpath₁⟩
  | @optional a greedy i j hi ha iha =>
    have hij := ha.le
    obtain ⟨m, hn, hforked⟩ := hpath.branch (by omega) hi
    rcases hforked with hinside | hbehind
    · obtain ⟨m₁, z, hm₁, hmatch, hpath₁⟩ := iha hl hinside
      exact ⟨m₁, z, by omega, .present greedy hmatch, hpath₁⟩
    · exact ⟨m, x, by omega, .absent a greedy x, hbehind⟩
  | @repeated a greedy i j ha hj iha =>
    -- The rounds that are left take fewer steps.
    induction n using Nat.strongRecOn generalizing x with
    | ind n ihn =>
      obtain ⟨m, z, hm, hmatch, hpath₁⟩ := iha (by omega) hpath
      obtain ⟨m₁, hm₁, hforked⟩ := hpath₁.branch (by omega) hj
      rcases hforked with hagain | hbehind
      · obtain ⟨m₂, z₂, hm₂, hmore, hpath₂⟩ := ihn m₁ (by omega) hagain
        exact ⟨m₂, z₂, by omega, .again hmatch hmore, hpath₂⟩
      · exact ⟨m₁, z, by omega, .once greedy hmatch, hbehind⟩
  | @star a greedy i j hi ha hj iha =>
    have hij := ha.le
    induction n using Nat.strongRecOn generalizing x with
    | ind n ihn =>
      obtain ⟨m, hn, hforked⟩ := hpath.branch (by omega) hi
      rcases hforked with hinside | hbehind
      · obtain ⟨m₁, z, hm₁, hmatch, hpath₁⟩ := iha (by omega) hinside
        -- Behind the body the loop is entered again, or left.
        have hnext : (∃ m₂ < n, Path p m₂ (i, z) (l, y)) ∨
            ∃ m₂ < n, Path p m₂ (j + 1, z) (l, y) := by
          split at hj
          · obtain ⟨m₂, hm₂, hforked⟩ := hpath₁.branch (by omega) hj
            refine hforked.imp (fun hagain => ⟨m₂ + 1, by omega, ?_⟩)
              fun hbehind => ⟨m₂, by omega, hbehind⟩
            exact .head (.quiet (quiet_branch hi).1) hagain
          · obtain ⟨m₂, hm₂, hagain⟩ := hpath₁.jump (by omega) hj
            exact Or.inl ⟨m₂, by omega, hagain⟩
        rcases hnext with ⟨m₂, hm₂, hagain⟩ | ⟨m₂, hm₂, hbehind⟩
        · obtain ⟨m₃, z₃, hm₃, hmore, hpath₃⟩ := ihn m₂ hm₂ hagain
          exact ⟨m₃, z₃, by omega, .more hmatch hmore, hpath₃⟩
        · exact ⟨m₂, z, by omega, .more hmatch (.none a greedy z), hbehind⟩
      · exact ⟨m, x, by omega, .none a greedy x, hbehind⟩

/-- Some path. -/
def Reach (p : Program) (a b : Nat × Place) : Prop := ∃ n, Path p n a b

section Reach

variable {p : Program} {a b c : Nat × Place}

theorem Reach.refl (a : Nat × Place) : Reach p a a := ⟨0, .refl a⟩

theorem Reach.head (h : Step p a b) (hrest : Reach p b c) : Reach p a c := by
  obtain ⟨n, hpath⟩ := hrest
  exact ⟨n + 1, .head h hpath⟩

theorem Reach.trans (h : Reach p a b) (h' : Reach p b c) : Reach p a c := by
  obtain ⟨n, hpath⟩ := h
  induction hpath with
  | refl => exact h'
  | head hstep _ ih => exact .head hstep (ih h')

theorem Reach.single (h : Step p a b) : Reach p a b := .head h (.refl b)

end Reach

/-- Along a match there is a path through the code of the pattern. -/
theorem Coded.complete {p : Program} {q : Pattern} {x y : Place} (hmatch : q.Matches x y)
    {i j : Nat} (h : Coded p q i j) : Reach p (i, x) (j, y) := by
  induction hmatch generalizing i j with
  | empty x =>
    cases h
    exact .refl _
  | char b cs hc =>
    cases h with
    | char hi => exact .single (.char b cs hi hc)
  | test ht =>
    cases h with
    | test hi => exact .single (.quiet (.test hi ht))
  | seq _ _ iha ihb =>
    cases h with
    | seq ha hb => exact (iha ha).trans (ihb hb)
  | first b _ iha =>
    cases h with
    | alt hi ha hj hb =>
      exact .head (.quiet (.preferred hi)) ((iha ha).trans (.single (.quiet (.jump hj))))
  | second a _ ihb =>
    cases h with
    | alt hi ha hj hb => exact .head (.quiet (.other hi)) (ihb hb)
  | absent a greedy x =>
    cases h with
    | optional hi ha => exact .single (.quiet (quiet_branch hi).2)
  | present greedy _ iha =>
    cases h with
    | optional hi ha => exact .head (.quiet (quiet_branch hi).1) (iha ha)
  | once greedy _ iha =>
    cases h with
    | repeated ha hj => exact (iha ha).trans (.single (.quiet (quiet_branch hj).2))
  | again _ _ iha ihmore =>
    cases h with
    | repeated ha hj =>
      exact (iha ha).trans (.head (.quiet (quiet_branch hj).1) (ihmore (.repeated ha hj)))
  | none a greedy x =>
    cases h with
    | star hi ha hj => exact .single (.quiet (quiet_branch hi).2)
  | @more a greedy x y z _ hmore iha ihmore =>
    cases h with
    | @star _ _ _ k hi ha hj =>
      have hagain : Reach p (k, y) (k + 1, z) := by
        have hloop := ihmore (.star hi ha hj)
        split at hj
        · -- The same branch stands before and behind the body.
          obtain ⟨n, hpath⟩ := hloop
          obtain ⟨m, _, hforked⟩ := hpath.branch (by have := ha.le; omega) hi
          rcases hforked with hinside | hbehind
          · exact .head (.quiet (quiet_branch hj).1) ⟨m, hinside⟩
          · exact .head (.quiet (quiet_branch hj).2) ⟨m, hbehind⟩
        · exact .head (.quiet (.jump hj)) hloop
      exact .head (.quiet (quiet_branch hi).1) ((iha ha).trans hagain)

/-- The program of a pattern accepts at the places to which the pattern leads. -/
theorem reach_goal_iff (q : Pattern) (x y : Place) :
    Reach (ofPattern q) (0, x) (goal q, y) ↔ q.Matches x y := by
  obtain ⟨hcoded, haccept⟩ := coded_ofPattern q
  constructor
  · rintro ⟨n, hpath⟩
    obtain ⟨m, z, _, hmatch, hrest⟩ := hcoded.sound (Nat.le_refl _) hpath
    -- No step leaves the end of the program.
    cases hrest with
    | refl => exact hmatch
    | head hstep _ =>
      cases hstep with
      | quiet hquiet =>
        cases hquiet with
        | test h' => cases haccept.symm.trans h'
        | jump h' => cases haccept.symm.trans h'
        | preferred h' => cases haccept.symm.trans h'
        | other h' => cases haccept.symm.trans h'
      | char _ _ h' _ => cases haccept.symm.trans h'
  · exact fun hmatch => hcoded.complete hmatch

end Program

end Synthesis
