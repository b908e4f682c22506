import Synthesis.Proofs.Moments

/-!
What a lookup finds. The entry under a name tells what was written there, for how long and when, and
no operation changes that until the name is written again or the entry ends: it is erased or
cleared, a lookup of the name or a sweep sees it expired, or a sweep takes it to make room. Expiry
is noticed by lookups and sweeps only, and on a clock that goes back an entry that had expired
unseen is good again. So a lookup finds the latest record under its name if none of this has
happened since and the record is fresh when it is looked up.
-/
namespace Synthesis

variable {α : Type}

namespace Cache

/-- A record without end is always fresh, any other one up to its age; an age stays inside the
signed sixty-four bit range. -/
def Record.IsFresh (r : Record α) (now : Int) : Prop :=
  r.lifetime ≤ 0 ∨ Decimal.clamp64 (now - r.writtenAt) ≤ r.lifetime

end Cache

namespace CacheEntry

def record (e : CacheEntry α) : Cache.Record α := ⟨e.value, e.lifetime, e.createdAt⟩

theorem isExpired_iff {e : CacheEntry α} {now : Int} :
    e.isExpired now = true ↔ ¬ e.record.IsFresh now := by
  unfold isExpired age record Cache.Record.IsFresh
  rw [Bool.and_eq_true, decide_eq_true_iff, decide_eq_true_iff]
  dsimp only
  omega

end CacheEntry

namespace Cache

variable {c : Cache α} {now : Int} {key name : String} {r : Record α}

/-- What the entry under a name tells. -/
def record? (c : Cache α) (name : String) : Option (Record α) :=
  (c.entries.get? name).map (·.record)

theorem record?_eq_some :
    c.record? name = some r ↔ ∃ e, c.entries.get? name = some e ∧ e.record = r :=
  Option.map_eq_some_iff

/-- A lookup finds the record under its name if it is fresh. -/
theorem get_eq_some_iff {value : α} :
    (c.get now name).1 = some value ↔
      ∃ r, c.record? name = some r ∧ r.value = value ∧ r.IsFresh now := by
  constructor
  · intro h
    obtain ⟨e, hentry, hlive, hvalue⟩ := live_of_get h
    refine ⟨e.record, record?_eq_some.mpr ⟨e, hentry, rfl⟩, hvalue, ?_⟩
    by_contra hstale
    rw [CacheEntry.isExpired_iff.mpr hstale] at hlive
    cases hlive
  · rintro ⟨r, hrecord, rfl, hfresh⟩
    obtain ⟨e, hentry, rfl⟩ := record?_eq_some.mp hrecord
    have hlive : e.isExpired now = false :=
      Bool.eq_false_iff.mpr fun hexpired => CacheEntry.isExpired_iff.mp hexpired hfresh
    rw [get_of_live hentry hlive]
    rfl

/-- A lookup takes away the record under its name if it sees it expired, and no other one. -/
theorem record?_get :
    (c.get now key).2.record? name = some r ↔
      c.record? name = some r ∧ ¬ (key = name ∧ ¬ r.IsFresh now) := by
  unfold Cache.get
  split
  next hnone =>
    refine (and_iff_left_of_imp ?_).symm
    rintro hrecord ⟨rfl, -⟩
    simp [record?, hnone] at hrecord
  next e hentry =>
    split
    next hexpired =>
      by_cases hname : key = name
      · subst hname
        have hstale := CacheEntry.isExpired_iff.mp hexpired
        simp only [record?, Table.get?_erase, hentry, if_true, Option.map_none, Option.map_some,
          true_and, not_not]
        constructor
        · intro hgone
          cases hgone
        · rintro ⟨hsome, hfresh⟩
          exact absurd hfresh (Option.some.inj hsome ▸ hstale)
      · simp [record?, Table.get?_erase, hname]
    next hlive =>
      by_cases hname : key = name
      · subst hname
        have hfresh : e.record.IsFresh now := not_not.mp (mt CacheEntry.isExpired_iff.mpr hlive)
        simp only [record?, Table.get?_insert, hentry, if_true, Option.map_some, true_and, not_not]
        exact (and_iff_left_of_imp fun hsome => Option.some.inj hsome ▸ hfresh).symm
      · simp [record?, Table.get?_insert, hname]

theorem record?_erase :
    (c.erase key).record? name = some r ↔ c.record? name = some r ∧ key ≠ name := by
  by_cases hname : key = name
  · simp [record?, Cache.erase, Table.get?_erase, hname]
  · simp [record?, Cache.erase, Table.get?_erase, hname]

theorem record?_sweep :
    (c.sweep now).record? name = some r ↔
      c.record? name = some r ∧ r.IsFresh now ∧ name ∉ c.crowd now := by
  have hkept : ∀ e : CacheEntry α, (!e.isExpired now && !(c.crowd now).contains name) = true ↔
      e.record.IsFresh now ∧ name ∉ c.crowd now := by
    intro e
    rw [Bool.and_eq_true, Bool.not_eq_true', Bool.not_eq_true', Bool.eq_false_iff,
      Bool.eq_false_iff, Ne, CacheEntry.isExpired_iff, not_not, Ne, List.contains_iff_mem]
  simp only [record?_eq_some, get?_sweep, Option.filter_eq_some_iff, hkept]
  constructor
  · rintro ⟨e, ⟨hentry, hfresh⟩, rfl⟩
    exact ⟨⟨e, hentry, rfl⟩, hfresh⟩
  · rintro ⟨⟨e, hentry, rfl⟩, hfresh⟩
    exact ⟨e, ⟨hentry, hfresh⟩, rfl⟩

/-- Making room takes away what a sweep sees expired and what it crowds out. -/
theorem record?_makeRoom :
    (c.makeRoom now key).record? name = some r ↔ c.record? name = some r ∧
      ¬ (c.needsRoom key = true ∧ (¬ r.IsFresh now ∨ name ∈ c.crowd now)) := by
  unfold makeRoom
  split
  next hneeds =>
    rw [record?_sweep]
    simp [hneeds]
  next hneeds => exact (and_iff_left fun hends => hneeds hends.1).symm

/-- What is written under a name is there; under other names a sweep may take something away. -/
theorem record?_setFor {value : α} {lifetime : Int} :
    (c.setFor now key value lifetime).record? name = some r ↔
      (key = name ∧ ⟨value, lifetime, now⟩ = r) ∨ (key ≠ name ∧ c.record? name = some r ∧
        ¬ (c.needsRoom key = true ∧ (¬ r.IsFresh now ∨ name ∈ c.crowd now))) := by
  rw [← record?_makeRoom, setFor_eq]
  simp only [record?, Table.get?_insert]
  by_cases hname : key = name
  · simp [hname, CacheEntry.record]
  · simp [hname]

namespace Moment

/-- The record is written under the name. -/
def Writes (m : Moment α) (name : String) (r : Record α) : Prop := m.writing? = some (name, r)

/-- The record under the name ends: it is erased or cleared, a lookup of the name or a sweep sees
it expired, or a sweep takes it to make room. -/
def Ends (m : Moment α) (name : String) (r : Record α) : Prop :=
  m.operation = .erase name ∨ m.operation = .clear ∨
    (m.operation = .get name ∧ ¬ r.IsFresh m.now) ∨
    (m.sweeps = true ∧ (¬ r.IsFresh m.now ∨ name ∈ m.cache.crowd m.now))

/-- Afterwards a record is there if it has just been written, or was there before and neither is
overwritten nor ends. -/
theorem next_record? (m : Moment α) (name : String) (r : Record α) :
    m.next.cache.record? name = some r ↔ m.Writes name r ∨
      ((∀ r', ¬ m.Writes name r') ∧ m.cache.record? name = some r ∧ ¬ m.Ends name r) := by
  obtain ⟨⟨c, now⟩, x⟩ := m
  cases x with
  | get key =>
    refine record?_get.trans ?_
    simp [Writes, writing?, Ends, sweeps]
  | set key value =>
    refine record?_setFor.trans ?_
    simp [Writes, writing?, Ends, sweeps]
  | setFor key value lifetime =>
    refine record?_setFor.trans ?_
    simp [Writes, writing?, Ends, sweeps]
  | erase key =>
    refine record?_erase.trans ?_
    simp [Writes, writing?, Ends, sweeps]
  | clear =>
    have hgone : c.clear.record? name = none := rfl
    simp [next, Timed.after, hgone, Writes, writing?, Ends]
  | move distance => simp [next, Timed.after, Writes, writing?, Ends, sweeps]

end Moment

/-- The record is the latest that was written under the name, with the moments since then. -/
def Latest (moments : List (Moment α)) (name : String) (r : Record α)
    (since : List (Moment α)) : Prop :=
  ∃ before m, moments = before ++ m :: since ∧ m.Writes name r ∧
    ∀ x ∈ since, ∀ r', ¬ x.Writes name r'

theorem latest_concat {moments since : List (Moment α)} {x : Moment α} :
    Latest (moments ++ [x]) name r since ↔ (x.Writes name r ∧ since = []) ∨
      ∃ earlier, since = earlier ++ [x] ∧ Latest moments name r earlier ∧
        ∀ r', ¬ x.Writes name r' := by
  constructor
  · rintro ⟨before, m, heq, hwrites, hnone⟩
    rcases List.eq_nil_or_concat since with rfl | ⟨earlier, y, rfl⟩
    · obtain ⟨-, hlast⟩ := List.append_inj' heq rfl
      cases hlast
      exact Or.inl ⟨hwrites, rfl⟩
    · rw [List.concat_eq_append] at heq hnone ⊢
      rw [← List.cons_append, ← List.append_assoc] at heq
      obtain ⟨rfl, hlast⟩ := List.append_inj' heq rfl
      cases hlast
      refine Or.inr ⟨earlier, rfl, ⟨before, m, rfl, hwrites, ?_⟩, hnone x (by simp)⟩
      exact fun y hy => hnone y (List.mem_append_left _ hy)
  · rintro (⟨hwrites, rfl⟩ | ⟨earlier, rfl, ⟨before, m, rfl, hwrites, hnone⟩, hlast⟩)
    · exact ⟨moments, x, rfl, hwrites, by simp⟩
    · refine ⟨before, m, by simp, hwrites, ?_⟩
      intro y hy
      rcases List.mem_append.mp hy with hearlier | hx
      · exact hnone y hearlier
      · rw [List.mem_singleton.mp hx]
        exact hlast

/-- The record is the latest under its name and has not ended since. -/
def Stands (moments : List (Moment α)) (name : String) (r : Record α) : Prop :=
  ∃ since, Latest moments name r since ∧ ∀ x ∈ since, ¬ x.Ends name r

theorem stands_concat {moments : List (Moment α)} {m : Moment α} :
    Stands (moments ++ [m]) name r ↔ m.Writes name r ∨
      ((∀ r', ¬ m.Writes name r') ∧ Stands moments name r ∧ ¬ m.Ends name r) := by
  simp only [Stands, latest_concat]
  constructor
  · rintro ⟨since, ⟨hwrites, -⟩ | ⟨earlier, rfl, hlatest, hnone⟩, hkept⟩
    · exact Or.inl hwrites
    · refine Or.inr ⟨hnone, ⟨earlier, hlatest, ?_⟩, hkept m (by simp)⟩
      exact fun x hx => hkept x (List.mem_append_left _ hx)
  · rintro (hwrites | ⟨hnone, ⟨since, hlatest, hkept⟩, hlast⟩)
    · exact ⟨[], Or.inl ⟨hwrites, rfl⟩, by simp⟩
    · refine ⟨since ++ [m], Or.inr ⟨since, rfl, hlatest, hnone⟩, ?_⟩
      intro x hx
      rcases List.mem_append.mp hx with hsince | hx
      · exact hkept x hsince
      · rw [List.mem_singleton.mp hx]
        exact hlast

/-- What is there after a run is what stands. -/
theorem Timed.run_record? (capacity lifetime start : Int) (operations : List (Operation α)) :
    ((fresh capacity lifetime start).run operations).cache.record? name = some r ↔
      Stands ((fresh capacity lifetime start).moments operations) name r := by
  induction operations using List.reverseRecOn with
  | nil =>
    constructor
    · intro hrecord
      cases hrecord
    · rintro ⟨since, ⟨before, m, hmoments, -⟩, -⟩
      simp [moments] at hmoments
  | append_singleton operations x ih =>
    rw [run_concat, moments_concat, stands_concat, ← ih]
    exact Moment.next_record? ⟨run _ operations, x⟩ name r

/-- After any operations on an empty cache, whose clock may move in both directions, a lookup finds
a value just when it is that of the latest record under the name, nothing has ended that record
since, and it is fresh. If a lookup finds nothing although there is a latest record, then that is
not fresh or has ended since. -/
theorem lookup_finds_latest (capacity lifetime start : Int) (operations : List (Operation α))
    (name : String) :
    let t := (Timed.fresh capacity lifetime start).run operations
    let moments := (Timed.fresh capacity lifetime start).moments operations
    (∀ value, (t.cache.get t.now name).1 = some value ↔ ∃ r since,
      Latest moments name r since ∧ r.value = value ∧ (∀ x ∈ since, ¬ x.Ends name r) ∧
        r.IsFresh t.now) ∧
      ((t.cache.get t.now name).1 = none → ∀ r since, Latest moments name r since →
        ¬ r.IsFresh t.now ∨ ∃ x ∈ since, x.Ends name r) := by
  intro t moments
  have hfound : ∀ value, (t.cache.get t.now name).1 = some value ↔ ∃ r since,
      Latest moments name r since ∧ r.value = value ∧ (∀ x ∈ since, ¬ x.Ends name r) ∧
        r.IsFresh t.now := by
    intro value
    rw [get_eq_some_iff]
    refine exists_congr fun r => ?_
    rw [Timed.run_record?, Stands, ← exists_and_right]
    refine exists_congr fun since => ?_
    constructor
    · rintro ⟨⟨hlatest, hkept⟩, hvalue, hfresh⟩
      exact ⟨hlatest, hvalue, hkept, hfresh⟩
    · rintro ⟨hlatest, hvalue, hkept, hfresh⟩
      exact ⟨⟨hlatest, hkept⟩, hvalue, hfresh⟩
  refine ⟨hfound, ?_⟩
  intro hmiss r since hlatest
  by_contra hstill
  push Not at hstill
  have hhit := (hfound r.value).mpr ⟨r, since, hlatest, rfl, hstill.2, hstill.1⟩
  rw [hmiss] at hhit
  cases hhit

/-- A record that has expired unseen is found again when the clock has gone back. -/
theorem lookup_finds_latest_returned :
    let operations : List (Operation Nat) := [.setFor "late" 7 5, .move 10, .move (-7)]
    let t := (Timed.fresh 1 0 0).run operations
    Latest ((Timed.fresh 1 0 0).moments operations) "late" ⟨7, 5, 0⟩
        (((Timed.fresh 1 0 0).after (.setFor "late" 7 5)).moments [.move 10, .move (-7)]) ∧
      (t.cache.get t.now "late").1 = some 7 := by
  intro operations t
  have hlatest : Latest ((Timed.fresh 1 0 0).moments operations) "late" ⟨7, 5, 0⟩
      (((Timed.fresh 1 0 0).after (.setFor "late" 7 5)).moments [.move 10, .move (-7)]) :=
    ⟨[], _, rfl, rfl, by simp [Timed.moments, Moment.Writes, Moment.writing?]⟩
  have hkept : ∀ x ∈ ((Timed.fresh 1 0 0).after (.setFor "late" 7 5)).moments
      [.move 10, .move (-7)], ¬ x.Ends "late" ⟨7, 5, 0⟩ := by
    simp [Timed.moments, Moment.Ends, Moment.sweeps, Moment.writing?]
  have hfresh : (⟨7, 5, 0⟩ : Record Nat).IsFresh t.now := Or.inr (by decide)
  exact ⟨hlatest, ((lookup_finds_latest 1 0 0 operations "late").1 7).mpr
    ⟨_, _, hlatest, rfl, hkept, hfresh⟩⟩

end Cache

end Synthesis
