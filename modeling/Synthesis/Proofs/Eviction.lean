import Synthesis.Proofs.Freshness
import Synthesis.Proofs.Keys
import Mathlib.Data.List.Pairwise

/-!
What a sweep takes. Entries are numbered as they are entered and no two have one number, so they
stand in one line from the stalest to the one used last, whatever the clock has done in between. A
write that needs room takes what has expired and, if too many are left, so many from the front of
that line as are a quarter of the rest and one more. Everything else stays as it is, and a write
that needs no room takes nothing.
-/
namespace Synthesis

/-- In a list in strict order, the members among the first so many are those with fewer before
them. -/
theorem mem_take_iff_countP_lt {α : Type} {r : α → α → Prop} [DecidableRel r]
    (hasymm : ∀ a b, r a b → ¬ r b a) {xs : List α} (hsorted : xs.Pairwise r) (n : Nat) {x : α} :
    x ∈ xs.take n ↔ x ∈ xs ∧ xs.countP (fun y => r y x) < n := by
  induction xs generalizing n with
  | nil => simp
  | cons y ys ih =>
    obtain ⟨hfirst, hrest⟩ := List.pairwise_cons.mp hsorted
    cases n with
    | zero => simp
    | succ n =>
      rw [List.take_succ_cons, List.mem_cons, List.mem_cons, ih hrest n]
      by_cases hxy : x = y
      · -- The first member has nobody before it.
        subst hxy
        have hnone : (x :: ys).countP (fun z => r z x) = 0 := by
          rw [List.countP_eq_zero]
          intro z hz
          rw [decide_eq_true_iff]
          rcases List.mem_cons.mp hz with rfl | hz
          · exact fun hself => hasymm z z hself hself
          · exact hasymm x z (hfirst z hz)
        simp [hnone]
      · by_cases hx : x ∈ ys
        · have hmore : (y :: ys).countP (fun z => r z x) = ys.countP (fun z => r z x) + 1 :=
            List.countP_cons_of_pos (decide_eq_true (hfirst x hx))
          simp only [hxy, hx, hmore, false_or, true_and]
          omega
        · simp [hxy, hx]

namespace CacheEntry

variable {α : Type} {a b c : CacheEntry α}

/-- Last used before the other, or at the same time and entered before it. -/
def IsStaler (a b : CacheEntry α) : Prop :=
  a.lastAccessed < b.lastAccessed ∨ a.lastAccessed = b.lastAccessed ∧ a.serial < b.serial

instance : DecidableRel (IsStaler (α := α)) := fun a b =>
  inferInstanceAs (Decidable (a.lastAccessed < b.lastAccessed ∨
    a.lastAccessed = b.lastAccessed ∧ a.serial < b.serial))

theorem IsStaler.asymm (h : a.IsStaler b) : ¬ b.IsStaler a := by
  unfold IsStaler at *
  omega

theorem IsStaler.trans (hab : a.IsStaler b) (hbc : b.IsStaler c) : a.IsStaler c := by
  unfold IsStaler at *
  omega

theorem isStaler_or_isStaler (h : a.serial ≠ b.serial) : a.IsStaler b ∨ b.IsStaler a := by
  unfold IsStaler
  omega

theorem isOlder_iff : a.isOlder b = true ↔
    a.lastAccessed < b.lastAccessed ∨ a.lastAccessed = b.lastAccessed ∧ a.serial ≤ b.serial := by
  simp [isOlder]

theorem isStaler_of_isOlder (h : a.isOlder b = true) (hne : a.serial ≠ b.serial) :
    a.IsStaler b := by
  rw [isOlder_iff] at h
  unfold IsStaler
  omega

theorem isOlder_trans (hab : a.isOlder b = true) (hbc : b.isOlder c = true) :
    a.isOlder c = true := by
  rw [isOlder_iff] at *
  omega

theorem isOlder_total (a b : CacheEntry α) : (a.isOlder b || b.isOlder a) = true := by
  rw [Bool.or_eq_true, isOlder_iff, isOlder_iff]
  omega

end CacheEntry

namespace Cache

variable {α : Type} {c c' : Cache α} {now : Int} {name : String}

/-- The entries have different numbers, all of them given out by the cache. -/
structure Numbered (c : Cache α) : Prop where
  given : ∀ name e, c.entries.get? name = some e → e.serial ≤ c.serial
  apart : ∀ name other e f, c.entries.get? name = some e → c.entries.get? other = some f →
    e.serial = f.serial → name = other

/-- Entries that keep their names and numbers stay numbered. -/
theorem Numbered.of_kept (h : c.Numbered) (hserial : c.serial ≤ c'.serial)
    (hkept : ∀ name e, c'.entries.get? name = some e →
      ∃ e', c.entries.get? name = some e' ∧ e'.serial = e.serial) : c'.Numbered where
  given name e he := by
    obtain ⟨e', he', heq⟩ := hkept name e he
    have hgiven := h.given name e' he'
    omega
  apart name other e f he hf heq := by
    obtain ⟨e', he', hnumber⟩ := hkept name e he
    obtain ⟨f', hf', hnumber'⟩ := hkept other f hf
    exact h.apart name other e' f' he' hf' (by omega)

theorem Numbered.sweep (h : c.Numbered) (now : Int) :
    (c.sweep now).Numbered := by
  refine h.of_kept (Nat.le_refl _) fun name e he => ?_
  rw [get?_sweep] at he
  exact ⟨e, (Option.filter_eq_some_iff.mp he).1, rfl⟩

theorem Numbered.makeRoom (h : c.Numbered) (now : Int)
    (name : String) : (c.makeRoom now name).Numbered := by
  unfold Cache.makeRoom
  split
  · exact h.sweep now
  · exact h

theorem Numbered.setFor (h : c.Numbered) (now : Int)
    (name : String) (value : α) (lifetime : Int) : (c.setFor now name value lifetime).Numbered := by
  have hroom := h.makeRoom now name
  rw [setFor_eq]
  constructor
  · intro other e he
    dsimp only at he ⊢
    rw [Table.get?_insert] at he
    split at he
    · cases he
      exact Nat.le_refl _
    · exact Nat.le_succ_of_le (hroom.given other e he)
  · -- The number of the new entry is above all that were given out before.
    intro other third e f he hf heq
    dsimp only at he hf
    rw [Table.get?_insert] at he hf
    split at he
    · rename_i hother
      split at hf
      · rename_i hthird
        exact hother.symm.trans hthird
      · cases he
        have hgiven := hroom.given third f hf
        dsimp only at heq
        omega
    · split at hf
      · cases hf
        have hgiven := hroom.given other e he
        dsimp only at heq
        omega
      · exact hroom.apart other third e f he hf heq

theorem Numbered.get (h : c.Numbered) (now : Int)
    (name : String) : (c.get now name).2.Numbered := by
  unfold Cache.get
  split
  · exact h.of_kept (Nat.le_refl _) fun other e he => ⟨e, he, rfl⟩
  · rename_i found hfound
    split
    · refine h.of_kept (Nat.le_refl _) fun other e he => ?_
      dsimp only at he
      rw [Table.get?_erase] at he
      split at he
      · cases he
      · exact ⟨e, he, rfl⟩
    · refine h.of_kept (Nat.le_refl _) fun other e he => ?_
      dsimp only at he
      rw [Table.get?_insert] at he
      split at he
      · rename_i heq
        cases he
        exact ⟨found, heq ▸ hfound, rfl⟩
      · exact ⟨e, he, rfl⟩

theorem Numbered.after {t : Timed α} (h : t.cache.Numbered) (x : Operation α) :
    (t.after x).cache.Numbered := by
  cases x with
  | get name => exact h.get t.now name
  | set name value => exact h.setFor t.now name value _
  | setFor name value lifetime => exact h.setFor t.now name value lifetime
  | erase name =>
    refine h.of_kept (Nat.le_refl _) fun other e he => ?_
    have hkept : (t.cache.entries.erase name).get? other = some e := he
    rw [Table.get?_erase] at hkept
    split at hkept
    · cases hkept
    · exact ⟨e, hkept, rfl⟩
  | clear => exact h.of_kept (Nat.le_refl _) fun other e he => by cases he
  | move distance => exact h

theorem Timed.fresh_run_numbered (capacity lifetime start : Int)
    (operations : List (Operation α)) :
    ((fresh capacity lifetime start).run operations).cache.Numbered := by
  induction operations using List.reverseRecOn with
  | nil =>
    constructor
    · intro name e he
      cases he
    · intro name other e f he
      cases he
  | append_singleton operations x ih =>
    rw [run_concat]
    exact ih.after x

/-- The entries that have not expired. -/
def live (c : Cache α) (now : Int) : List (CacheEntry α) :=
  c.entries.values.filter fun e => !e.isExpired now

/-- How many entries that have not expired are staler. -/
def stalerThan (c : Cache α) (now : Int) (e : CacheEntry α) : Nat :=
  (c.live now).countP fun f => f.IsStaler e

/-- How many entries that have not expired a sweep takes: none if there is room for one more, else
a quarter of them and one. -/
def surplus (c : Cache α) (now : Int) : Nat :=
  if c.capacity ≤ (c.live now).length then (c.live now).length / 4 + 1 else 0

/-- What a sweep takes: what has expired, and of the rest the stalest. -/
def Takes (c : Cache α) (now : Int) (e : CacheEntry α) : Prop :=
  e.isExpired now = true ∨ c.stalerThan now e < c.surplus now

instance (c : Cache α) (now : Int) (e : CacheEntry α) : Decidable (c.Takes now e) :=
  inferInstanceAs (Decidable (e.isExpired now = true ∨ c.stalerThan now e < c.surplus now))

theorem values_purged (c : Cache α) (now : Int) : (purged c.entries now).values = c.live now := by
  unfold purged live Table.values
  rw [List.filter_map]
  rfl

theorem size_purged (c : Cache α) (now : Int) :
    (purged c.entries now).size = (c.live now).length := by
  rw [← values_purged]
  exact (List.length_map _).symm

/-- The entries of a table, sorted for a sweep, stand in strict order if no two have one number. -/
theorem sorted_isStaler {entries : List (String × CacheEntry α)}
    (hapart : entries.Pairwise fun x y => x.2.serial ≠ y.2.serial) :
    (entries.mergeSort fun x y => x.2.isOlder y.2).Pairwise fun x y => x.2.IsStaler y.2 := by
  have htrans : ∀ x y z : String × CacheEntry α,
      x.2.isOlder y.2 = true → y.2.isOlder z.2 = true → x.2.isOlder z.2 = true :=
    fun x y z => CacheEntry.isOlder_trans
  have htotal : ∀ x y : String × CacheEntry α, (x.2.isOlder y.2 || y.2.isOlder x.2) = true :=
    fun x y => CacheEntry.isOlder_total x.2 y.2
  have hsorted := List.pairwise_mergeSort htrans htotal entries
  have hnumbers := ((List.mergeSort_perm entries fun x y => x.2.isOlder y.2).pairwise_iff
    fun {x y} => Ne.symm).mpr hapart
  exact hsorted.imp₂ (fun x y => CacheEntry.isStaler_of_isOlder) hnumbers

/-- The victims are the entries with fewer staler ones than there are victims. -/
theorem mem_victims {entries : Table (CacheEntry α)}
    (hapart : entries.entries.Pairwise fun x y => x.2.serial ≠ y.2.serial) :
    name ∈ victims entries ↔ ∃ e, entries.get? name = some e ∧
      (entries.values.countP fun f => f.IsStaler e) < entries.size / 4 + 1 := by
  have hperm := List.mergeSort_perm entries.entries fun x y => x.2.isOlder y.2
  have hcount : ∀ e : CacheEntry α,
      ((entries.entries.mergeSort fun x y => x.2.isOlder y.2).countP
        fun y => decide (y.2.IsStaler e)) = entries.values.countP fun f => f.IsStaler e := by
    intro e
    rw [hperm.countP_eq, Table.values, List.countP_map]
    rfl
  have htake := fun x : String × CacheEntry α =>
    mem_take_iff_countP_lt (r := fun x y : String × CacheEntry α => x.2.IsStaler y.2)
      (fun x y => CacheEntry.IsStaler.asymm) (sorted_isStaler hapart) (entries.size / 4 + 1)
      (x := x)
  simp only [hcount, List.mem_mergeSort] at htake
  unfold victims
  dsimp only
  rw [List.mem_map]
  constructor
  · rintro ⟨x, hx, rfl⟩
    obtain ⟨hmem, hfew⟩ := (htake x).mp hx
    exact ⟨x.2, Table.mem_entries_iff.mp hmem, hfew⟩
  · rintro ⟨e, he, hfew⟩
    exact ⟨(name, e), (htake (name, e)).mpr ⟨Table.mem_entries_iff.mpr he, hfew⟩, rfl⟩

theorem Numbered.pairwise_purged (h : c.Numbered) (now : Int) :
    (purged c.entries now).entries.Pairwise fun x y => x.2.serial ≠ y.2.serial := by
  have hall : c.entries.entries.Pairwise fun x y => x.2.serial ≠ y.2.serial := by
    refine c.entries.nodup_entries.pairwise_of_forall_ne ?_
    intro x hx y hy hne heq
    have hx' : c.entries.get? x.1 = some x.2 := Table.mem_entries_iff.mp hx
    have hy' : c.entries.get? y.1 = some y.2 := Table.mem_entries_iff.mp hy
    have hname := h.apart x.1 y.1 x.2 y.2 hx' hy' heq
    rw [hname, hy'] at hx'
    exact hne (Prod.ext hname (Option.some.inj hx').symm)
  exact hall.sublist List.filter_sublist

/-- An entry that has not expired is crowded out if fewer than the surplus are staler. -/
theorem mem_crowd (h : c.Numbered) {e : CacheEntry α}
    (hentry : c.entries.get? name = some e) (hlive : e.isExpired now = false) :
    name ∈ c.crowd now ↔ c.stalerThan now e < c.surplus now := by
  have hpurged : (purged c.entries now).get? name = some e := by
    rw [purged, Table.get?_filter, hentry]
    simp [hlive]
  unfold crowd surplus stalerThan
  rw [size_purged]
  split
  · rw [mem_victims (h.pairwise_purged now), values_purged, size_purged, hpurged]
    simp
  · simp

/-- A sweep leaves what it does not take, as it is. -/
theorem get?_sweep_iff (h : c.Numbered) {e : CacheEntry α} :
    (c.sweep now).entries.get? name = some e ↔
      c.entries.get? name = some e ∧ ¬ c.Takes now e := by
  rw [get?_sweep, Option.filter_eq_some_iff]
  refine and_congr_right fun hentry => ?_
  rw [Bool.and_eq_true, Bool.not_eq_true', Bool.not_eq_true', Takes, not_or, Bool.not_eq_true]
  refine and_congr_right fun hlive => ?_
  rw [← mem_crowd h hentry hlive, Bool.eq_false_iff, Ne, List.contains_iff_mem]

/-- As many are crowded out as there is surplus, since a quarter and one more are never more than
there are. -/
theorem length_crowd (hpositive : 0 < c.capacity) (now : Int) :
    (c.crowd now).length = c.surplus now := by
  unfold crowd surplus
  rw [size_purged]
  split
  · rw [length_victims, size_purged]
    omega
  · rfl

/-- Who is left has used its entry after whom the sweep has taken before expiry. -/
theorem isStaler_of_takes (h : c.Numbered) {other : String} {e f : CacheEntry α}
    (he : c.entries.get? name = some e) (hf : c.entries.get? other = some f)
    (hkept : ¬ c.Takes now e) (hlive : f.isExpired now = false) (htaken : c.Takes now f) :
    f.IsStaler e := by
  have hfew : c.stalerThan now f < c.surplus now := htaken.resolve_left (by simp [hlive])
  have hmany : ¬ c.stalerThan now e < c.surplus now := fun hlt => hkept (Or.inr hlt)
  have hne : f.serial ≠ e.serial := by
    intro heq
    obtain rfl := h.apart other name f e hf he heq
    rw [hf] at he
    cases he
    exact hkept htaken
  rcases CacheEntry.isStaler_or_isStaler hne with hstaler | hstaler
  · exact hstaler
  · -- Whatever is staler than the one left is then staler than the one taken.
    have hle : c.stalerThan now e ≤ c.stalerThan now f := by
      refine List.countP_mono_left fun g _ hg => ?_
      rw [decide_eq_true_iff] at hg ⊢
      exact hg.trans hstaler
    omega

theorem get?_setFor_self (c : Cache α) (now : Int) (name : String) (value : α) (lifetime : Int) :
    (c.setFor now name value lifetime).entries.get? name =
      some { value, createdAt := now, lastAccessed := now, lifetime
             serial := (c.makeRoom now name).serial + 1 } := by
  rw [setFor_eq]
  exact (Table.get?_insert _ _ _ _).trans (if_pos rfl)

theorem get?_setFor_of_ne (c : Cache α) (now : Int) {other : String} (hother : other ≠ name)
    (value : α) (lifetime : Int) :
    (c.setFor now name value lifetime).entries.get? other =
      (c.makeRoom now name).entries.get? other := by
  rw [setFor_eq]
  dsimp only
  rw [Table.get?_insert, if_neg (Ne.symm hother)]

/-- A write is one of the two operations that enter something. -/
theorem Moment.next_of_writes {m : Moment α} {r : Record α} (h : m.Writes name r) :
    m.next.cache = m.cache.setFor m.now name r.value r.lifetime ∧ r.writtenAt = m.now := by
  obtain ⟨⟨c, now⟩, x⟩ := m
  cases x with
  | set key value =>
    cases h
    exact ⟨rfl, rfl⟩
  | setFor key value lifetime =>
    cases h
    exact ⟨rfl, rfl⟩
  | get key => cases h
  | erase key => cases h
  | clear => cases h
  | move distance => cases h

/-- After any operations on an empty cache, whose clock may move in both directions, let a record be
written. It is there afterwards. If its name was there before, or there is room, nothing else
changes. If not, what has expired is taken and, when the others still leave no room, a quarter of
these and one more are taken too, those that were used longest ago and of these that were entered
first; everything else stays as it is. -/
theorem write_takes_stalest (capacity lifetime start : Int) (operations : List (Operation α))
    (x : Operation α) {name : String} {r : Record α}
    (hwrites : Moment.Writes ⟨(Timed.fresh capacity lifetime start).run operations, x⟩ name r) :
    let t := (Timed.fresh capacity lifetime start).run operations
    let after := (t.after x).cache
    (∃ e, after.entries.get? name = some e ∧ e.record = r ∧ e.lastAccessed = t.now) ∧
    (name ∈ t.cache.entries.names ∨ t.cache.size < t.cache.capacity →
      ∀ other, other ≠ name → after.entries.get? other = t.cache.entries.get? other) ∧
    (name ∉ t.cache.entries.names → t.cache.capacity ≤ t.cache.size →
      (∀ other, other ≠ name → ∀ e, after.entries.get? other = some e ↔
        t.cache.entries.get? other = some e ∧ ¬ t.cache.Takes t.now e) ∧
      after.size + (t.cache.expired t.now).length + t.cache.surplus t.now = t.cache.size + 1 ∧
      ∀ other third e f, t.cache.entries.get? other = some e →
        t.cache.entries.get? third = some f → ¬ t.cache.Takes t.now e →
        f.isExpired t.now = false → t.cache.Takes t.now f → f.IsStaler e) := by
  intro t after
  have htidy : t.cache.Tidy := Timed.fresh_run_tidy capacity lifetime start operations
  have hnumbered : t.cache.Numbered :=
    Timed.fresh_run_numbered capacity lifetime start operations
  obtain ⟨hafter, hsince⟩ := Moment.next_of_writes hwrites
  change after = t.cache.setFor t.now name r.value r.lifetime at hafter
  change r.writtenAt = t.now at hsince
  refine ⟨?_, ?_, ?_⟩
  · have hentry := get?_setFor_self t.cache t.now name r.value r.lifetime
    rw [← hafter] at hentry
    refine ⟨_, hentry, ?_, rfl⟩
    rw [CacheEntry.record, ← hsince]
  · intro hroom other hother
    have hunswept : t.cache.makeRoom t.now name = t.cache := by
      refine if_neg fun hneeds => ?_
      obtain ⟨hnew, hfull⟩ := needsRoom_iff.mp hneeds
      rcases hroom with hname | hroom
      · exact hnew hname
      · omega
    rw [hafter, get?_setFor_of_ne t.cache t.now hother, hunswept]
  · intro hnew hfull
    have hneeds : t.cache.needsRoom name = true := needsRoom_iff.mpr ⟨hnew, hfull⟩
    have hswept : t.cache.makeRoom t.now name = t.cache.sweep t.now := if_pos hneeds
    refine ⟨?_, ?_, ?_⟩
    · intro other hother e
      rw [hafter, get?_setFor_of_ne t.cache t.now hother, hswept]
      exact get?_sweep_iff hnumbered
    · have hsize := sweep_size t.cache t.now
      have hone : after.size = (t.cache.sweep t.now).size + 1 := by
        rw [hafter, setFor_eq, hswept]
        exact Table.size_insert_of_notMem (hswept ▸ notMem_makeRoom t.now hnew) _
      rw [length_crowd htidy.positive] at hsize
      omega
    · intro other third e f he hf hkept hlive htaken
      exact isStaler_of_takes hnumbered he hf hkept hlive htaken

/-- The clock goes back behind the first two entries and on again. -/
def turning : List (Operation Nat) :=
  [.set "first" 1, .set "second" 2, .move (-5), .set "third" 3, .move 10, .set "fourth" 4]

/-- The third entry is the stalest, and of the first two, which were used at one time, the one
entered first. -/
theorem write_takes_stalest_turning :
    let t := (Timed.fresh 4 0 10).run turning
    let after := (t.after (.set "fifth" 5)).cache
    Moment.Writes ⟨t, .set "fifth" 5⟩ "fifth" ⟨5, 0, 15⟩ ∧
      "fifth" ∉ t.cache.entries.names ∧ t.cache.capacity ≤ t.cache.size ∧ after.size = 3 ∧
      after.entries.get? "third" = none ∧ after.entries.get? "first" = none ∧
      after.entries.get? "second" = t.cache.entries.get? "second" ∧
      ∃ e, after.entries.get? "fifth" = some e ∧ e.record = ⟨5, 0, 15⟩ := by
  intro t after
  have hwrites : Moment.Writes ⟨t, .set "fifth" 5⟩ "fifth" ⟨5, 0, 15⟩ := rfl
  have hnew : "fifth" ∉ t.cache.entries.names := by decide
  have hfull : t.cache.capacity ≤ t.cache.size := by decide
  obtain ⟨⟨e, hentry, hrecord, -⟩, -, hswept⟩ :=
    write_takes_stalest 4 0 10 turning (.set "fifth" 5) hwrites
  obtain ⟨hkept, hsize, -⟩ := hswept hnew hfull
  have hgone : ∀ name f, name ≠ "fifth" → t.cache.entries.get? name = some f →
      t.cache.Takes t.now f → after.entries.get? name = none := by
    intro name f hname hf htaken
    refine Option.eq_none_iff_forall_ne_some.mpr fun g hg => ?_
    obtain ⟨hthere, hleft⟩ := (hkept name hname g).mp hg
    exact hleft (Option.some.inj (hf.symm.trans hthere) ▸ htaken)
  have hthird := hgone "third" ⟨3, 5, 5, 0, 0, 3⟩ (by decide) rfl (by decide)
  have hfirst := hgone "first" ⟨1, 10, 10, 0, 0, 1⟩ (by decide) rfl (by decide)
  have hsecond := (hkept "second" (by decide) ⟨2, 10, 10, 0, 0, 2⟩).mpr ⟨rfl, by decide⟩
  have htaken : (t.cache.expired t.now).length = 0 ∧ t.cache.surplus t.now = 2 ∧
      t.cache.size = 4 := by decide
  refine ⟨hwrites, hnew, hfull, ?_, hthird, hfirst, hsecond, e, hentry, hrecord⟩
  change after.size + (t.cache.expired t.now).length + t.cache.surplus t.now =
    t.cache.size + 1 at hsize
  omega

end Cache

end Synthesis
