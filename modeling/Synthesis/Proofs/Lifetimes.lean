import Synthesis.Proofs.Freshness
import Synthesis.Settings.Check

/-!
Configured lifetimes. Settings give each of the three caches a lifetime in seconds. On its way to an
entry it is counted in nanoseconds, which wraps around outside the signed sixty-four bit range, and
two of the caches take a zero for "not given" and put their own lifetime in its place. So a cache
keeps its entries for the time that the settings say exactly when that time is inside the range and,
for these two caches, is not zero.
-/
namespace Synthesis

namespace Cache

variable {α : Type}

/-- Nothing is written under the name, and the record under it does not end. -/
def Undisturbed (moments : List (Moment α)) (name : String) (r : Record α) : Prop :=
  ∀ x ∈ moments, (∀ r', ¬ x.Writes name r') ∧ ¬ x.Ends name r

/-- What is stored in the cache and stays undisturbed is found up to so many seconds later; if the
seconds are zero it is always found. -/
def KeepsFor (c : Cache α) (seconds : Int) : Prop :=
  ∀ (start : Int) (before since : List (Operation α)) (name : String) (value : α),
    let stored := (⟨c, start⟩ : Timed α).run before
    let later := (stored.after (.set name value)).run since
    Undisturbed ((stored.after (.set name value)).moments since) name
        ⟨value, c.lifetime, stored.now⟩ →
      ((later.cache.get later.now name).1 = some value ↔
        seconds = 0 ∨ later.now - stored.now ≤ seconds * second)

theorem Undisturbed.run_record? {name : String} {r : Record α} {operations : List (Operation α)}
    {t : Timed α} (hkept : Undisturbed (t.moments operations) name r)
    (hrecord : t.cache.record? name = some r) : (t.run operations).cache.record? name = some r := by
  induction operations generalizing t with
  | nil => exact hrecord
  | cons x rest ih =>
    obtain ⟨hfirst, hrest⟩ := List.forall_mem_cons.mp hkept
    refine ih hrest ?_
    exact (Moment.next_record? ⟨t, x⟩ name r).mpr (Or.inr ⟨hfirst.1, hrecord, hfirst.2⟩)

/-- What is stored and stays undisturbed is found as long as it is fresh. -/
theorem Undisturbed.served_iff {t : Timed α} {name : String} {value : α}
    {since : List (Operation α)}
    (hkept : Undisturbed ((t.after (.set name value)).moments since) name
      ⟨value, t.cache.lifetime, t.now⟩) :
    let later := (t.after (.set name value)).run since
    (later.cache.get later.now name).1 = some value ↔
      (⟨value, t.cache.lifetime, t.now⟩ : Record α).IsFresh later.now := by
  intro later
  have hwritten : (t.after (.set name value)).cache.record? name =
      some ⟨value, t.cache.lifetime, t.now⟩ :=
    (Moment.next_record? ⟨t, .set name value⟩ name _).mpr (Or.inl rfl)
  have hstays : later.cache.record? name = some ⟨value, t.cache.lifetime, t.now⟩ :=
    hkept.run_record? hwritten
  rw [get_eq_some_iff]
  simp [hstays]

/-- Entries with the lifetime are fresh for so many seconds. -/
def Lasts (lifetime seconds : Int) : Prop :=
  ∀ age : Int, (lifetime ≤ 0 ∨ Decimal.clamp64 age ≤ lifetime) ↔
    (seconds = 0 ∨ age ≤ seconds * second)

theorem keepsFor_iff_lasts (capacity lifetime seconds : Int) (value : α) :
    (new capacity lifetime : Cache α).KeepsFor seconds ↔ Lasts lifetime seconds := by
  constructor
  · intro hkeeps age
    have hkept : Undisturbed (((Timed.fresh capacity lifetime 0).after (.set "" value)).moments
        [.move age]) "" ⟨value, lifetime, 0⟩ := by
      simp [Undisturbed, Timed.moments, Moment.Writes, Moment.Ends, Moment.writing?, Moment.sweeps]
    have hfresh := hkept.served_iff
    have hfound := hkeeps 0 [] [.move age] "" value hkept
    have hnow : (0 : Int) + age - 0 = age := by omega
    rw [← hnow]
    exact hfresh.symm.trans hfound
  · intro hlasts start before since name value stored later hkept
    have hlifetime : stored.cache.lifetime = lifetime :=
      congrArg Prod.snd (Timed.run_terms ⟨new capacity lifetime, start⟩ before)
    have hfresh := Undisturbed.served_iff (hlifetime.symm ▸ hkept)
    rw [hlifetime] at hfresh
    exact hfresh.trans (hlasts (later.now - stored.now))

theorem lasts_iff {lifetime seconds : Int} (hseconds : 0 ≤ seconds)
    (hlifetime : lifetime < Decimal.maxInt64) :
    Lasts lifetime seconds ↔
      (seconds = 0 ∧ lifetime ≤ 0) ∨ (0 < seconds ∧ lifetime = seconds * second) := by
  unfold Lasts Decimal.clamp64 second
  unfold Decimal.maxInt64 Decimal.minInt64 at *
  constructor
  · intro hlasts
    have hend := hlasts (seconds * 1000000000)
    have hpast := hlasts (seconds * 1000000000 + 1)
    have hlast := hlasts 9223372036854775807
    omega
  · intro hcases age
    omega

end Cache

namespace Settings

open Synthesis.Cache

theorem seconds_lt_max (n : Int) : seconds n < Decimal.maxInt64 := by
  unfold seconds Decimal.wrap64 second Decimal.maxInt64
  rw [Int.bmod_def]
  omega

theorem seconds_eq_iff {n : Int} (hn : 0 ≤ n) :
    seconds n = n * second ↔ n * second ≤ Decimal.maxInt64 := by
  unfold seconds
  rw [Decimal.wrap64_eq_self_iff]
  unfold second Decimal.minInt64
  omega

theorem lasts_seconds {n : Int} (hn : 0 ≤ n) :
    Lasts (seconds n) n ↔ n * second ≤ Decimal.maxInt64 := by
  rw [lasts_iff hn (seconds_lt_max n), seconds_eq_iff hn]
  constructor
  · rintro (⟨rfl, -⟩ | ⟨-, hfits⟩)
    · decide
    · exact hfits
  · intro hfits
    rcases Int.le_iff_eq_or_lt.mp hn with rfl | hpositive
    · exact Or.inl ⟨rfl, by decide⟩
    · exact Or.inr ⟨hpositive, hfits⟩

/-- With a lifetime in place of zero, zero seconds do not last for ever. -/
theorem lasts_lifetimeOr {default n : Int} (hdefault : 0 < default)
    (hless : default < Decimal.maxInt64) (hn : 0 ≤ n) :
    Lasts (lifetimeOr default (seconds n)) n ↔ 0 < n ∧ n * second ≤ Decimal.maxInt64 := by
  have hmax := seconds_lt_max n
  have hfits := seconds_eq_iff hn
  have hzero : n = 0 → seconds n = 0 := by
    rintro rfl
    rfl
  unfold lifetimeOr
  split
  · rw [lasts_iff hn hless]
    unfold second at *
    omega
  · rw [lasts_iff hn hmax]
    omega

/-- With settings that are in order, each cache keeps its entries for the seconds that are set, and
for ever if these are zero, exactly when the seconds fit into the signed sixty-four bit range as
nanoseconds and, other than for solutions, are not zero. -/
theorem lifetimes_kept_iff {s : Settings} (h : s.error? = none) :
    (s.newSolutions.KeepsFor s.cache.solutionTtlSeconds ↔
        s.cache.solutionTtlSeconds * second ≤ Decimal.maxInt64) ∧
      (s.newStrategies.KeepsFor s.cache.strategyTtlSeconds ↔
        0 < s.cache.strategyTtlSeconds ∧
          s.cache.strategyTtlSeconds * second ≤ Decimal.maxInt64) ∧
      (s.newExecutions.KeepsFor s.cache.executionTtlSeconds ↔
        0 < s.cache.executionTtlSeconds ∧
          s.cache.executionTtlSeconds * second ≤ Decimal.maxInt64) := by
  have hsolutions : 0 ≤ s.cache.solutionTtlSeconds :=
    least_le_cacheField h (List.mem_of_getElem? (i := 1) rfl)
  have hstrategies : 0 ≤ s.cache.strategyTtlSeconds :=
    least_le_cacheField h (List.mem_of_getElem? (i := 3) rfl)
  have hexecutions : 0 ≤ s.cache.executionTtlSeconds :=
    least_le_cacheField h (List.mem_of_getElem? (i := 5) rfl)
  refine ⟨?_, ?_, ?_⟩
  · exact (keepsFor_iff_lasts _ _ _ {}).trans (lasts_seconds hsolutions)
  · exact (keepsFor_iff_lasts _ _ _ "").trans (lasts_lifetimeOr (by decide) (by decide) hstrategies)
  · exact (keepsFor_iff_lasts _ _ _ true).trans
      (lasts_lifetimeOr (by decide) (by decide) hexecutions)

/-- Solutions that never expire, choices that last a minute, and test results that should never
expire but do. -/
theorem lifetimes_kept_minute :
    let s : Settings := { cache := { strategyTtlSeconds := 60, executionTtlSeconds := 0 } }
    s.error? = none ∧ s.newSolutions.KeepsFor 0 ∧ s.newStrategies.KeepsFor 60 ∧
      ¬ s.newExecutions.KeepsFor 0 := by
  intro s
  have hvalid : s.error? = none := by decide +kernel
  obtain ⟨hsolutions, hstrategies, hexecutions⟩ := lifetimes_kept_iff hvalid
  exact ⟨hvalid, hsolutions.mpr (by decide), hstrategies.mpr (by decide),
    fun hkeeps => absurd (hexecutions.mp hkeeps).1 (by decide)⟩

/-- A choice that should never expire is gone after ten minutes, and a solution that should last for
more than five hundred years is gone after a second. -/
theorem unlimited_choice_expires :
    let s : Settings := { cache := { strategyTtlSeconds := 0, solutionTtlSeconds := 18446744074 } }
    s.error? = none ∧
      ((s.newStrategies.set 0 "sum" "atomic").get (601 * second) "sum").1 = none ∧
      ¬ s.newStrategies.KeepsFor s.cache.strategyTtlSeconds ∧
      ((s.newSolutions.set 0 "sum" {}).get second "sum").1 = none ∧
      ¬ s.newSolutions.KeepsFor s.cache.solutionTtlSeconds := by
  intro s
  refine ⟨by decide +kernel, rfl, fun hkeeps => ?_, rfl, fun hkeeps => ?_⟩
  · have hlasts := (keepsFor_iff_lasts _ _ _ "").mp hkeeps (601 * second)
    revert hlasts
    decide
  · have hlasts := (keepsFor_iff_lasts _ _ _ {}).mp hkeeps second
    revert hlasts
    decide

end Settings

end Synthesis
