import Synthesis.Experience.Snapshot
import Synthesis.Proofs.JsonText
import Mathlib.Data.List.Basic

/-!
Times read back from their text. The calendar's two directions agree: a day number gives a date
that exists, and the date gives the day number. An era of four hundred years is divided into
centuries, cycles of four years and years, all counted from March, so that an added day always
comes last. The internet form of a time keeps the clock and the whole minutes of the offset: a time
whose offset has no seconds is what its form is read as, and any other comes back as an instant up
to a minute away.
-/
namespace Synthesis

namespace Calendar

/-- A day of an era, counted from March, by its century, cycle of four years, year and day. -/
structure Within (d c q k r : Int) : Prop where
  sum : d = 36524 * c + 1461 * q + 365 * k + r
  century : 0 ≤ c ∧ c ≤ 3
  cycle : 0 ≤ q ∧ q ≤ 24
  year : 0 ≤ k ∧ k ≤ 3
  day : 0 ≤ r ∧ r ≤ 365
  leap : r = 365 → k = 3 ∧ (q < 24 ∨ c = 3)

theorem exists_within {d : Int} (h0 : 0 ≤ d) (h1 : d < 146097) : ∃ c q k r, Within d c q k r := by
  obtain ⟨c, a, hd, hc, ha, hlast⟩ : ∃ c a : Int, d = 36524 * c + a ∧ (0 ≤ c ∧ c ≤ 3) ∧
      (0 ≤ a ∧ a ≤ 36524) ∧ (a = 36524 → c = 3) := by
    by_cases h : d = 146096
    · exact ⟨3, 36524, by omega, by omega, by omega, by omega⟩
    · exact ⟨d / 36524, d % 36524, by omega, by omega, by omega, by omega⟩
  obtain ⟨q, b, ha, hq, hb, hlong⟩ : ∃ q b : Int, a = 1461 * q + b ∧ (0 ≤ q ∧ q ≤ 24) ∧
      (0 ≤ b ∧ b ≤ 1460) ∧ (b = 1460 → q < 24 ∨ c = 3) :=
    ⟨a / 1461, a % 1461, by omega, by omega, by omega, by omega⟩
  obtain ⟨k, r, hb, hk, hr, hday⟩ : ∃ k r : Int, b = 365 * k + r ∧ (0 ≤ k ∧ k ≤ 3) ∧
      (0 ≤ r ∧ r ≤ 365) ∧ (r = 365 → k = 3) := by
    by_cases h : b = 1460
    · exact ⟨3, 365, by omega, by omega, by omega, by omega⟩
    · exact ⟨b / 365, b % 365, by omega, by omega, by omega, by omega⟩
  exact ⟨c, q, k, r, ⟨by omega, hc, hq, hk, hr, fun h => ⟨hday h, hlong (by omega)⟩⟩⟩

theorem Within.yearOfEra {d c q k r : Int} (h : Within d c q k r) :
    (d - d / 1460 + d / 36524 - d / 146096) / 365 = 100 * c + 4 * q + k := by
  obtain ⟨hsum, hc, hq, hk, hr, hleap⟩ := h
  have hcentury : d / 36524 - d / 146096 = c := by
    have hrest : 1461 * q + 365 * k + r ≤ 36523 ∨ c = 3 ∧ d = 146096 := by omega
    rcases hrest with hrest | ⟨hc, hd⟩
    · have hera : d / 146096 = 0 := by omega
      omega
    · omega
  obtain ⟨e, hcycle, he⟩ : ∃ e, d / 1460 = 25 * c + q + e ∧ (e = 0 ∧ r ≤ 364 ∨ e = 1 ∧ 1 ≤ r) :=
    ⟨d / 1460 - (25 * c + q), by omega, by omega⟩
  omega

/-- A day by its era of four hundred years and, counted from March, its year of the era, its day
of the year and its month. -/
structure Placed (n era y t m : Int) : Prop where
  year : 0 ≤ y ∧ y ≤ 399
  day : 0 ≤ t ∧ t ≤ 365
  sum : n + 719468 = 146097 * era + (365 * y + y / 4 - y / 100) + t
  leap : t = 365 → (y + 1) % 4 = 0 ∧ ((y + 1) % 100 ≠ 0 ∨ (y + 1) % 400 = 0)
  month : m = (5 * t + 2) / 153

theorem Within.placed {n era d c q k r : Int} (h : Within d c q k r)
    (hn : n + 719468 = 146097 * era + d) :
    Placed n era (100 * c + 4 * q + k) r ((5 * r + 2) / 153) := by
  obtain ⟨hsum, hc, hq, hk, hr, hleap⟩ := h
  have hquarter : (100 * c + 4 * q + k) / 4 = 25 * c + q := by omega
  have hcentury : (100 * c + 4 * q + k) / 100 = c := by omega
  refine ⟨by omega, hr, ?_, ?_, rfl⟩
  · rw [hquarter, hcentury]
    omega
  · intro h
    obtain ⟨rfl, hq⟩ := hleap h
    omega

/-- The date of a placed day: January and February belong to the year after the March before. -/
def placedDate (era y t m : Int) : Date :=
  ⟨if m < 10 then y + era * 400 else y + era * 400 + 1, (if m < 10 then m + 3 else m - 9).toNat,
    (t - (153 * m + 2) / 5 + 1).toNat⟩

theorem exists_placed (n : Int) :
    ∃ era y t m, Placed n era y t m ∧ dateOfDay n = placedDate era y t m := by
  obtain ⟨era, d, hn, hera, h0, h1⟩ : ∃ era d : Int, n + 719468 = 146097 * era + d ∧
      (n + 719468).fdiv 146097 = era ∧ 0 ≤ d ∧ d < 146097 := by
    refine ⟨(n + 719468) / 146097, (n + 719468) % 146097, by omega, ?_, by omega, by omega⟩
    exact Int.fdiv_eq_ediv_of_nonneg _ (by decide)
  have hd : n + 719468 - era * 146097 = d := by omega
  obtain ⟨c, q, k, r, hwithin⟩ := exists_within h0 h1
  have hplaced := hwithin.placed hn
  have hday : d - (365 * (100 * c + 4 * q + k) + (100 * c + 4 * q + k) / 4
      - (100 * c + 4 * q + k) / 100) = r := by
    have hsum := hplaced.sum
    omega
  refine ⟨era, 100 * c + 4 * q + k, r, (5 * r + 2) / 153, hplaced, ?_⟩
  simp only [dateOfDay, hera, hd, hwithin.yearOfEra, hday, placedDate]
  have hr := hplaced.day
  by_cases hm : (5 * r + 2) / 153 < 10
  · have hmonth : ¬ (5 * r + 2) / 153 + 3 ≤ 2 := by omega
    simp only [hm, hmonth, if_true, if_false]
  · have hmonth : (5 * r + 2) / 153 - 9 ≤ 2 := by omega
    simp only [hm, hmonth, if_true, if_false]

theorem Placed.dayNumber {n era y t m : Int} (h : Placed n era y t m) :
    dayNumber (placedDate era y t m) = n := by
  obtain ⟨hyear, hday, hsum, -, hmonth⟩ := h
  have hm : 0 ≤ m ∧ m ≤ 11 := by omega
  have hera : (y + era * 400).fdiv 400 = era := by
    rw [Int.fdiv_eq_ediv_of_nonneg _ (by decide)]
    omega
  have hy : y + era * 400 - era * 400 = y := by omega
  have ht : (153 * m + 2) / 5 + ((t - (153 * m + 2) / 5 + 1).toNat : Int) - 1 = t := by omega
  have hn : era * 146097 + (y * 365 + y / 4 - y / 100 + t) - 719468 = n := by omega
  by_cases hlate : m < 10
  · have hafter : ¬ (m + 3).toNat ≤ 2 := by omega
    have hback : (((m + 3).toNat : Int) + 9) % 12 = m := by omega
    simp only [Calendar.dayNumber, placedDate, hlate, if_true, hafter, if_false, hera, hy, hback,
      ht, hn]
  · have hafter : (m - 9).toNat ≤ 2 := by omega
    have hback : (((m - 9).toNat : Int) + 9) % 12 = m := by omega
    simp only [Calendar.dayNumber, placedDate, hlate, if_true, hafter, if_false, hera, hy, hback,
      ht, hn, Int.add_sub_cancel]

theorem dayNumber_dateOfDay (n : Int) : dayNumber (dateOfDay n) = n := by
  obtain ⟨era, y, t, m, hplaced, hdate⟩ := exists_placed n
  rw [hdate, hplaced.dayNumber]

/-- The month of a placed day is one of the twelve, and the day is one of that month's. -/
theorem Placed.valid {n era y t m : Int} (h : Placed n era y t m) :
    (1 ≤ (placedDate era y t m).month ∧ (placedDate era y t m).month ≤ 12) ∧
      1 ≤ (placedDate era y t m).day ∧
      (placedDate era y t m).day
        ≤ daysInMonth (placedDate era y t m).year (placedDate era y t m).month := by
  obtain ⟨hyear, hday, -, hleap, hmonth⟩ := h
  by_cases hlast : m = 11
  · -- February, the last month, has its twenty-ninth day in a leap year only.
    have hleap : t = 365 → isLeap (y + era * 400 + 1) = true := by
      intro ht
      obtain ⟨hfour, hhundred⟩ := hleap ht
      simp only [isLeap, Bool.and_eq_true, Bool.or_eq_true, beq_iff_eq, bne_iff_ne]
      omega
    subst hlast
    by_cases ht : t = 365
    · simp [placedDate, daysInMonth, hleap ht]
      omega
    · simp [placedDate, daysInMonth]
      split <;> omega
  · have hm : m = 0 ∨ m = 1 ∨ m = 2 ∨ m = 3 ∨ m = 4 ∨ m = 5 ∨ m = 6 ∨ m = 7 ∨ m = 8 ∨ m = 9 ∨
        m = 10 := by omega
    rcases hm with rfl | rfl | rfl | rfl | rfl | rfl | rfl | rfl | rfl | rfl | rfl
    all_goals
      simp [placedDate, daysInMonth]
      omega

/-- Every day has a date that exists. -/
theorem dateOfDay_valid (n : Int) :
    (1 ≤ (dateOfDay n).month ∧ (dateOfDay n).month ≤ 12) ∧ 1 ≤ (dateOfDay n).day ∧
      (dateOfDay n).day ≤ daysInMonth (dateOfDay n).year (dateOfDay n).month := by
  obtain ⟨era, y, t, m, hplaced, hdate⟩ := exists_placed n
  rw [hdate]
  exact hplaced.valid

/-- The days of the first eras after the year zero have a year of four digits. -/
theorem year_dateOfDay {n : Int} (h0 : -700000 ≤ n) (h1 : n ≤ 2000000) :
    0 ≤ (dateOfDay n).year ∧ (dateOfDay n).year ≤ 9999 := by
  obtain ⟨era, y, t, m, ⟨hyear, hday, hsum, -, -⟩, hdate⟩ := exists_placed n
  have hera : 0 ≤ era ∧ era ≤ 18 := by omega
  rw [hdate, placedDate]
  dsimp only
  split
  · omega
  · omega

end Calendar

namespace Timestamp

open Calendar Synthesis.Text Synthesis.Decimal Synthesis.Json

theorem literal?_cons (c : Char) (rest : List Char) : literal? c (c :: rest) = some rest :=
  if_pos rfl

theorem shortNumber?_zeroPad {n : Nat} (h : n < 10 ^ 2) (rest : List Char) :
    shortNumber? (zeroPad 2 n ++ rest) = some (n, rest) := by
  obtain ⟨a, b, hab⟩ := List.length_eq_two.mp (length_zeroPad (by decide) h)
  have hvalue := natOfDigits_zeroPad 2 n
  have hdigit : ∀ c ∈ [a, b], isAsciiDigit c = true := fun c hc =>
    isAsciiDigit_of_mem_zeroPad (hab ▸ hc)
  rw [hab] at hvalue ⊢
  simp only [List.cons_append, List.nil_append, shortNumber?, hdigit a (by simp),
    hdigit b (by simp), if_true, hvalue]

theorem date?_text {y m d : Nat} (hy : y < 10 ^ 4) (hm : 1 ≤ m ∧ m ≤ 12) (hd : 1 ≤ d)
    (hday : d ≤ daysInMonth y m) (rest : List Char) :
    date? false (zeroPad 4 y ++ '-' :: (zeroPad 2 m ++ '-' :: (zeroPad 2 d ++ rest)))
      = some (⟨y, m, d⟩, rest) := by
  have hlong : daysInMonth y m ≤ 31 := by
    unfold daysInMonth
    split
    · split <;> omega
    · split <;> omega
  have hvalid : ¬ (m = 0 ∨ 12 < m ∨ d = 0 ∨ daysInMonth y m < d) := by omega
  have hyear := fixedNumber?_zeroPad 4 (by decide) hy
  have hmonth := fixedNumber?_zeroPad 2 (n := m) (by decide) (by omega)
  have hread := fixedNumber?_zeroPad 2 (n := d) (by decide) (by omega)
  simp [date?, number?, hyear, hmonth, hread, literal?_cons, hvalid]

theorem clock?_text {h m s nanos : Nat} (hh : h < 24) (hm : m < 60) (hs : s < 60)
    {cs rest : List Char} (hfraction : fraction? cs = (nanos, rest)) :
    clock? false (zeroPad 2 h ++ ':' :: (zeroPad 2 m ++ ':' :: (zeroPad 2 s ++ cs)))
      = some ((h * 3600 + m * 60 + s, nanos), rest) := by
  have hvalid : ¬ (24 ≤ h ∨ 60 ≤ m ∨ 60 ≤ s) := by omega
  have hhour := shortNumber?_zeroPad (n := h) (by omega)
  have hminute := fixedNumber?_zeroPad 2 (n := m) (by decide) (by omega)
  have hsecond := fixedNumber?_zeroPad 2 (n := s) (by decide) (by omega)
  simp [clock?, number?, hhour, hminute, hsecond, literal?_cons, hvalid, hfraction]

/-- What follows the clock: the mark of a zone. -/
def Zoned (cs : List Char) : Prop := ∃ c rest, cs = c :: rest ∧ (c = 'Z' ∨ c = '+' ∨ c = '-')

theorem fraction?_text {nanos : Nat} (h : nanos < 10 ^ 9) {rest : List Char} (hrest : Zoned rest) :
    fraction? ((fractionText nanos).toList ++ rest) = (nanos, rest) := by
  obtain ⟨c, r, rfl, hc⟩ := hrest
  have hmark : isAsciiDigit c = false := by
    rcases hc with rfl | rfl | rfl
    all_goals rfl
  by_cases hzero : nanos = 0
  · rw [fractionText, if_pos hzero, hzero]
    have hpoint : ¬ (c = '.' ∨ c = ',') := by
      rcases hc with rfl | rfl | rfl
      all_goals decide
    cases r with
    | nil => rfl
    | cons d r => simp [fraction?, hpoint]
  · -- The zeros that were dropped are put back behind the digits that were kept.
    obtain ⟨zeros, hsplit, hzeros⟩ := exists_dropRightWhile (· == '0') (zeroPad 9 nanos)
    have hlength : (zeroPad 9 nanos).length = 9 := length_zeroPad (by decide) h
    have hvalue := natOfDigits_zeroPad 9 nanos
    have hdigit : ∀ c ∈ zeroPad 9 nanos, isAsciiDigit c = true := fun c hc =>
      isAsciiDigit_of_mem_zeroPad hc
    have hpad : zeros = List.replicate zeros.length '0' :=
      List.eq_replicate_of_mem fun c hc => by simpa using hzeros c hc
    rw [fractionText, if_neg hzero, String.toList_ofList]
    generalize dropRightWhile (· == '0') (zeroPad 9 nanos) = kept at hsplit ⊢
    rw [hsplit] at hlength hvalue hdigit
    rw [List.length_append] at hlength
    have hall : ∀ c ∈ kept, isAsciiDigit c = true := fun c hc =>
      hdigit c (List.mem_append_left zeros hc)
    cases kept with
    | nil =>
      rw [List.nil_append, hpad, natOfDigits_replicate_zero] at hvalue
      exact absurd hvalue.symm hzero
    | cons d ds =>
      have htake : (d :: (ds ++ c :: r)).takeWhile isAsciiDigit = d :: ds := by
        rw [← List.cons_append, List.takeWhile_append_of_pos hall, List.takeWhile_cons, hmark]
        simp
      have hdrop : (d :: (ds ++ c :: r)).dropWhile isAsciiDigit = c :: r := by
        rw [← List.cons_append, List.dropWhile_append_of_pos hall, List.dropWhile_cons, hmark]
        simp
      have hnine : (d :: ds).take 9 = d :: ds := List.take_of_length_le (by omega)
      have hmissing : 9 - (d :: ds).length = zeros.length := by omega
      simp only [List.cons_append, fraction?, hall d List.mem_cons_self, true_or, and_self, if_true,
        htake, hdrop, hnine, hmissing, ← hpad]
      rw [← List.cons_append, hvalue]

theorem offset?_signed {sign : Char} (hsign : sign = '+' ∨ sign = '-') {h m : Nat} (hh : h < 24)
    (hm : m < 60) :
    offset? (sign :: (zeroPad 2 h ++ ':' :: zeroPad 2 m))
      = some (if sign = '-' then -(((h * 60 + m) * 60 : Nat) : Int) else ((h * 60 + m) * 60 : Nat),
        []) := by
  have hhour := fixedNumber?_zeroPad 2 (n := h) (by decide) (by omega)
  have hminute := fixedNumber?_zeroPad 2 (n := m) (by decide) (by omega) []
  have hvalid : ¬ (24 < h ∨ 60 < m) := by omega
  rw [List.append_nil] at hminute
  rcases hsign with rfl | rfl
  all_goals simp [offset?, hhour, hminute, literal?_cons, hvalid]

theorem toList_offsetText {offset : Int} (h : offset ≠ 0) :
    (offsetText offset).toList = (if offset ≤ -60 then '-' else '+') ::
      (zeroPad 2 (offset.natAbs / 60 / 60) ++ ':' :: zeroPad 2 (offset.natAbs / 60 % 60)) := by
  by_cases hneg : offset ≤ -60
  · simp [offsetText, zoneText, h, hneg, two, padded]
  · simp [offsetText, zoneText, h, hneg, two, padded]

/-- The offset without its seconds. -/
def wholeMinutes (offset : Int) : Int :=
  if offset < 0 then -(-offset / 60 * 60) else offset / 60 * 60

theorem wholeMinutes_eq_self_iff {offset : Int} : wholeMinutes offset = offset ↔ 60 ∣ offset := by
  unfold wholeMinutes
  split
  · omega
  · omega

theorem offset?_text {offset : Int} (hday : offset.natAbs < 86400) :
    offset? (offsetText offset).toList = some (wholeMinutes offset, []) := by
  by_cases hzero : offset = 0
  · rw [hzero]
    rfl
  · have hsum : (offset.natAbs / 60 / 60 * 60 + offset.natAbs / 60 % 60) * 60
        = offset.natAbs / 60 * 60 := by omega
    rw [toList_offsetText hzero, wholeMinutes]
    by_cases hneg : offset ≤ -60
    · rw [if_pos hneg, offset?_signed (Or.inr rfl) (by omega) (by omega), hsum, if_pos rfl,
        if_pos (by omega)]
      congr 2
      omega
    · rw [if_neg hneg, offset?_signed (Or.inl rfl) (by omega) (by omega), hsum,
        if_neg (by decide)]
      congr 2
      split
      · omega
      · omega

theorem zoned_offsetText (offset : Int) : Zoned (offsetText offset).toList := by
  by_cases hzero : offset = 0
  · rw [hzero]
    exact ⟨'Z', [], rfl, Or.inl rfl⟩
  · refine ⟨_, _, toList_offsetText hzero, ?_⟩
    split
    · exact Or.inr (Or.inr rfl)
    · exact Or.inr (Or.inl rfl)

section Bare

theorem bare_padded (width n : Nat) : Bare (padded width n) := by
  rw [bare_iff]
  intro c hc
  rw [padded, String.toList_ofList] at hc
  exact isBare_of_isAsciiDigit (isAsciiDigit_of_mem_zeroPad hc)

theorem bare_fractionText (nanos : Nat) : Bare (fractionText nanos) := by
  unfold fractionText
  split
  · decide
  · obtain ⟨zeros, hsplit, -⟩ := exists_dropRightWhile (· == '0') (zeroPad 9 nanos)
    rw [bare_iff]
    intro c hc
    rw [String.toList_ofList, List.mem_cons] at hc
    rcases hc with rfl | hc
    · decide
    · apply bare_iff.mp (bare_padded 9 nanos)
      rw [padded, String.toList_ofList, hsplit]
      exact List.mem_append_left zeros hc

theorem bare_offsetText (offset : Int) : Bare (offsetText offset) := by
  have hsign : ∀ n : Int, Bare (if n ≤ -60 then "-" else "+") := by
    intro n
    split
    · decide
    · decide
  unfold offsetText
  split
  · decide
  · unfold zoneText
    exact (((hsign offset).append (bare_padded 2 _)).append (by decide)).append (bare_padded 2 _)

theorem bare_yearText (y : Int) : Bare (yearText y) := by
  unfold yearText
  split
  · exact Bare.append (by decide) (bare_padded 4 _)
  · exact bare_padded 4 _

theorem bare_render (t : Timestamp) : Bare t.render := by
  have hdate : Bare t.dateText :=
    ((((bare_yearText _).append (by decide)).append (bare_padded 2 _)).append
      (by decide)).append (bare_padded 2 _)
  have hclock : Bare t.clockText :=
    (((((bare_padded 2 _).append (by decide)).append (bare_padded 2 _)).append
      (by decide)).append (bare_padded 2 _)).append (bare_fractionText _)
  exact ((hdate.append (by decide)).append hclock).append (bare_offsetText _)

end Bare

theorem formatError?_eq_none {t : Timestamp} (h : t.formatError? = none) :
    (0 ≤ (dateOfDay (t.localSeconds.fdiv secondsPerDay)).year ∧
      (dateOfDay (t.localSeconds.fdiv secondsPerDay)).year ≤ 9999) ∧ t.offset.natAbs < 86400 := by
  have hday : secondsPerDay = 86400 := rfl
  simp only [formatError?] at h
  split at h
  next => cases h
  next hyear =>
    split at h
    next => cases h
    next hzone => exact ⟨by omega, by omega⟩

/-- An instant between 1970 and the last one that a machine integer of nanoseconds reaches has an
internet form as soon as its offset is below a day. -/
theorem formatError?_eq_none_iff {t : Timestamp} (hnanos : t.nanos < 10 ^ 9)
    (h : 0 ≤ t.unixNanos ∧ t.unixNanos ≤ maxInt64) :
    t.formatError? = none ↔ t.offset.natAbs < 86400 := by
  constructor
  · intro hformat
    exact (formatError?_eq_none hformat).2
  · intro hzone
    have hday : secondsPerDay = 86400 := rfl
    have hrange : maxInt64 = 9223372036854775807 := rfl
    have hyear : 0 ≤ (dateOfDay (t.localSeconds.fdiv secondsPerDay)).year ∧
        (dateOfDay (t.localSeconds.fdiv secondsPerDay)).year ≤ 9999 := by
      rw [unixNanos, unixSeconds] at h
      rw [Int.fdiv_eq_ediv_of_nonneg _ (by decide), hday]
      apply year_dateOfDay
      · omega
      · omega
    simp only [formatError?]
    rw [if_neg (by omega), if_neg (by omega)]

/-- The date part is read back as the date of the local day. -/
theorem date?_dateText {t : Timestamp}
    (h : 0 ≤ (dateOfDay (t.localSeconds.fdiv secondsPerDay)).year ∧
      (dateOfDay (t.localSeconds.fdiv secondsPerDay)).year ≤ 9999) (rest : List Char) :
    date? false (t.dateText.toList ++ rest)
      = some (dateOfDay (t.localSeconds.fdiv secondsPerDay), rest) := by
  obtain ⟨hmonth, hfirst, hlast⟩ := dateOfDay_valid (t.localSeconds.fdiv secondsPerDay)
  unfold dateText
  generalize dateOfDay (t.localSeconds.fdiv secondsPerDay) = d at *
  obtain ⟨year, month, day⟩ := d
  obtain ⟨y, rfl⟩ := Int.eq_ofNat_of_zero_le h.1
  dsimp only at h hmonth hfirst hlast
  have hread := date?_text (y := y) (by omega) hmonth hfirst hlast rest
  have hyear : yearText y = padded 4 y := if_neg (by omega)
  simpa [hyear, two, padded] using hread

theorem clock?_clockText {t : Timestamp} (h : t.nanos < 10 ^ 9) {rest : List Char}
    (hrest : Zoned rest) :
    clock? false (t.clockText.toList ++ rest)
      = some (((t.localSeconds.fmod secondsPerDay).toNat, t.nanos), rest) := by
  have hday : (t.localSeconds.fmod secondsPerDay).toNat < 86400 := by
    have hmod := Int.fmod_lt_of_pos t.localSeconds (b := secondsPerDay) (by decide)
    have hlength : secondsPerDay = 86400 := rfl
    omega
  unfold clockText
  generalize (t.localSeconds.fmod secondsPerDay).toNat = s at *
  have hread := clock?_text (h := s / 3600) (m := s / 60 % 60) (s := s % 60) (by omega) (by omega)
    (by omega) (fraction?_text h hrest)
  have hsum : s / 3600 * 3600 + s / 60 % 60 * 60 + s % 60 = s := by omega
  simpa [two, padded, hsum] using hread

/-- What the internet form keeps of a time. -/
def written (t : Timestamp) : Timestamp := { t with offset := wholeMinutes t.offset }

theorem written_eq_self_iff {t : Timestamp} : t.written = t ↔ 60 ∣ t.offset := by
  rw [← wholeMinutes_eq_self_iff]
  constructor
  · intro h
    exact congrArg Timestamp.offset h
  · intro h
    rw [written, h]

/-- A time that has an internet form is read from it without the seconds of its offset. -/
theorem parse?_render {t : Timestamp} (hnanos : t.nanos < 10 ^ 9)
    (hformat : t.formatError? = none) : parse? t.render = some t.written := by
  obtain ⟨hyear, hzone⟩ := formatError?_eq_none hformat
  have hdate := date?_dateText hyear
  have hclock := clock?_clockText hnanos (zoned_offsetText t.offset)
  have hoffset := offset?_text hzone
  have hlocal : t.localSeconds.fdiv secondsPerDay * secondsPerDay
      + ((t.localSeconds.fmod secondsPerDay).toNat : Int) = t.localSeconds := by
    have hmod := Int.fmod_nonneg_of_pos t.localSeconds (b := secondsPerDay) (by decide)
    have hsplit := Int.fdiv_mul_add_fmod t.localSeconds secondsPerDay
    omega
  simp [parse?, Spelling.parse?, render, hdate, hclock, hoffset, literal?_cons,
    dayNumber_dateOfDay, hlocal, written, -Int.ofNat_toNat]

/-- The fraction is below a second and the offset a whole number of minutes, as in every time that
was read from its internet form. -/
structure Exact (t : Timestamp) : Prop where
  nanos_lt : t.nanos < 10 ^ 9
  minutes : 60 ∣ t.offset

theorem Exact.parse?_render {t : Timestamp} (h : t.Exact) (hformat : t.formatError? = none) :
    parse? t.render = some t := by
  rw [Timestamp.parse?_render h.nanos_lt hformat, written_eq_self_iff.mpr h.minutes]

/-- Less than a minute behind is written like less than a minute ahead. -/
example : render ⟨0, 0, -59⟩ = render ⟨0, 0, 59⟩ ∧
    parse? (render ⟨0, 0, -59⟩) = some ⟨0, 0, 0⟩ := by
  decide

end Timestamp

/-- The text of a time is its own literal, so it is read as it was written. -/
theorem Outcome.over?_time {t t' : Timestamp} (h : Timestamp.parse? t.render = some t')
    (old : Timestamp) : Json.over? time? old (.text t.render) = some t' := by
  rw [t.bare_render.text_eq]
  exact h

end Synthesis
