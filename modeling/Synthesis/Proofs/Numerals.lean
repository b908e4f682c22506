import Synthesis.Calendar
import Mathlib.Tactic.Ring

/-!
Numbers in decimal digits. The digits of a natural, padded with zeros or not, stand for it again;
padded to one width, digits compare as the numbers do. An integer inside the signed sixty-four bit
range is read back from its text.
-/
namespace Synthesis.Decimal

open Synthesis.Text

theorem isAsciiDigit_iff (c : Char) : isAsciiDigit c = true ↔ 48 ≤ c.toNat ∧ c.toNat ≤ 57 := by
  rw [isAsciiDigit, decide_eq_true_eq]
  exact Iff.rfl

theorem digitValue_lt {c : Char} (h : isAsciiDigit c = true) : digitValue c < 10 := by
  have hc := (isAsciiDigit_iff c).mp h
  have hzero : '0'.toNat = 48 := rfl
  rw [digitValue, hzero]
  omega

/-- Digits behind a number shift it and are added. -/
theorem foldl_digitValue (ds : List Char) (n : Nat) :
    ds.foldl (fun n c => 10 * n + digitValue c) n = n * 10 ^ ds.length + natOfDigits ds := by
  unfold natOfDigits
  induction ds generalizing n with
  | nil => simp
  | cons c ds ih =>
    rw [List.foldl_cons, List.foldl_cons, ih, ih (10 * 0 + digitValue c), List.length_cons,
      Nat.pow_succ]
    ring

theorem natOfDigits_append (as bs : List Char) :
    natOfDigits (as ++ bs) = natOfDigits as * 10 ^ bs.length + natOfDigits bs := by
  rw [natOfDigits, List.foldl_append, foldl_digitValue]
  rfl

theorem natOfDigits_cons (c : Char) (ds : List Char) :
    natOfDigits (c :: ds) = digitValue c * 10 ^ ds.length + natOfDigits ds := by
  rw [natOfDigits, List.foldl_cons, foldl_digitValue, Nat.mul_zero, Nat.zero_add]

theorem natOfDigits_lt {ds : List Char} (h : ∀ c ∈ ds, isAsciiDigit c = true) :
    natOfDigits ds < 10 ^ ds.length := by
  induction ds with
  | nil => simp [natOfDigits]
  | cons c ds ih =>
    have hc := digitValue_lt (h c List.mem_cons_self)
    have hds := ih fun d hd => h d (List.mem_cons_of_mem c hd)
    rw [natOfDigits_cons, List.length_cons, Nat.pow_succ]
    have hlead : digitValue c * 10 ^ ds.length ≤ 9 * 10 ^ ds.length :=
      Nat.mul_le_mul_right _ (by omega)
    omega

theorem isAsciiDigit_of_mem_digits {n : Nat} {c : Char} (h : c ∈ digits n) :
    isAsciiDigit c = true := by
  have hdigit : c.isDigit = true := Nat.isDigit_of_mem_toDigits (by decide) (by decide) h
  rw [Char.isDigit, Bool.and_eq_true, decide_eq_true_eq, decide_eq_true_eq] at hdigit
  exact (isAsciiDigit_iff c).mpr hdigit

theorem digitValue_digitChar {n : Nat} (h : n < 10) : digitValue n.digitChar = n :=
  Nat.toNat_digitChar_sub_48_of_lt_ten h

theorem natOfDigits_digits (n : Nat) : natOfDigits (digits n) = n := by
  induction n using Nat.strongRecOn with
  | _ n ih =>
    unfold digits at ih ⊢
    rw [Nat.toDigits_eq_if (by decide)]
    by_cases hn : n < 10
    · rw [if_pos hn, natOfDigits_cons, digitValue_digitChar hn]
      simp [natOfDigits]
    · rw [if_neg hn, natOfDigits_append, ih (n / 10) (by omega), natOfDigits_cons,
        digitValue_digitChar (Nat.mod_lt n (by decide))]
      simp only [List.length_cons, List.length_nil, natOfDigits, List.foldl_nil]
      omega

/-- Only zero has a numeral that starts with the digit zero. -/
theorem digits_eq_cons_zero {n : Nat} {ds : List Char} (h : digits n = '0' :: ds) : ds = [] := by
  have hvalue : n = natOfDigits ds := by
    rw [← natOfDigits_digits n, h, natOfDigits_cons]
    simp [digitValue]
  have hds : ∀ c ∈ ds, isAsciiDigit c = true := fun c hc =>
    isAsciiDigit_of_mem_digits (n := n) (by rw [h]; exact List.mem_cons_of_mem _ hc)
  have hlt : n < 10 ^ ds.length := hvalue ▸ natOfDigits_lt hds
  by_contra hne
  have hlength : (digits n).length ≤ ds.length :=
    (Nat.length_toDigits_le_iff (by decide) (List.length_pos_iff.mpr hne)).mpr hlt
  rw [h, List.length_cons] at hlength
  omega

theorem int?_intText {i : Int} (h : fitsInt64 i = true) : int? (intText i) = .ok i := by
  have hread : ∀ n : Nat, ((digits n).isEmpty || !(digits n).all isAsciiDigit) = false := by
    intro n
    have hne : digits n ≠ [] := Nat.toDigits_ne_nil
    have hall : (digits n).all isAsciiDigit = true :=
      List.all_eq_true.mpr fun c hc => isAsciiDigit_of_mem_digits hc
    rw [hall, List.isEmpty_eq_false_iff.mpr hne]
    rfl
  cases i with
  | ofNat n =>
    have hsign : splitSign (digits n) = (false, digits n) := by
      unfold splitSign
      split
      next r heq => exact absurd (isAsciiDigit_of_mem_digits (heq ▸ List.mem_cons_self)) (by decide)
      next r heq => exact absurd (isAsciiDigit_of_mem_digits (heq ▸ List.mem_cons_self)) (by decide)
      next => rfl
    rw [int?, intText, natText, String.toList_ofList, hsign]
    simp only [hread, Bool.false_eq_true, if_false, natOfDigits_digits]
    exact if_pos h
  | negSucc n =>
    have hsign : splitSign (intText (.negSucc n)).toList = (true, digits (n + 1)) := by
      simp only [intText, natText, String.toList_append, String.toList_ofList]
      rfl
    rw [int?, hsign]
    simp only [hread, Bool.false_eq_true, if_false, if_true, natOfDigits_digits]
    exact if_pos h

end Synthesis.Decimal

namespace Synthesis.Timestamp

open Synthesis.Text Synthesis.Decimal

theorem isAsciiDigit_of_mem_zeroPad {width n : Nat} {c : Char} (h : c ∈ zeroPad width n) :
    isAsciiDigit c = true := by
  rw [zeroPad, List.mem_append] at h
  rcases h with h | h
  · rw [List.eq_of_mem_replicate h]
    decide
  · exact isAsciiDigit_of_mem_digits h

theorem length_zeroPad {width n : Nat} (hwidth : 0 < width) (h : n < 10 ^ width) :
    (zeroPad width n).length = width := by
  have hlength : (digits n).length ≤ width := (Nat.length_toDigits_le_iff (by decide) hwidth).mpr h
  rw [zeroPad, List.length_append, List.length_replicate]
  omega

theorem natOfDigits_replicate_zero (k : Nat) : natOfDigits (List.replicate k '0') = 0 := by
  induction k with
  | zero => rfl
  | succ k ih =>
    rw [List.replicate_succ, natOfDigits_cons, ih]
    simp [digitValue]

theorem natOfDigits_zeroPad (width n : Nat) : natOfDigits (zeroPad width n) = n := by
  rw [zeroPad, natOfDigits_append, natOfDigits_replicate_zero, natOfDigits_digits, Nat.zero_mul,
    Nat.zero_add]

/-- Reading a padded number stops after its width. -/
theorem fixedNumber?_zeroPad (width : Nat) {n : Nat} (hwidth : 0 < width) (h : n < 10 ^ width)
    (rest : List Char) : fixedNumber? width (zeroPad width n ++ rest) = some (n, rest) := by
  have hlength := length_zeroPad hwidth h
  have htake : (zeroPad width n ++ rest).take width = zeroPad width n := List.take_left' hlength
  have hdrop : (zeroPad width n ++ rest).drop width = rest := List.drop_left' hlength
  have hall : (zeroPad width n).all isAsciiDigit = true :=
    List.all_eq_true.mpr fun c hc => isAsciiDigit_of_mem_zeroPad hc
  simp only [fixedNumber?, htake, hdrop, hlength, hall, natOfDigits_zeroPad, and_self, if_true]

end Synthesis.Timestamp
