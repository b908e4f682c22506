import Synthesis.Text.Utf8
import Synthesis.Store.Ordered
import Synthesis.Proofs.JsonText
import Mathlib.Tactic.SplitIfs

/-!
The order of byte strings. Texts without stray bytes have the same order as their bytes, for the
first character in which they differ decides, and its bytes do too; numbers padded to one width
have the order of their digits. Among byte strings those that share a beginning stand together.
-/
namespace Synthesis

section Order

variable {α : Type}

theorem lexLe_append_left (rank : α → Nat) (xs as bs : List α) :
    lexLe rank (xs ++ as) (xs ++ bs) = lexLe rank as bs := by
  induction xs with
  | nil => rfl
  | cons x xs ih => simp [lexLe, ih]

theorem precedes_append_left (xs as bs : List Nat) :
    precedes (xs ++ as) (xs ++ bs) = precedes as bs := by
  rw [precedes, lexLe_append_left, precedes]

theorem precedes_cons_iff {a b : Nat} {as bs : List Nat} :
    precedes (a :: as) (b :: bs) = true ↔ a < b ∨ a = b ∧ precedes as bs = true := by
  simp only [precedes, lexLe, id_eq, Bool.not_eq_true', Bool.or_eq_false_iff,
    Bool.and_eq_false_iff, decide_eq_false_iff_not, beq_eq_false_iff_ne]
  cases lexLe id bs as with
  | false => simp; omega
  | true => simp; omega

/-- What does not start with `mark`, and is not behind something that does, comes before all that
does. -/
theorem precedes_of_not_isPrefixOf {mark e : List Nat} (h : mark.isPrefixOf e = false)
    {seek : List Nat} (hseek : lexLe id e (mark ++ seek) = true) (rest : List Nat) :
    precedes e (mark ++ rest) = true := by
  induction mark generalizing e with
  | nil => simp at h
  | cons m mark ih =>
    cases e with
    | nil => rfl
    | cons a e =>
      simp only [List.cons_append, lexLe, id_eq, Bool.or_eq_true, Bool.and_eq_true,
        decide_eq_true_eq, beq_iff_eq] at hseek
      rcases hseek with hlt | ⟨rfl, hseek⟩
      · exact precedes_cons_iff.mpr (Or.inl hlt)
      · have hrest : mark.isPrefixOf e = false := by simpa using h
        have hbefore := ih hrest hseek
        rw [List.cons_append]
        exact precedes_cons_iff.mpr (Or.inr ⟨rfl, hbefore⟩)

end Order

namespace Text

/-- A character that stands for no stray byte has the bytes of its range. -/
theorem charBytes_of_valid {c : Char} (h : strayByte? c = none) :
    charBytes c =
      if c.toNat < 0x80 then [c.toNat]
      else if c.toNat < 0x800 then [0xC0 + c.toNat / 64, 0x80 + c.toNat % 64]
      else if c.toNat < 0x10000 then
        [0xE0 + c.toNat / 4096, 0x80 + c.toNat / 64 % 64, 0x80 + c.toNat % 64]
      else [0xF0 + c.toNat / 262144, 0x80 + c.toNat / 4096 % 64, 0x80 + c.toNat / 64 % 64,
        0x80 + c.toNat % 64] := by
  simp only [charBytes, h]

/-- The bytes of a smaller character come first, whatever follows them. -/
theorem precedes_charBytes {c d : Char} (hc : strayByte? c = none) (hd : strayByte? d = none)
    (h : c.toNat < d.toNat) (xs ys : List Nat) :
    precedes (charBytes c ++ xs) (charBytes d ++ ys) = true := by
  rw [charBytes_of_valid hc, charBytes_of_valid hd]
  generalize c.toNat = m at h
  generalize d.toNat = n at h
  -- Characters of different lengths differ in their first bytes.
  split_ifs
  all_goals
    simp only [List.cons_append, List.nil_append, precedes_cons_iff]
    omega

theorem charBytes_ne_nil (c : Char) : charBytes c ≠ [] := by
  simp only [charBytes]
  split
  · exact List.cons_ne_nil _ _
  · split
    · exact List.cons_ne_nil _ _
    · split
      · exact List.cons_ne_nil _ _
      · split
        · exact List.cons_ne_nil _ _
        · exact List.cons_ne_nil _ _

/-- The order of texts by code points is the order of their bytes. -/
theorem lexLe_flatMap_charBytes {as bs : List Char} (has : ∀ c ∈ as, strayByte? c = none)
    (hbs : ∀ c ∈ bs, strayByte? c = none) :
    lexLe id (as.flatMap charBytes) (bs.flatMap charBytes) = charsLe as bs := by
  induction as generalizing bs with
  | nil => rfl
  | cons a as ih =>
    rw [List.flatMap_cons]
    cases bs with
    | nil =>
      obtain ⟨x, xs, hx⟩ := List.exists_cons_of_ne_nil (charBytes_ne_nil a)
      rw [hx]
      rfl
    | cons b bs =>
      have ha := has a List.mem_cons_self
      have hb := hbs b List.mem_cons_self
      rw [List.flatMap_cons, charsLe]
      rcases Nat.lt_trichotomy a.toNat b.toNat with hlt | heq | hgt
      · rw [le_of_precedes (precedes_charBytes ha hb hlt _ _), decide_eq_true hlt, Bool.true_or]
      · have hrest := ih (fun c hc => has c (List.mem_cons_of_mem a hc))
          (fun c hc => hbs c (List.mem_cons_of_mem b hc))
        rw [Char.toNat_inj.mp heq, lexLe_append_left, hrest]
        simp
      · have hback := precedes_charBytes hb ha hgt (bs.flatMap charBytes) (as.flatMap charBytes)
        rw [precedes_eq_true_iff.mp hback, decide_eq_false (by omega), Bool.false_or,
          beq_eq_false_iff_ne.mpr (by omega), Bool.false_and]

theorem lexLe_utf8 {s t : String} (hs : Valid s) (ht : Valid t) :
    lexLe id (utf8 s) (utf8 t) = le s t :=
  lexLe_flatMap_charBytes hs ht

theorem utf8_append (s t : String) : utf8 (s ++ t) = utf8 s ++ utf8 t := by
  rw [utf8, String.toList_append, List.flatMap_append, utf8, utf8]

theorem flatMap_charBytes_ascii {cs : List Char} (h : ∀ c ∈ cs, c.toNat < 0x80) :
    cs.flatMap charBytes = cs.map Char.toNat := by
  induction cs with
  | nil => rfl
  | cons c cs ih =>
    have hc : charBytes c = [c.toNat] := if_pos (h c List.mem_cons_self)
    rw [List.flatMap_cons, hc, ih fun d hd => h d (List.mem_cons_of_mem c hd)]
    rfl

end Text

namespace Decimal

open Synthesis.Text

/-- Digits of one length have the order of their numbers, whatever follows them. -/
theorem precedes_digits {as bs : List Char} (has : ∀ c ∈ as, isAsciiDigit c = true)
    (hbs : ∀ c ∈ bs, isAsciiDigit c = true) (hlength : as.length = bs.length)
    (h : natOfDigits as < natOfDigits bs) (xs ys : List Nat) :
    precedes (as.map Char.toNat ++ xs) (bs.map Char.toNat ++ ys) = true := by
  induction as generalizing bs with
  | nil =>
    rw [List.length_nil] at hlength
    rw [List.eq_nil_of_length_eq_zero hlength.symm] at h
    exact absurd h (Nat.lt_irrefl _)
  | cons a as ih =>
    cases bs with
    | nil => cases hlength
    | cons b bs =>
      have htail : as.length = bs.length := Nat.succ.inj hlength
      have hdigits : ∀ c ∈ as, isAsciiDigit c = true :=
        fun c hc => has c (List.mem_cons_of_mem a hc)
      have hdigits' : ∀ c ∈ bs, isAsciiDigit c = true :=
        fun c hc => hbs c (List.mem_cons_of_mem b hc)
      have hlow := natOfDigits_lt hdigits'
      have hb := (isAsciiDigit_iff b).mp (hbs b List.mem_cons_self)
      have hzero : '0'.toNat = 48 := rfl
      rw [natOfDigits_cons, natOfDigits_cons, htail] at h
      rw [List.map_cons, List.map_cons, List.cons_append, List.cons_append, precedes_cons_iff]
      rcases Nat.lt_trichotomy a.toNat b.toNat with hlt | heq | hgt
      · exact Or.inl hlt
      · have hvalue : digitValue a = digitValue b := by rw [digitValue, heq, digitValue]
        rw [hvalue] at h
        exact Or.inr ⟨heq, ih hdigits hdigits' htail (by omega)⟩
      · have hvalue : digitValue b + 1 ≤ digitValue a := by
          rw [digitValue, digitValue, hzero]
          omega
        have hlead := Nat.mul_le_mul_right (10 ^ bs.length) hvalue
        rw [Nat.add_mul, Nat.one_mul] at hlead
        omega

end Decimal

end Synthesis
