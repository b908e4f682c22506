import Synthesis.Key.Cbor
import Synthesis.Proofs.ByteOrder
import Mathlib.Data.List.Basic

/-!
Texts as sequences of bytes. A text is whole when it is what its own bytes are read as. Every
sequence of bytes is that of a whole text, and of only one; texts without stray bytes are whole.
So whole texts are told apart by their bytes, and they are as many as there are byte sequences.
-/
namespace Synthesis

namespace Text

theorem toNat_ofNat {n : Nat} (h : n.isValidChar) : (Char.ofNat n).toNat = n := by
  rw [Char.ofNat, dif_pos h]
  rfl

/-- The bytes of a code point. -/
def scalarBytes (n : Nat) : List Nat :=
  if n < 0x80 then [n]
  else if n < 0x800 then [0xC0 + n / 64, 0x80 + n % 64]
  else if n < 0x10000 then [0xE0 + n / 4096, 0x80 + n / 64 % 64, 0x80 + n % 64]
  else [0xF0 + n / 262144, 0x80 + n / 4096 % 64, 0x80 + n / 64 % 64, 0x80 + n % 64]

theorem charBytes_eq_scalarBytes {c : Char} (h : strayByte? c = none) :
    charBytes c = scalarBytes c.toNat :=
  charBytes_of_valid h

theorem charBytes_strayByte {b : Nat} (hlow : 0x80 ≤ b) (hhigh : b < 0x100) :
    charBytes (strayByte b) = [b] := by
  have hbase : strayBase = 0x10F700 := rfl
  have hnat : (strayByte b).toNat = strayBase + b := toNat_ofNat (Or.inr (by omega))
  have hstray : strayByte? (strayByte b) = some b := by
    rw [strayByte?, if_pos (by omega), hnat, Nat.add_sub_cancel_left]
  simp only [charBytes, hnat, hstray]
  rw [if_neg (by omega), if_neg (by omega), if_neg (by omega)]

section Decoding

variable {b x y z n : Nat}

theorem isContinuation_iff : isContinuation b = true ↔ 0x80 ≤ b ∧ b < 0xC0 := by
  simp [isContinuation]

theorem scalarBytes_two (hb : 0xC0 ≤ b ∧ b < 0xE0) (hx : 0x80 ≤ x ∧ x < 0xC0)
    (hn : n = 64 * (b % 32) + x % 64) (hleast : 0x80 ≤ n) : scalarBytes n = [b, x] := by
  rw [scalarBytes, if_neg (by omega), if_pos (by omega)]
  have hlead : 0xC0 + n / 64 = b := by omega
  have hlast : 0x80 + n % 64 = x := by omega
  rw [hlead, hlast]

theorem scalarBytes_three (hb : 0xE0 ≤ b ∧ b < 0xF0) (hx : 0x80 ≤ x ∧ x < 0xC0)
    (hy : 0x80 ≤ y ∧ y < 0xC0) (hn : n = 64 * (64 * (b % 16) + x % 64) + y % 64)
    (hleast : 0x800 ≤ n) : scalarBytes n = [b, x, y] := by
  rw [scalarBytes, if_neg (by omega), if_neg (by omega), if_pos (by omega)]
  have hlead : 0xE0 + n / 4096 = b := by omega
  have hmiddle : 0x80 + n / 64 % 64 = x := by omega
  have hlast : 0x80 + n % 64 = y := by omega
  rw [hlead, hmiddle, hlast]

theorem scalarBytes_four (hb : 0xF0 ≤ b ∧ b < 0xF8) (hx : 0x80 ≤ x ∧ x < 0xC0)
    (hy : 0x80 ≤ y ∧ y < 0xC0) (hz : 0x80 ≤ z ∧ z < 0xC0)
    (hn : n = 64 * (64 * (64 * (b % 8) + x % 64) + y % 64) + z % 64) (hleast : 0x10000 ≤ n) :
    scalarBytes n = [b, x, y, z] := by
  rw [scalarBytes, if_neg (by omega), if_neg (by omega), if_neg (by omega)]
  have hlead : 0xF0 + n / 262144 = b := by omega
  have hsecond : 0x80 + n / 4096 % 64 = x := by omega
  have hthird : 0x80 + n / 64 % 64 = y := by omega
  have hlast : 0x80 + n % 64 = z := by omega
  rw [hlead, hsecond, hthird, hlast]

/-- What is decoded are the bytes in front. -/
theorem decodeAny?_eq_some {bs : List Nat} {c : Char} (h : decodeAny? bs = some (c, n)) :
    ∃ rest, bs = scalarBytes c.toNat ++ rest ∧ (scalarBytes c.toNat).length = n := by
  cases bs with
  | nil => cases h
  | cons b rest =>
    rw [decodeAny?] at h
    by_cases hascii : b < 0x80
    · rw [if_pos hascii] at h
      cases h
      rw [toNat_ofNat (Or.inl (by omega)), scalarBytes, if_pos hascii]
      exact ⟨rest, rfl, rfl⟩
    rw [if_neg hascii] at h
    generalize hsize : (if b < 0xC0 then 0 else if b < 0xE0 then 1 else if b < 0xF0 then 2
      else if b < 0xF8 then 3 else 0) = size at h
    dsimp only at h
    rw [Option.ite_none_left_eq_some, Option.ite_none_left_eq_some] at h
    obtain ⟨hwhole, hvalue, hfound⟩ := h
    simp only [not_or, not_and, Nat.not_lt, not_not, Bool.not_eq_true', Bool.not_eq_false,
      List.all_eq_true, isContinuation_iff] at hwhole hvalue
    obtain ⟨_, hlength, hall⟩ := hwhole
    obtain ⟨hleast, hmost, hsurrogate⟩ := hvalue
    obtain ⟨rfl, rfl⟩ := Prod.mk.inj (Option.some.inj hfound)
    rw [toNat_ofNat (by omega)]
    -- One, two or three bytes follow the first.
    have hcases : (size = 1 ∧ 0xC0 ≤ b ∧ b < 0xE0) ∨ (size = 2 ∧ 0xE0 ≤ b ∧ b < 0xF0) ∨
        (size = 3 ∧ 0xF0 ≤ b ∧ b < 0xF8) := by
      split_ifs at hsize <;> omega
    have hrest := List.take_append_drop size rest
    generalize hvalue : List.foldl _ _ _ = value at hleast hmost hsurrogate ⊢
    generalize rest.take size = tail at *
    rcases hcases with ⟨rfl, hb⟩ | ⟨rfl, hb⟩ | ⟨rfl, hb⟩
    · obtain ⟨x, rfl⟩ := List.length_eq_one_iff.mp hlength
      have hbytes := scalarBytes_two hb (hall x (by simp)) hvalue.symm hleast
      exact ⟨rest.drop 1, by rw [hbytes, ← hrest]; rfl, by rw [hbytes]; rfl⟩
    · obtain ⟨x, y, rfl⟩ := List.length_eq_two.mp hlength
      have hbytes := scalarBytes_three hb (hall x (by simp)) (hall y (by simp)) hvalue.symm hleast
      exact ⟨rest.drop 2, by rw [hbytes, ← hrest]; rfl, by rw [hbytes]; rfl⟩
    · obtain ⟨x, y, z, rfl⟩ := List.length_eq_three.mp hlength
      have hbytes := scalarBytes_four hb (hall x (by simp)) (hall y (by simp)) (hall z (by simp))
        hvalue.symm hleast
      exact ⟨rest.drop 3, by rw [hbytes, ← hrest]; rfl, by rw [hbytes]; rfl⟩

/-- A first byte with the bytes that have to follow it is decoded, whatever comes then. -/
theorem decodeAny?_cons (size : Nat) (tail : List Nat) (hascii : ¬ b < 0x80)
    (hsize : (if b < 0xC0 then 0 else if b < 0xE0 then 1 else if b < 0xF0 then 2
      else if b < 0xF8 then 3 else 0) = size) (hpos : size ≠ 0) (hlength : tail.length = size)
    (hall : tail.all isContinuation = true)
    (hvalue : tail.foldl (fun n b => 64 * n + b % 64) (b % Nat.pow 2 (6 - size)) = n)
    (hleast : (if size = 1 then 0x80 else if size = 2 then 0x800 else 0x10000) ≤ n)
    (hvalid : n.isValidChar) (rest : List Nat) :
    decodeAny? (b :: (tail ++ rest)) = some (Char.ofNat n, size + 1) := by
  rw [decodeAny?, if_neg hascii]
  dsimp only
  rw [hsize, List.take_left' hlength, hvalue, hall, if_neg, if_neg]
  · rw [Nat.isValidChar] at hvalid
    omega
  · simp [hpos, hlength]

/-- The bytes of a code point are decoded as its character, whatever follows them. -/
theorem decodeAny?_scalarBytes (h : n.isValidChar) (rest : List Nat) :
    decodeAny? (scalarBytes n ++ rest) = some (Char.ofNat n, (scalarBytes n).length) := by
  have hbound := h
  rw [Nat.isValidChar] at hbound
  unfold scalarBytes
  split_ifs with h1 h2 h3
  · rw [List.cons_append, decodeAny?, if_pos h1]
    rfl
  · refine decodeAny?_cons 1 [0x80 + n % 64] (by omega) ?_ (by decide) rfl ?_ ?_ ?_ h rest
    · rw [if_neg (by omega), if_pos (by omega)]
    · simp [isContinuation]
      omega
    · simp
      omega
    · simp
      omega
  · refine decodeAny?_cons 2 [0x80 + n / 64 % 64, 0x80 + n % 64] (by omega) ?_ (by decide) rfl
      ?_ ?_ ?_ h rest
    · rw [if_neg (by omega), if_neg (by omega), if_pos (by omega)]
    · simp [isContinuation]
      omega
    · simp
      omega
    · simp
      omega
  · refine decodeAny?_cons 3 [0x80 + n / 4096 % 64, 0x80 + n / 64 % 64, 0x80 + n % 64] (by omega)
      ?_ (by decide) rfl ?_ ?_ ?_ h rest
    · rw [if_neg (by omega), if_neg (by omega), if_neg (by omega), if_pos (by omega)]
    · simp [isContinuation]
      omega
    · simp
      omega
    · simp
      omega

end Decoding

theorem decodeChar?_eq_some {bs : List Nat} {c : Char} {n : Nat}
    (h : decodeChar? bs = some (c, n)) :
    ∃ rest, bs = charBytes c ++ rest ∧ (charBytes c).length = n := by
  obtain ⟨hany, hvalid⟩ := Option.filter_eq_some_iff.mp h
  rw [Option.isNone_iff_eq_none] at hvalid
  rw [charBytes_eq_scalarBytes hvalid]
  exact decodeAny?_eq_some hany

theorem decodeChar?_charBytes {c : Char} (h : strayByte? c = none) (rest : List Nat) :
    decodeChar? (charBytes c ++ rest) = some (c, (charBytes c).length) := by
  have hscalar : c.toNat.isValidChar := c.valid
  rw [charBytes_eq_scalarBytes h, decodeChar?, decodeAny?_scalarBytes hscalar, Char.ofNat_toNat]
  exact if_pos (Option.isNone_iff_eq_none.mpr h)

theorem le_of_decodeChar?_eq_none {b : Nat} {rest : List Nat}
    (h : decodeChar? (b :: rest) = none) : 0x80 ≤ b := by
  by_contra hascii
  have hlow : b < 0x80 := by omega
  have hbase : strayBase = 0x10F700 := rfl
  have hnat : (Char.ofNat b).toNat = b := toNat_ofNat (Or.inl (by omega))
  have hvalid : strayByte? (Char.ofNat b) = none := if_neg (by omega)
  rw [decodeChar?, decodeAny?, if_pos hlow] at h
  simp [Option.filter, hvalid] at h

/-- What bytes are read as has these bytes. -/
theorem flatMap_decodeFrom {fuel : Nat} {bs : List Nat} (hfuel : bs.length ≤ fuel)
    (hbytes : ∀ b ∈ bs, b < 0x100) : (decodeFrom fuel bs).flatMap charBytes = bs := by
  induction fuel generalizing bs with
  | zero =>
    rw [List.eq_nil_of_length_eq_zero (Nat.le_zero.mp hfuel)]
    rfl
  | succ fuel ih =>
    cases bs with
    | nil => rfl
    | cons b rest =>
      rw [decodeFrom]
      · cases hchar : decodeChar? (b :: rest) with
        | some found =>
          obtain ⟨c, n⟩ := found
          obtain ⟨after, hsplit, rfl⟩ := decodeChar?_eq_some hchar
          have hpos := List.length_pos_iff.mpr (charBytes_ne_nil c)
          rw [hsplit, List.length_append] at hfuel
          rw [hsplit] at hbytes ⊢
          have hshort : after.length ≤ fuel := by omega
          have hrest := ih hshort fun b hb => hbytes b (List.mem_append_right _ hb)
          dsimp only
          rw [List.drop_left, List.flatMap_cons, hrest]
        | none =>
          have hstray := charBytes_strayByte (le_of_decodeChar?_eq_none hchar)
            (hbytes b List.mem_cons_self)
          have hshort : rest.length ≤ fuel := by simpa using hfuel
          have hrest := ih hshort fun b hb => hbytes b (List.mem_cons_of_mem _ hb)
          dsimp only
          rw [List.headD_cons, List.drop_one, List.tail_cons, List.flatMap_cons, hstray, hrest]
          rfl
      · intro h
        cases h

theorem decodeFrom_flatMap {fuel : Nat} {cs : List Char} (h : ∀ c ∈ cs, strayByte? c = none)
    (hfuel : (cs.flatMap charBytes).length ≤ fuel) :
    decodeFrom fuel (cs.flatMap charBytes) = cs := by
  induction cs generalizing fuel with
  | nil =>
    cases fuel with
    | zero => rfl
    | succ fuel => rfl
  | cons c cs ih =>
    have hpos := List.length_pos_iff.mpr (charBytes_ne_nil c)
    rw [List.flatMap_cons, List.length_append] at hfuel
    obtain ⟨fuel, rfl⟩ : ∃ k, fuel = k + 1 := ⟨fuel - 1, by omega⟩
    rw [List.flatMap_cons, decodeFrom]
    · rw [decodeChar?_charBytes (h c List.mem_cons_self)]
      dsimp only
      rw [List.drop_left, ih (fun d hd => h d (List.mem_cons_of_mem c hd)) (by omega)]
    · intro hnil
      rw [List.append_eq_nil_iff] at hnil
      exact charBytes_ne_nil c hnil.1

theorem utf8_ofUtf8 {bs : List Nat} (h : ∀ b ∈ bs, b < 0x100) : utf8 (ofUtf8 bs) = bs := by
  rw [utf8, ofUtf8, String.toList_ofList]
  exact flatMap_decodeFrom (Nat.le_refl _) h

/-- The text is what its bytes are read as. -/
def Whole (s : String) : Prop := ofUtf8 (utf8 s) = s

theorem whole_ofUtf8 {bs : List Nat} (h : ∀ b ∈ bs, b < 0x100) : Whole (ofUtf8 bs) := by
  rw [Whole, utf8_ofUtf8 h]

theorem Valid.whole {s : String} (h : Valid s) : Whole s := by
  rw [Whole, ofUtf8, utf8, decodeFrom_flatMap h (Nat.le_refl _), String.ofList_toList]

theorem Whole.eq_of_utf8 {s t : String} (hs : Whole s) (ht : Whole t) (h : utf8 s = utf8 t) :
    s = t := by
  rw [← hs, h, ht]

theorem charBytes_lt (c : Char) : ∀ b ∈ charBytes c, b < 0x100 := by
  have hbound : c.toNat < 0x110000 := by
    have hvalid := c.valid
    rcases hvalid with hlow | hhigh
    · exact Nat.lt_trans hlow (by decide)
    · exact hhigh.2
  intro b hb
  simp only [charBytes, strayByte?] at hb
  split_ifs at hb
  all_goals
    simp only [List.mem_cons, List.not_mem_nil, or_false] at hb
    omega

theorem utf8_lt (s : String) : ∀ b ∈ utf8 s, b < 0x100 := by
  intro b hb
  obtain ⟨c, _, hc⟩ := List.mem_flatMap.mp hb
  exact charBytes_lt c b hc

end Text

namespace Cbor

theorem map_toNat_utf8 (s : String) : (utf8 s).map UInt8.toNat = Text.utf8 s := by
  rw [utf8, List.map_map]
  conv_rhs => rw [← List.map_id (Text.utf8 s)]
  refine List.map_congr_left fun b hb => ?_
  rw [Function.comp_apply, UInt8.toNat_ofNat', Nat.mod_eq_of_lt (Text.utf8_lt s b hb)]
  rfl

/-- Whole texts are told apart by their bytes. -/
theorem eq_of_utf8 {s t : String} (hs : Text.Whole s) (ht : Text.Whole t)
    (h : utf8 s = utf8 t) : s = t := by
  apply hs.eq_of_utf8 ht
  rw [← map_toNat_utf8 s, h, map_toNat_utf8 t]

end Cbor

end Synthesis
