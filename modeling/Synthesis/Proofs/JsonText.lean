import Synthesis.Json.Fields
import Synthesis.Json.Writer
import Synthesis.Proofs.Numerals

/-!
JSON text read back. A value made of null, booleans, integers, texts without stray bytes, arrays
and objects is what its text is read as, as long as it is not nested too deep, and the literal of a
text stands for the text. Every reading
function stops right behind what was written and leaves the text that follows, which after a value
is nothing, a comma or a closing bracket.
-/
namespace Synthesis

/-- No character of the text stands for a stray byte. -/
def Text.Valid (s : String) : Prop := ∀ c ∈ s.toList, Text.strayByte? c = none

instance Text.decidableValid (s : String) : Decidable (Text.Valid s) :=
  decidable_of_iff ((s.toList.all fun c => (Text.strayByte? c).isNone) = true) (by
    simp only [List.all_eq_true, Option.isNone_iff_eq_none]
    exact Iff.rfl)

namespace Json

open Synthesis.Text Synthesis.Decimal

section Bare

/-- A character of the printable ASCII ones that is written as it is. -/
def isBare (c : Char) : Bool :=
  0x20 ≤ c.toNat && c.toNat < 0x7F && c != '"' && c != '\\' && !isHtmlChar c

/-- A text that is its own literal. -/
def Bare (s : String) : Prop := s.toList.all isBare = true

instance decidableBare (s : String) : Decidable (Bare s) := instDecidableEqBool _ _

theorem bare_iff {s : String} : Bare s ↔ ∀ c ∈ s.toList, isBare c = true := List.all_eq_true

theorem Bare.append {s t : String} (hs : Bare s) (ht : Bare t) : Bare (s ++ t) := by
  rw [Bare, String.toList_append, List.all_append, hs, ht]
  rfl

theorem Bare.valid {s : String} (h : Bare s) : Valid s := by
  intro c hc
  have hbare := bare_iff.mp h c hc
  have hbase : strayBase = 0x10F700 := rfl
  simp only [isBare, Bool.and_eq_true, decide_eq_true_eq] at hbare
  exact if_neg (by omega)

theorem isBare_of_isAsciiDigit {c : Char} (h : isAsciiDigit c = true) : isBare c = true := by
  have hdigit := (isAsciiDigit_iff c).mp h
  have hne {d : Char} (hd : d.toNat < 48 ∨ 57 < d.toNat) : c ≠ d := by
    rintro rfl
    omega
  have hlow : 0x20 ≤ c.toNat := by omega
  have hhigh : c.toNat < 0x7F := by omega
  simp [isBare, isHtmlChar, hlow, hhigh, hne (d := '"') (by decide), hne (d := '\\') (by decide),
    hne (d := '<') (by decide), hne (d := '>') (by decide), hne (d := '&') (by decide)]

theorem writeChar_of_isBare {c : Char} (h : isBare c = true) : writeChar c = [c] := by
  have hbase : strayBase = 0x10F700 := rfl
  simp only [isBare, Bool.and_eq_true, decide_eq_true_eq, bne_iff_ne, Bool.not_eq_true'] at h
  obtain ⟨⟨⟨⟨hlow, hhigh⟩, hquote⟩, hslash⟩, hhtml⟩ := h
  have hvalid : strayByte? c = none := if_neg (by omega)
  unfold writeChar
  split
  case h_8 =>
    have hescape : (decide (c.toNat < 0x20) || isHtmlChar c || c.toNat == 0x2028 ||
        c.toNat == 0x2029) = false := by
      simp only [hhtml, Bool.or_eq_false_iff, decide_eq_false_iff_not, beq_eq_false_iff_ne]
      refine ⟨⟨⟨?_, trivial⟩, ?_⟩, ?_⟩ <;> omega
    rw [hescape, hvalid]
    rfl
  all_goals first
    | exact absurd rfl hquote
    | exact absurd rfl hslash
    | exact absurd hlow (by decide)

end Bare

section Strings

theorem hexValue?_hexDigit {n : Nat} (h : n < 16) : hexValue? (hexDigit n) = some n := by
  have hall : ∀ k : Fin 16, hexValue? (hexDigit k) = some k.val := by decide
  exact hall ⟨n, h⟩

theorem hexUnit?_unitEscape {n : Nat} (h : n < 65536) (rest : List Char) :
    hexUnit? (hexDigit (n / 4096 % 16) :: hexDigit (n / 256 % 16) :: hexDigit (n / 16 % 16) ::
      hexDigit (n % 16) :: rest) = some (n, rest) := by
  have hvalue : ∀ m, hexValue? (hexDigit (m % 16)) = some (m % 16) := fun m =>
    hexValue?_hexDigit (Nat.mod_lt m (by decide))
  have hhex : ∀ m, isHexDigit (hexDigit (m % 16)) = true := fun m => by
    rw [isHexDigit, hvalue]
    rfl
  have hsum : 16 * (16 * (16 * (16 * 0 + n / 4096 % 16) + n / 256 % 16) + n / 16 % 16) + n % 16
      = n := by omega
  simp only [hexUnit?, List.all_cons, List.all_nil, hhex, Bool.and_self, if_true, natOfHex,
    List.foldl_cons, List.foldl_nil, hvalue, Option.getD_some, hsum]

/-- An escaped character below the surrogates is itself, whatever follows. -/
theorem readString_unitEscape {c : Char} (h : c.toNat < 0xD800) (n : Nat)
    (acc rest : List Char) :
    readString (n + 1) acc (unitEscape c.toNat ++ rest) = readString n (c :: acc) rest := by
  have hhigh : isHighSurrogate c.toNat = false := by
    rw [isHighSurrogate, Bool.and_eq_false_iff, decide_eq_false_iff_not]
    omega
  have hlow : isLowSurrogate c.toNat = false := by
    rw [isLowSurrogate, Bool.and_eq_false_iff, decide_eq_false_iff_not]
    omega
  have hunit : escapedUnit c.toNat rest = (c, rest) := by
    unfold escapedUnit
    simp only [hhigh, hlow, Bool.false_eq_true, if_false, Char.ofNat_toNat]
  have hkeep : keepChar c = [c] := by
    have hbase : strayBase = 0x10F700 := rfl
    have hvalid : strayByte? c = none := if_neg (by omega)
    rw [keepChar, hvalid, Option.isSome_none, if_neg (by decide)]
  simp only [unitEscape, List.cons_append, List.nil_append, readString]
  rw [hexUnit?_unitEscape (by omega)]
  simp only [hunit, hkeep, List.reverse_singleton, List.cons_append, List.nil_append]

/-- A character that needs no escape is read as it stands. -/
theorem readString_plain {c : Char} (h : strayByte? c = none) (hquote : c ≠ '"')
    (hslash : c ≠ '\\') (hcontrol : ¬ c.toNat < 0x20) (n : Nat) (acc rest : List Char) :
    readString (n + 1) acc (c :: rest) = readString n (c :: acc) rest := by
  have hplain : plainChar c rest = ([c], rest) := by simp [plainChar, keptChar?, h]
  rw [readString]
  · rw [if_neg, hplain]
    · rfl
    rintro (hlow | hc)
    · exact hcontrol hlow
    · exact hslash hc
  all_goals
    intro h
    intros
    simp_all

theorem readString_writeChar {c : Char} (h : strayByte? c = none) (n : Nat)
    (acc rest : List Char) :
    readString (n + 1) acc (writeChar c ++ rest) = readString n (c :: acc) rest := by
  unfold writeChar
  split
  case h_8 hquote hslash hnewline hreturn htab hback hfeed =>
    split
    next hescape =>
      apply readString_unitEscape
      simp only [isHtmlChar, Bool.or_eq_true, decide_eq_true_eq, beq_iff_eq] at hescape
      rcases hescape with ((hlow | (rfl | rfl) | rfl) | hline) | hline
      all_goals first | omega | decide
    next hescape =>
      rw [h, Option.isSome_none, if_neg (by decide), List.cons_append, List.nil_append]
      apply readString_plain h hquote hslash
      intro hlow
      apply hescape
      simp [hlow]
  all_goals rfl

theorem writeChar_ne_nil (c : Char) : writeChar c ≠ [] := by
  unfold writeChar
  split
  case h_8 =>
    split
    · exact List.cons_ne_nil _ _
    · split
      · exact List.cons_ne_nil _ _
      · exact List.cons_ne_nil _ _
  all_goals exact List.cons_ne_nil _ _

theorem length_le_flatMap_writeChar (cs : List Char) :
    cs.length ≤ (cs.flatMap writeChar).length := by
  induction cs with
  | nil => exact Nat.le_refl 0
  | cons c cs ih =>
    have hc := List.length_pos_iff.mpr (writeChar_ne_nil c)
    rw [List.flatMap_cons, List.length_append, List.length_cons]
    omega

theorem readString_flatMap {cs : List Char} (h : ∀ c ∈ cs, strayByte? c = none) {n : Nat}
    (hn : cs.length < n) (acc rest : List Char) :
    readString n acc (cs.flatMap writeChar ++ '"' :: rest)
      = some (String.ofList (acc.reverse ++ cs), rest) := by
  induction cs generalizing n acc with
  | nil =>
    obtain ⟨m, rfl⟩ : ∃ m, n = m + 1 := ⟨n - 1, by simp only [List.length_nil] at hn; omega⟩
    rw [List.flatMap_nil, List.nil_append, readString, List.append_nil]
  | cons c cs ih =>
    rw [List.length_cons] at hn
    obtain ⟨m, rfl⟩ : ∃ m, n = m + 1 := ⟨n - 1, by omega⟩
    rw [List.flatMap_cons, List.append_assoc, readString_writeChar (h c List.mem_cons_self),
      ih (fun d hd => h d (List.mem_cons_of_mem c hd)) (by omega), List.reverse_cons,
      List.append_assoc, List.cons_append, List.nil_append]

/-- Without stray bytes every character is written by itself. -/
theorem writeChars_of_valid {cs : List Char} (h : ∀ c ∈ cs, strayByte? c = none) :
    writeChars 0 cs = cs.flatMap writeChar := by
  induction cs with
  | nil => rfl
  | cons c cs ih =>
    have hc := h c List.mem_cons_self
    have hkept : keptChar? (c :: cs) = none := by simp [keptChar?, hc]
    rw [writeChars, hkept, List.flatMap_cons, ih fun d hd => h d (List.mem_cons_of_mem c hd)]

/-- The literal of a text is read as the text, up to its closing quote. -/
theorem readString_writeChars {s : String} (h : Valid s) {n : Nat}
    (hn : (writeChars 0 s.toList).length < n) (rest : List Char) :
    readString n [] (writeChars 0 s.toList ++ '"' :: rest) = some (s, rest) := by
  have hlength := length_le_flatMap_writeChar s.toList
  rw [writeChars_of_valid h] at hn ⊢
  rw [readString_flatMap h (by omega), List.reverse_nil, List.nil_append, String.ofList_toList]

theorem quoted_append (literal rest : List Char) :
    quoted literal ++ rest = '"' :: (literal ++ '"' :: rest) := by
  rw [quoted, List.cons_append, List.append_assoc, List.cons_append, List.nil_append]

/-- A written text behind its opening quote is read back up to its closing quote. -/
theorem readString_writeString {s : String} (h : Valid s) (rest : List Char) :
    ∃ cs, writeString s ++ rest = '"' :: cs ∧
      readString (cs.length + 1) [] cs = some (s, rest) := by
  refine ⟨writeChars 0 s.toList ++ '"' :: rest, quoted_append _ _, ?_⟩
  exact readString_writeChars h (by rw [List.length_append]; omega) rest

theorem string?_text {s : String} (h : Valid s) : string? (.text s) = some s := by
  unfold text string? literalText?
  dsimp only
  rw [String.toList_ofList, readString_writeChars h (by omega)]
  rfl

theorem Bare.text_eq {s : String} (h : Bare s) : text s = .string s := by
  have hchars : s.toList.map writeChar = s.toList.map fun c => [c] :=
    List.map_congr_left fun c hc => writeChar_of_isBare (bare_iff.mp h c hc)
  rw [text, writeChars_of_valid h.valid, List.flatMap_def, hchars, ← List.flatMap_def,
    List.flatMap_singleton', String.ofList_toList]

end Strings

section Numbers

/-- What may follow a value. -/
def Closes : List Char → Prop
  | [] => True
  | c :: _ => c = ',' ∨ c = ']' ∨ c = '}'

theorem Closes.not_digit {rest : List Char} (h : Closes rest) :
    rest.takeWhile isAsciiDigit = [] ∧ rest.dropWhile isAsciiDigit = rest := by
  cases rest with
  | nil => exact ⟨rfl, rfl⟩
  | cons c rest =>
    have hc : isAsciiDigit c = false := by
      rcases h with rfl | rfl | rfl
      all_goals rfl
    rw [List.takeWhile_cons, List.dropWhile_cons, hc]
    exact ⟨rfl, rfl⟩

theorem takeWhile_digits {rest : List Char} (h : Closes rest) (n : Nat) :
    (digits n ++ rest).takeWhile isAsciiDigit = digits n ∧
      (digits n ++ rest).dropWhile isAsciiDigit = rest := by
  have hall : ∀ c ∈ digits n, isAsciiDigit c = true := fun c hc => isAsciiDigit_of_mem_digits hc
  rw [List.takeWhile_append_of_pos hall, List.dropWhile_append_of_pos hall, h.not_digit.1,
    h.not_digit.2, List.append_nil]
  exact ⟨rfl, rfl⟩

theorem digits_eq_cons (n : Nat) : ∃ d ds, digits n = d :: ds ∧ isAsciiDigit d = true := by
  have hne : digits n ≠ [] := Nat.toDigits_ne_nil
  obtain ⟨d, ds, hds⟩ := List.exists_cons_of_ne_nil hne
  exact ⟨d, ds, hds, isAsciiDigit_of_mem_digits (hds ▸ List.mem_cons_self)⟩

theorem readWhole_digits {rest : List Char} (h : Closes rest) (n : Nat) :
    readWhole (digits n ++ rest) = some (digits n, rest) := by
  obtain ⟨htake, hdrop⟩ := takeWhile_digits h n
  unfold readWhole
  split
  next tail heq =>
    obtain ⟨d, ds, hds, -⟩ := digits_eq_cons n
    rw [hds, List.cons_append] at heq
    obtain ⟨hd, htail⟩ := List.cons.inj heq
    rw [hd] at hds
    rw [hds, ← htail, digits_eq_cons_zero hds, List.nil_append]
  next =>
    have hne : (digits n).isEmpty = false := List.isEmpty_eq_false_iff.mpr Nat.toDigits_ne_nil
    simp only [htake, hdrop, hne, Bool.false_eq_true, if_false]

theorem readFraction_closes {rest : List Char} (h : Closes rest) :
    readFraction rest = some ([], rest) := by
  unfold readFraction
  split
  next => simp [Closes] at h
  next => rfl

theorem readExponent_closes {rest : List Char} (h : Closes rest) :
    readExponent rest = some ([], rest) := by
  unfold readExponent
  split
  next e tail =>
    rw [if_neg]
    rintro (rfl | rfl)
    all_goals simp [Closes] at h
  next => rfl

/-- The digits of a natural with an optional sign in front are a number. -/
theorem readNumber_digits {rest : List Char} (h : Closes rest) (n : Nat) :
    readNumber (digits n ++ rest) = some (String.ofList (digits n), rest) ∧
      readNumber ('-' :: (digits n ++ rest)) = some (String.ofList ('-' :: digits n), rest) := by
  constructor
  · obtain ⟨d, ds, hds, hd⟩ := digits_eq_cons n
    unfold readNumber
    split
    next sign tail hpair =>
      split at hpair
      next r heq =>
        rw [hds, List.cons_append] at heq
        rw [(List.cons.inj heq).1] at hd
        exact absurd hd (by decide)
      next =>
        obtain ⟨rfl, rfl⟩ := Prod.mk.inj hpair
        simp [readWhole_digits h, readFraction_closes h, readExponent_closes h]
  · simp [readNumber, readWhole_digits h, readFraction_closes h, readExponent_closes h]

theorem readNumber_intText {rest : List Char} (h : Closes rest) (i : Int) :
    readNumber ((intText i).toList ++ rest) = some (intText i, rest) := by
  cases i with
  | ofNat n =>
    simp only [intText, natText, String.toList_ofList]
    exact (readNumber_digits h n).1
  | negSucc n =>
    have htext : intText (.negSucc n) = String.ofList ('-' :: digits (n + 1)) := by
      rw [← String.toList_inj]
      simp [intText, natText]
    rw [htext, String.toList_ofList, List.cons_append]
    exact (readNumber_digits h (n + 1)).2

end Numbers

section Values

/-- A value of null, booleans, integers, valid texts, arrays and objects, in at most the given
number of layers of arrays and objects. -/
inductive Plain : Nat → Json → Prop
  | null (n : Nat) : Plain n .null
  | bool (n : Nat) (b : Bool) : Plain n (.bool b)
  | integer (n : Nat) (i : Int) : Plain n (.ofInt i)
  | text (n : Nat) {s : String} (hs : Valid s) : Plain n (.text s)
  | array {n : Nat} {items : List Json} (hitems : ∀ v ∈ items, Plain n v) :
      Plain (n + 1) (.array items)
  | object {n : Nat} {members : List (String × Json)} (hnames : ∀ m ∈ members, Valid m.1)
      (hvalues : ∀ m ∈ members, Plain n m.2) : Plain (n + 1) (.object members)

theorem Plain.nil (n : Nat) : Plain (n + 1) (.object []) :=
  .object (by simp) (by simp)

theorem Plain.cons {n : Nat} {name : String} {v : Json} {members : List (String × Json)}
    (hname : Bare name) (hv : Plain n v) (hmembers : Plain (n + 1) (.object members)) :
    Plain (n + 1) (.object ((name, v) :: members)) := by
  cases hmembers with
  | object hnames hvalues =>
    refine .object ?_ ?_
    · rw [List.forall_mem_cons]
      exact ⟨hname.valid, hnames⟩
    · rw [List.forall_mem_cons]
      exact ⟨hv, hvalues⟩

/-- A value that is not written with a blank or a closing bracket in front. -/
def Starts (v : Json) : Prop :=
  ∃ c cs, write v = c :: cs ∧ isSpace c = false ∧ c ≠ ']'

theorem skipSpace_cons {c : Char} (h : isSpace c = false) (cs : List Char) :
    skipSpace (c :: cs) = c :: cs := by
  rw [skipSpace, List.dropWhile_cons, h]
  rfl

theorem Starts.skipSpace {v : Json} (h : Starts v) (rest : List Char) :
    skipSpace (write v ++ rest) = write v ++ rest := by
  obtain ⟨c, cs, hv, hc, -⟩ := h
  rw [hv, List.cons_append, skipSpace_cons hc]

theorem Starts.length_pos {v : Json} (h : Starts v) : 0 < (write v).length := by
  obtain ⟨c, cs, hv, -⟩ := h
  rw [hv]
  exact Nat.succ_pos _

theorem intText_cons (i : Int) :
    ∃ c cs, (intText i).toList = c :: cs ∧ (c = '-' ∨ isAsciiDigit c = true) := by
  cases i with
  | ofNat n =>
    obtain ⟨d, ds, hds, hd⟩ := digits_eq_cons n
    exact ⟨d, ds, by rw [intText, natText, String.toList_ofList, hds], Or.inr hd⟩
  | negSucc n => exact ⟨'-', digits (n + 1), by simp [intText, natText], Or.inl rfl⟩

theorem Plain.starts {n : Nat} {v : Json} (h : Plain n v) : Starts v := by
  cases h with
  | null => exact ⟨'n', _, rfl, rfl, by decide⟩
  | bool n b =>
    cases b with
    | false => exact ⟨'f', _, rfl, rfl, by decide⟩
    | true => exact ⟨'t', _, rfl, rfl, by decide⟩
  | integer n i =>
    obtain ⟨c, cs, hi, hc⟩ := intText_cons i
    refine ⟨c, cs, hi, ?_, ?_⟩
    · rcases hc with rfl | hc
      · rfl
      · rw [isAsciiDigit_iff] at hc
        rw [Bool.eq_false_iff]
        intro hspace
        simp only [isSpace, Bool.or_eq_true, beq_iff_eq] at hspace
        rcases hspace with ((rfl | rfl) | rfl) | rfl
        all_goals exact absurd hc (by decide)
    · rintro rfl
      rcases hc with hc | hc
      all_goals exact absurd hc (by decide)
  | text n hs => exact ⟨'"', _, rfl, rfl, by decide⟩
  | @array n items hitems =>
    cases items with
    | nil => exact ⟨'[', _, rfl, rfl, by decide⟩
    | cons v vs => exact ⟨'[', _, by rw [write], rfl, by decide⟩
  | @object n members hnames hvalues =>
    cases members with
    | nil => exact ⟨'\x7b', _, rfl, rfl, by decide⟩
    | cons m ms => exact ⟨'\x7b', _, by rw [write], rfl, by decide⟩

/-- The value is read back in front of whatever closes it, given two steps for each character and
room for its layers. -/
def ReadsBack (n : Nat) (v : Json) : Prop :=
  ∀ (fuel depth : Nat) (rest : List Char), 2 * (write v).length ≤ fuel → depth + n ≤ maxNesting →
    Closes rest → readValue fuel depth (write v ++ rest) = some (v, rest)

theorem readsBack_integer (n : Nat) (i : Int) : ReadsBack n (.ofInt i) := by
  intro fuel depth rest hfuel hdepth hrest
  obtain ⟨c, cs, hi, hc⟩ := intText_cons i
  have hnumber := readNumber_intText hrest i
  have hwrite : write (.ofInt i) = c :: cs := hi
  rw [hwrite, List.length_cons] at hfuel
  obtain ⟨m, rfl⟩ : ∃ m, fuel = m + 1 := ⟨fuel - 1, by omega⟩
  rw [hi, List.cons_append] at hnumber
  rw [hwrite, List.cons_append, readValue]
  · rw [hnumber]
    rfl
  all_goals
    intro r heq
    rw [(List.cons.inj heq).1] at hc
    rcases hc with hc | hc
    all_goals exact absurd hc (by decide)

theorem readsBack_text (n : Nat) {s : String} (hs : Valid s) : ReadsBack n (.text s) := by
  intro fuel depth rest hfuel hdepth hrest
  have hlength : 0 < (write (.text s)).length := (Plain.text n hs).starts.length_pos
  obtain ⟨m, rfl⟩ : ∃ m, fuel = m + 1 := ⟨fuel - 1, by omega⟩
  have hwritten : (writeChars 0 s.toList ++ '"' :: rest).length - rest.length - 1 =
      (writeChars 0 s.toList).length := by
    rw [List.length_append, List.length_cons]
    omega
  rw [text, write, String.toList_ofList, quoted_append, readValue,
    readString_writeChars hs (by rw [List.length_append]; omega), Option.map_some]
  dsimp only
  rw [hwritten, List.take_left]

theorem skipSpace_writeString (s : String) (rest : List Char) :
    skipSpace (writeString s ++ rest) = writeString s ++ rest :=
  skipSpace_cons (c := '"') rfl _

theorem closes_writeItems (vs : List Json) (rest : List Char) : Closes (writeItems vs ++ rest) := by
  cases vs with
  | nil => exact Or.inr (Or.inl rfl)
  | cons v vs => exact Or.inl rfl

theorem closes_writeMembers (ms : List (String × Json)) (rest : List Char) :
    Closes (writeMembers ms ++ rest) := by
  cases ms with
  | nil => exact Or.inr (Or.inr rfl)
  | cons m ms => exact Or.inl rfl

theorem readItems_writeItems {n : Nat} {v : Json} {vs : List Json}
    (hstarts : ∀ w ∈ v :: vs, Starts w) (hback : ∀ w ∈ v :: vs, ReadsBack n w)
    (fuel depth : Nat) (rest : List Char)
    (hfuel : 2 * ((write v).length + (writeItems vs).length) ≤ fuel)
    (hdepth : depth + n ≤ maxNesting) :
    readItems fuel depth (write v ++ (writeItems vs ++ rest)) = some (v :: vs, rest) := by
  induction vs generalizing v fuel with
  | nil =>
    have hv := (hstarts v List.mem_cons_self).length_pos
    obtain ⟨m, rfl⟩ : ∃ m, fuel = m + 1 := ⟨fuel - 1, by omega⟩
    rw [writeItems, List.length_singleton] at hfuel
    rw [readItems, hback v List.mem_cons_self m depth _ (by omega) hdepth
      (closes_writeItems [] rest)]
    rfl
  | cons w vs ih =>
    have hv := (hstarts v List.mem_cons_self).length_pos
    obtain ⟨m, rfl⟩ : ∃ m, fuel = m + 1 := ⟨fuel - 1, by omega⟩
    rw [writeItems, List.length_cons, List.length_append] at hfuel
    have htail := ih (fun x hx => hstarts x (List.mem_cons_of_mem v hx))
      (fun x hx => hback x (List.mem_cons_of_mem v hx)) m (by omega)
    rw [readItems, hback v List.mem_cons_self m depth _ (by omega) hdepth
      (closes_writeItems (w :: vs) rest)]
    rw [writeItems, List.cons_append, List.append_assoc]
    simp only [skipSpace_cons (c := ',') rfl]
    rw [(hstarts w (by simp)).skipSpace, htail]
    rfl

theorem readMembers_writeMembers {n : Nat} {m : String × Json} {ms : List (String × Json)}
    (hnames : ∀ w ∈ m :: ms, Valid w.1) (hstarts : ∀ w ∈ m :: ms, Starts w.2)
    (hback : ∀ w ∈ m :: ms, ReadsBack n w.2) (fuel depth : Nat) (rest : List Char)
    (hfuel : 2 * ((writeString m.1).length + (write m.2).length + (writeMembers ms).length) ≤ fuel)
    (hdepth : depth + n ≤ maxNesting) :
    readMembers fuel depth
        (writeString m.1 ++ ':' :: (write m.2 ++ (writeMembers ms ++ rest)))
      = some (m :: ms, rest) := by
  induction ms generalizing m fuel with
  | nil =>
    have hm := (hstarts m List.mem_cons_self).length_pos
    obtain ⟨k, rfl⟩ : ∃ k, fuel = k + 1 := ⟨fuel - 1, by omega⟩
    rw [writeMembers, List.length_singleton] at hfuel
    obtain ⟨cs, hcs, hread⟩ := readString_writeString (hnames m List.mem_cons_self)
      (':' :: (write m.2 ++ (writeMembers [] ++ rest)))
    rw [hcs, readMembers, hread]
    simp only [skipSpace_cons (c := ':') rfl]
    rw [(hstarts m List.mem_cons_self).skipSpace,
      hback m List.mem_cons_self k depth _ (by omega) hdepth (closes_writeMembers [] rest)]
    rfl
  | cons w ms ih =>
    have hm := (hstarts m List.mem_cons_self).length_pos
    obtain ⟨k, rfl⟩ : ∃ k, fuel = k + 1 := ⟨fuel - 1, by omega⟩
    rw [writeMembers, List.length_cons, List.length_append, List.length_cons,
      List.length_append] at hfuel
    have htail := ih (fun x hx => hnames x (List.mem_cons_of_mem m hx))
      (fun x hx => hstarts x (List.mem_cons_of_mem m hx))
      (fun x hx => hback x (List.mem_cons_of_mem m hx)) k (by omega)
    obtain ⟨cs, hcs, hread⟩ := readString_writeString (hnames m List.mem_cons_self)
      (':' :: (write m.2 ++ (writeMembers (w :: ms) ++ rest)))
    rw [hcs, readMembers, hread]
    simp only [skipSpace_cons (c := ':') rfl]
    rw [(hstarts m List.mem_cons_self).skipSpace,
      hback m List.mem_cons_self k depth _ (by omega) hdepth (closes_writeMembers (w :: ms) rest)]
    rw [writeMembers, List.cons_append, List.append_assoc, List.cons_append, List.append_assoc]
    simp only [skipSpace_cons (c := ',') rfl]
    rw [skipSpace_writeString, htail]
    rfl

theorem readsBack_array {n : Nat} {items : List Json} (hstarts : ∀ v ∈ items, Starts v)
    (hback : ∀ v ∈ items, ReadsBack n v) : ReadsBack (n + 1) (.array items) := by
  intro fuel depth rest hfuel hdepth hrest
  have hroom : ¬ maxNesting ≤ depth := by omega
  cases items with
  | nil =>
    rw [write, List.length_cons] at hfuel
    obtain ⟨m, rfl⟩ : ∃ m, fuel = m + 1 := ⟨fuel - 1, by omega⟩
    rw [write, List.cons_append, readValue, if_neg hroom]
    rfl
  | cons v vs =>
    rw [write, List.length_cons, List.length_append] at hfuel
    obtain ⟨m, rfl⟩ : ∃ m, fuel = m + 1 := ⟨fuel - 1, by omega⟩
    have hread := readItems_writeItems hstarts hback m (depth + 1) rest (by omega) (by omega)
    rw [write, List.cons_append, List.append_assoc, readValue, if_neg hroom,
      (hstarts v List.mem_cons_self).skipSpace]
    split
    next r heq =>
      obtain ⟨c, cs, hv, -, hbracket⟩ := hstarts v List.mem_cons_self
      rw [hv, List.cons_append] at heq
      exact absurd (List.cons.inj heq).1 hbracket
    next =>
      rw [hread]
      rfl

theorem readsBack_object {n : Nat} {members : List (String × Json)}
    (hnames : ∀ m ∈ members, Valid m.1) (hstarts : ∀ m ∈ members, Starts m.2)
    (hback : ∀ m ∈ members, ReadsBack n m.2) : ReadsBack (n + 1) (.object members) := by
  intro fuel depth rest hfuel hdepth hrest
  have hroom : ¬ maxNesting ≤ depth := by omega
  cases members with
  | nil =>
    rw [write, List.length_cons] at hfuel
    obtain ⟨k, rfl⟩ : ∃ k, fuel = k + 1 := ⟨fuel - 1, by omega⟩
    rw [write, List.cons_append, readValue, if_neg hroom]
    rfl
  | cons m ms =>
    rw [write, List.length_cons, List.length_append, List.length_cons, List.length_append] at hfuel
    obtain ⟨k, rfl⟩ : ∃ k, fuel = k + 1 := ⟨fuel - 1, by omega⟩
    have hread := readMembers_writeMembers hnames hstarts hback k (depth + 1) rest (by omega)
      (by omega)
    rw [write, List.cons_append, List.append_assoc, List.cons_append, List.append_assoc, readValue,
      if_neg hroom, skipSpace_writeString]
    split
    next r heq => exact absurd (List.cons.inj heq).1 (by decide)
    next =>
      rw [hread]
      rfl

theorem Plain.readsBack {n : Nat} {v : Json} (h : Plain n v) : ReadsBack n v := by
  induction h with
  | null n =>
    intro fuel depth rest hfuel hdepth hrest
    have hlength := (Plain.null n).starts.length_pos
    obtain ⟨m, rfl⟩ : ∃ m, fuel = m + 1 := ⟨fuel - 1, by omega⟩
    rfl
  | bool n b =>
    intro fuel depth rest hfuel hdepth hrest
    have hlength := (Plain.bool n b).starts.length_pos
    obtain ⟨m, rfl⟩ : ∃ m, fuel = m + 1 := ⟨fuel - 1, by omega⟩
    cases b with
    | false => rfl
    | true => rfl
  | integer n i => exact readsBack_integer n i
  | text n hs => exact readsBack_text n hs
  | array hitems ih => exact readsBack_array (fun v hv => (hitems v hv).starts) ih
  | object hnames hvalues ih =>
    exact readsBack_object hnames (fun m hm => (hvalues m hm).starts) ih

/-- A plain value that is not nested too deep is what its text stands for. -/
theorem parse?_render {n : Nat} {v : Json} (h : Plain n v) (hn : n ≤ maxNesting) :
    parse? (render v) = some v := by
  have hskip := h.starts.skipSpace []
  have hread := h.readsBack (2 * (write v).length + 2) 0 [] (by omega) (by omega) trivial
  rw [List.append_nil] at hskip hread
  simp only [parse?, render, String.toList_ofList, hskip, hread]
  rfl

end Values

section Records

variable {α : Type}

/-- The first member of an object is read by the field of its name, and the others after it. -/
theorem recordOver?_cons (fields : Reads α) (name : String)
    {field : String × (α → Json → Option α)}
    (hfield : (fields.find? fun x => sameName x.1 name) = some field) (old : α) (j : Json)
    (members : List (String × Json)) :
    recordOver? fields old (.object ((name, j) :: members))
      = (field.2 old j).bind fun a => recordOver? fields a (.object members) := by
  simp only [recordOver?, List.foldlM_cons, hfield]
  rfl

theorem recordOver?_nil (fields : Reads α) (old : α) :
    recordOver? fields old (.object []) = some old := rfl

theorem over?_text {s : String} (h : Valid s) (old : String) :
    over? string? old (.text s) = some s := string?_text h

theorem over?_int {i : Int} (h : fitsInt64 i = true) (old : Int) :
    over? int? old (.ofInt i) = some i := by
  simp only [over?, int?, ofInt, int?_intText h]

end Records

end Json

end Synthesis
