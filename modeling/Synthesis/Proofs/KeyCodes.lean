import Synthesis.Proofs.Keys
import Synthesis.Proofs.WholeTexts

/-!
Keys tell apart what they are made of. In the encoding of nested arrays of texts every length
stands before what it is the length of, in one of five forms that the initial byte announces; so
from the bytes of an array, whatever follows them, the array can be told. The parts of keys of
solutions and of strategy choices are such arrays: their bytes are equal only when the parts are.
-/
namespace Synthesis

namespace Text

/-- A text as a sequence of bytes, so many that their number can be written. -/
structure Encodable (s : String) : Prop where
  whole : Whole s
  length_lt : (utf8 s).length < Nat.pow 2 64

theorem encodable_of_valid {s : String} (h : Valid s ∧ (utf8 s).length < Nat.pow 2 64) :
    Encodable s :=
  ⟨h.1.whole, h.2⟩

/-- Any bytes are a text, whether they are characters or not. -/
theorem encodable_ofUtf8 {bs : List Nat} (hbytes : ∀ b ∈ bs, b < 0x100)
    (hlength : bs.length < Nat.pow 2 64) : Encodable (ofUtf8 bs) :=
  ⟨whole_ofUtf8 hbytes, by rwa [utf8_ofUtf8 hbytes]⟩

end Text

namespace Cbor

section Head

variable {major major' n n' : Nat} {xs ys : Bytes}

theorem bigEndian_inj {width : Nat} (hn : n < 256 ^ width) (hn' : n' < 256 ^ width)
    (h : bigEndian width n = bigEndian width n') : n = n' := by
  induction width generalizing n n' with
  | zero =>
    rw [Nat.pow_zero] at hn hn'
    omega
  | succ width ih =>
    rw [bigEndian, bigEndian] at h
    obtain ⟨hhigh, hlow⟩ := List.append_inj' h rfl
    have hbyte := congrArg UInt8.toNat (List.cons.inj hlow).1
    simp only [UInt8.toNat_ofNat'] at hbyte
    rw [Nat.pow_succ] at hn hn'
    have hrest := ih (Nat.div_lt_of_lt_mul (by omega)) (Nat.div_lt_of_lt_mul (by omega)) hhigh
    omega

theorem info_of_lt (h : info n < 24) : n = info n := by
  unfold info at h ⊢
  split_ifs at h ⊢ <;> omega

/-- A number that is not told by the initial byte fits in the bytes that follow. -/
theorem lt_of_le_info (hn : n < Nat.pow 2 64) (h : 24 ≤ info n) :
    n < 256 ^ following (info n) := by
  unfold info at h ⊢
  split_ifs at h ⊢ with hone htwo hfour height
  · omega
  · exact htwo
  · exact hfour
  · exact height
  · exact hn

theorem info_eq_of_head (h : head major n ++ xs = head major' n' ++ ys) (hm : major < 8)
    (hm' : major' < 8) : major = major' ∧ info n = info n' := by
  rw [head_eq, head_eq, List.cons_append, List.cons_append] at h
  have hbyte := congrArg UInt8.toNat (List.cons.inj h).1
  simp only [UInt8.toNat_ofNat'] at hbyte
  have hinfo := info_lt n
  have hinfo' := info_lt n'
  omega

/-- In front of anything, the head tells its number. -/
theorem head_append_inj_of_lt (hm : major < 8) (hn : n < Nat.pow 2 64) (hn' : n' < Nat.pow 2 64)
    (h : head major n ++ xs = head major n' ++ ys) : n = n' ∧ xs = ys := by
  obtain ⟨_, hinfo⟩ := info_eq_of_head h hm hm
  obtain ⟨hhead, hrest⟩ := head_append_inj h
  refine ⟨?_, hrest⟩
  by_cases hsmall : info n < 24
  · rw [info_of_lt hsmall, hinfo, ← info_of_lt (hinfo ▸ hsmall)]
  · rw [head_eq, head_eq, ← hinfo] at hhead
    have hlarge := lt_of_le_info hn (by omega)
    have hlarge' := lt_of_le_info hn' (by omega)
    rw [← hinfo] at hlarge'
    exact bigEndian_inj hlarge hlarge' (List.cons.inj hhead).2

end Head

/-- Made of texts and arrays of such values, nested at any depth, with lengths that can be
written. -/
inductive Wordy : Cbor → Prop
  | text {s : String} (h : Text.Encodable s) : Wordy (.text s)
  | array {items : List Cbor} (hcount : items.length < Nat.pow 2 64)
      (h : ∀ c ∈ items, Wordy c) : Wordy (.array items)

theorem length_utf8 (s : String) : (utf8 s).length = (Text.utf8 s).length := List.length_map _

theorem encodeText_append_inj {s t : String} (hs : Text.Encodable s) (ht : Text.Encodable t)
    {xs ys : Bytes} (h : encodeText s ++ xs = encodeText t ++ ys) : s = t ∧ xs = ys := by
  rw [encodeText, encodeText, List.append_assoc, List.append_assoc] at h
  obtain ⟨hlength, hrest⟩ := head_append_inj_of_lt (by decide)
    (length_utf8 s ▸ hs.length_lt) (length_utf8 t ▸ ht.length_lt) h
  obtain ⟨hbytes, hafter⟩ := List.append_inj hrest hlength
  exact ⟨eq_of_utf8 hs.whole ht.whole hbytes, hafter⟩

theorem encode_text_append_ne (s : String) (items : List Cbor) (xs ys : Bytes) :
    encode (.text s) ++ xs ≠ encode (.array items) ++ ys := by
  intro h
  rw [encode, encode, encodeText, List.append_assoc, List.append_assoc] at h
  have hmajor := (info_eq_of_head h (by decide) (by decide)).1
  cases hmajor

/-- Items of which each can be told, whatever follows it, can be told all. -/
theorem encodeItems_append_inj {items items' : List Cbor} (hlength : items.length = items'.length)
    (hitem : ∀ c ∈ items, ∀ c' ∈ items', ∀ xs ys,
      encode c ++ xs = encode c' ++ ys → c = c' ∧ xs = ys) {xs ys : Bytes}
    (h : (encodeItems items).flatten ++ xs = (encodeItems items').flatten ++ ys) :
    items = items' ∧ xs = ys := by
  induction items generalizing items' with
  | nil =>
    obtain rfl := List.eq_nil_of_length_eq_zero hlength.symm
    exact ⟨rfl, h⟩
  | cons c items ih =>
    cases items' with
    | nil => cases hlength
    | cons c' items' =>
      rw [encodeItems, encodeItems, List.flatten_cons, List.flatten_cons, List.append_assoc,
        List.append_assoc] at h
      obtain ⟨rfl, hrest⟩ := hitem c List.mem_cons_self c' List.mem_cons_self _ _ h
      obtain ⟨rfl, hafter⟩ := ih (Nat.succ.inj hlength)
        (fun a ha b hb => hitem a (List.mem_cons_of_mem c ha) b (List.mem_cons_of_mem c hb)) hrest
      exact ⟨rfl, hafter⟩

/-- The bytes of nested texts tell the value, whatever follows them. -/
theorem Wordy.encode_append_inj {c c' : Cbor} (h : Wordy c) (h' : Wordy c') {xs ys : Bytes}
    (heq : encode c ++ xs = encode c' ++ ys) : c = c' ∧ xs = ys := by
  induction h generalizing c' xs ys with
  | @text s hs =>
    cases h' with
    | @text t ht =>
      rw [encode, encode] at heq
      obtain ⟨rfl, hafter⟩ := encodeText_append_inj hs ht heq
      exact ⟨rfl, hafter⟩
    | array => exact absurd heq (encode_text_append_ne _ _ _ _)
  | @array items hcount _ ih =>
    cases h' with
    | text => exact absurd heq.symm (encode_text_append_ne _ _ _ _)
    | @array items' hcount' hitems' =>
      rw [encode, encode, List.append_assoc, List.append_assoc] at heq
      obtain ⟨hlength, hrest⟩ := head_append_inj_of_lt (by decide) hcount hcount' heq
      obtain ⟨rfl, hafter⟩ := encodeItems_append_inj hlength
        (fun a ha b hb _ _ hab => ih a ha (hitems' b hb) hab) hrest
      exact ⟨rfl, hafter⟩

theorem wordy_texts {xs : List String} (hcount : xs.length < Nat.pow 2 64)
    (h : ∀ x ∈ xs, Text.Encodable x) : Wordy (texts xs) := by
  refine .array (by rwa [List.length_map]) fun c hc => ?_
  obtain ⟨x, hx, rfl⟩ := List.mem_map.mp hc
  exact .text (h x hx)

theorem texts_inj {xs ys : List String} (h : texts xs = texts ys) : xs = ys :=
  List.map_injective_iff.mpr (fun _ _ heq => Cbor.text.inj heq) (Cbor.array.inj h)

end Cbor

namespace Specification

/-- What is told of a specification by its keys can be written. -/
structure Encodable (s : Specification) : Prop where
  description : Text.Encodable s.description
  typeSignature : Text.Encodable s.typeSignature
  constraints : ∀ x ∈ s.constraintList, Text.Encodable x
  count : s.constraintList.length < Nat.pow 2 64

theorem sameTask_iff {s s' : Specification} :
    s.SameTask s' ↔ s.description = s'.description ∧ s.typeSignature = s'.typeSignature ∧
      Cbor.texts s.constraintList = Cbor.texts s'.constraintList :=
  ⟨fun h => ⟨h.description, h.typeSignature, congrArg Cbor.texts h.constraints⟩,
    fun h => ⟨h.1, h.2.1, Cbor.texts_inj h.2.2⟩⟩

end Specification

namespace Key

/-- What a key is made for: a solution in a context, or the choice of a strategy. -/
inductive Subject where
  | solution (s : Specification) (contextKey : String)
  | strategy (s : Specification)

namespace Subject

def key : Subject → String
  | .solution s contextKey => solutionKey s contextKey
  | .strategy s => strategyKey s

def parts : Subject → List Cbor
  | .solution s contextKey => solutionParts s contextKey
  | .strategy s => strategyParts s

/-- The bytes of which the key is the digest. -/
def bytes (k : Subject) : Bytes := encoding k.parts

theorem key_eq (k : Subject) : k.key = ofBytes k.bytes := by
  cases k with
  | solution s contextKey => rfl
  | strategy s => rfl

def Encodable : Subject → Prop
  | .solution s contextKey => s.Encodable ∧ Text.Encodable contextKey
  | .strategy s => s.Encodable

/-- Made for the same: the kind, the task and for a solution the context. -/
def Same : Subject → Subject → Prop
  | .solution s contextKey, .solution s' contextKey' => s.SameTask s' ∧ contextKey = contextKey'
  | .strategy s, .strategy s' => s.SameTask s'
  | _, _ => False

/-- The parts of a key are nested texts. -/
theorem Encodable.wordy {k : Subject} (h : k.Encodable) : Cbor.Wordy (.array k.parts) := by
  cases k with
  | solution s contextKey =>
    obtain ⟨hs, hcontext⟩ := h
    refine .array (show 5 < Nat.pow 2 64 by decide) ?_
    simp only [parts, solutionParts, List.forall_mem_cons, List.not_mem_nil]
    exact ⟨.text (Text.encodable_of_valid (by decide)), .text hs.description,
      .text hs.typeSignature, Cbor.wordy_texts hs.count hs.constraints, .text hcontext, by simp⟩
  | strategy s =>
    have hs : s.Encodable := h
    refine .array (show 4 < Nat.pow 2 64 by decide) ?_
    simp only [parts, strategyParts, List.forall_mem_cons, List.not_mem_nil]
    exact ⟨.text (Text.encodable_of_valid (by decide)), .text hs.description,
      .text hs.typeSignature, Cbor.wordy_texts hs.count hs.constraints, by simp⟩

theorem parts_eq_iff {k k' : Subject} : k.parts = k'.parts ↔ k.Same k' := by
  cases k with
  | solution s contextKey =>
    cases k' with
    | solution s' contextKey' =>
      simp [parts, solutionParts, Same, Specification.sameTask_iff, and_assoc]
    | strategy s' => simp [parts, solutionParts, strategyParts, Same]
  | strategy s =>
    cases k' with
    | solution s' contextKey' => simp [parts, solutionParts, strategyParts, Same]
    | strategy s' => simp [parts, strategyParts, Same, Specification.sameTask_iff]

/-- A key is the digest of bytes, and the bytes behind two keys are equal just when the keys are of
one kind and made for the same description, type signature, constraints and, for solutions,
context. -/
theorem bytes_eq_iff_same (k k' : Subject) (h : k.Encodable) (h' : k'.Encodable) :
    k.key = ofBytes k.bytes ∧ (k.bytes = k'.bytes ↔ k.Same k') := by
  refine ⟨k.key_eq, ?_⟩
  rw [← parts_eq_iff]
  constructor
  · intro heq
    have hfollowed : Cbor.encode (.array k.parts) ++ [] = Cbor.encode (.array k'.parts) ++ [] :=
      congrArg (· ++ []) heq
    exact Cbor.array.inj (h.wordy.encode_append_inj h'.wordy hfollowed).1
  · intro hparts
    rw [bytes, bytes, hparts]

/-- Two constraints, and one that is written with the same letters. -/
def apart : Specification := { description := "sum", constraints := some ["a", "b"] }

def joined : Specification := { description := "sum", constraints := some ["ab"] }

/-- A description that need not be made of characters. -/
def raw (bs : List Nat) : Specification := { description := Text.ofUtf8 bs }

theorem bytes_eq_iff_same_apart :
    (solution apart "k").bytes ≠ (solution joined "k").bytes ∧
      (solution apart "k").bytes ≠ (strategy apart).bytes ∧
      (strategy (raw [0x80])).bytes ≠ (strategy (raw [0xF4, 0x8F, 0x9E, 0x80])).bytes ∧
      (strategy (raw [0x80])).bytes =
        (strategy { raw [0x80] with constraints := some [] }).bytes := by
  have hsum : Text.Encodable "sum" := Text.encodable_of_valid (by decide)
  have hempty : Text.Encodable "" := Text.encodable_of_valid (by decide)
  have hkey : Text.Encodable "k" := Text.encodable_of_valid (by decide)
  have happart : apart.Encodable := by
    refine ⟨hsum, hempty, ?_, by decide⟩
    change ∀ x ∈ ["a", "b"], Text.Encodable x
    simp only [List.forall_mem_cons]
    exact ⟨Text.encodable_of_valid (by decide), Text.encodable_of_valid (by decide), by simp⟩
  have hjoined : joined.Encodable := by
    refine ⟨hsum, hempty, ?_, by decide⟩
    change ∀ x ∈ ["ab"], Text.Encodable x
    simp only [List.forall_mem_cons]
    exact ⟨Text.encodable_of_valid (by decide), by simp⟩
  have hstray : Text.Encodable (Text.ofUtf8 [0x80]) := Text.encodable_ofUtf8 (by decide) (by decide)
  have hprivate : Text.Encodable (Text.ofUtf8 [0xF4, 0x8F, 0x9E, 0x80]) :=
    Text.encodable_ofUtf8 (by decide) (by decide)
  have hraw : ∀ {bs}, Text.Encodable (Text.ofUtf8 bs) → (raw bs).Encodable := fun h =>
    ⟨h, hempty, fun x hx => absurd hx List.not_mem_nil, show 0 < Nat.pow 2 64 by decide⟩
  refine ⟨fun heq => ?_, fun heq => ?_, fun heq => ?_, ?_⟩
  · have hsame := (bytes_eq_iff_same (solution apart "k") (solution joined "k")
      ⟨happart, hkey⟩ ⟨hjoined, hkey⟩).2.mp heq
    have hlength : 2 = 1 := congrArg List.length hsame.1.constraints
    cases hlength
  · exact (bytes_eq_iff_same (solution apart "k") (strategy apart) ⟨happart, hkey⟩
      happart).2.mp heq
  · have hsame :=
      (bytes_eq_iff_same (strategy _) (strategy _) (hraw hstray) (hraw hprivate)).2.mp heq
    have hbytes := congrArg Text.utf8 hsame.description
    rw [raw, raw, Text.utf8_ofUtf8 (by decide), Text.utf8_ofUtf8 (by decide)] at hbytes
    cases hbytes
  · exact (bytes_eq_iff_same (strategy _) (strategy _) (hraw hstray)
      ⟨hstray, hempty, fun x hx => absurd hx List.not_mem_nil, by decide⟩).2.mpr ⟨rfl, rfl, rfl⟩

end Subject

end Key

end Synthesis
