import Synthesis.Store.Keyed
import Synthesis.Proofs.Calls
import Mathlib.Data.List.Nodup
import Mathlib.Tactic.SplitIfs

/-!
Keys and the order of content. The names of a context are sorted and the entries of a map stand in
the order of their encoded keys, so a key does not show in which order its content was entered.
Sorting forgets the order as soon as no two members are equal in it; encoded texts are equal only
when their bytes are.
-/
namespace Synthesis

section Order

variable {α : Type}

/-- A sorted list does not show the order it was in, if no two members are equal in the order
of sorting. -/
theorem mergeSort_eq_of_perm {le : α → α → Bool} {xs ys : List α}
    (htrans : ∀ a b c, le a b = true → le b c = true → le a c = true)
    (htotal : ∀ a b, (le a b || le b a) = true)
    (hanti : ∀ a ∈ xs, ∀ b ∈ xs, le a b = true → le b a = true → a = b) (hperm : xs.Perm ys) :
    xs.mergeSort le = ys.mergeSort le := by
  have hsorted := List.pairwise_mergeSort htrans htotal
  refine List.Perm.eq_of_pairwise ?_ (hsorted xs) (hsorted ys) ?_
  · intro a b ha hb
    rw [List.mem_mergeSort] at ha hb
    exact hanti a ha b (hperm.mem_iff.mpr hb)
  · exact (List.mergeSort_perm xs le).trans (hperm.trans (List.mergeSort_perm ys le).symm)

end Order

namespace Text

theorem charsLe_eq_lexLe (as bs : List Char) : charsLe as bs = lexLe Char.toNat as bs := by
  induction as generalizing bs with
  | nil => rfl
  | cons a as ih =>
    cases bs with
    | nil => rfl
    | cons b bs => rw [charsLe, lexLe, ih]

theorem sort_eq_of_perm {xs ys : List String} (h : xs.Perm ys) : sort xs = sort ys := by
  apply mergeSort_eq_of_perm
  · intro a b c
    simp only [le, charsLe_eq_lexLe]
    exact lexLe_trans Char.toNat
  · intro a b
    simp only [le, charsLe_eq_lexLe]
    exact lexLe_total Char.toNat _ _
  · intro a _ b _
    simp only [le, charsLe_eq_lexLe]
    intro hab hba
    have hchars := lexLe_antisymm (fun _ _ => Char.toNat_inj.mp) hab hba
    exact String.toList_inj.mp hchars
  · exact h

end Text

namespace Cbor

theorem bytesLe_eq_lexLe (as bs : Bytes) : bytesLe as bs = lexLe UInt8.toNat as bs := by
  induction as generalizing bs with
  | nil => rfl
  | cons a as ih =>
    cases bs with
    | nil => rfl
    | cons b bs => rw [bytesLe, lexLe, ih]

/-- Bytes that differ leave one order to what is sorted by them. -/
theorem sortedByBytes_eq_of_perm {α : Type} (code : α → Bytes) {xs ys : List α}
    (hcode : ∀ a ∈ xs, ∀ b ∈ xs, code a = code b → a = b) (hperm : xs.Perm ys) :
    (xs.mergeSort fun a b => bytesLe (code a) (code b)) =
      ys.mergeSort fun a b => bytesLe (code a) (code b) := by
  apply mergeSort_eq_of_perm
  · intro a b c
    simp only [bytesLe_eq_lexLe]
    exact lexLe_trans UInt8.toNat
  · intro a b
    simp only [bytesLe_eq_lexLe]
    exact lexLe_total UInt8.toNat _ _
  · intro a ha b hb
    simp only [bytesLe_eq_lexLe]
    intro hab hba
    exact hcode a ha b hb (lexLe_antisymm (fun _ _ => UInt8.toNat_inj.mp) hab hba)
  · exact hperm

theorem length_bigEndian (width n : Nat) : (bigEndian width n).length = width := by
  induction width generalizing n with
  | zero => rfl
  | succ width ih => rw [bigEndian, List.length_append, ih]; rfl

/-- What the initial byte tells of a number: itself, or how many bytes it takes. -/
def info (n : Nat) : Nat :=
  if n < 24 then n else if n < Nat.pow 2 8 then 24 else if n < Nat.pow 2 16 then 25
  else if n < Nat.pow 2 32 then 26 else 27

/-- How many bytes follow the initial one. -/
def following (info : Nat) : Nat :=
  if info = 24 then 1 else if info = 25 then 2 else if info = 26 then 4
  else if info = 27 then 8 else 0

theorem info_lt (n : Nat) : info n < 32 := by
  unfold info
  split_ifs <;> omega

theorem head_eq (major n : Nat) :
    head major n = UInt8.ofNat (32 * major + info n) :: bigEndian (following (info n)) n := by
  unfold head info
  dsimp only
  split_ifs with hn
  · have hnone : following n = 0 := by
      unfold following
      repeat' rw [if_neg (by omega)]
    rw [hnone, bigEndian]
  all_goals rfl

/-- The initial byte tells how long the head is, so what follows the head can be told. -/
theorem head_append_inj {major n n' : Nat} {xs ys : Bytes}
    (h : head major n ++ xs = head major n' ++ ys) : head major n = head major n' ∧ xs = ys := by
  have hlength : (head major n).length = (head major n').length := by
    rw [head_eq, head_eq, List.cons_append, List.cons_append] at h
    have hbyte := congrArg UInt8.toNat (List.cons.inj h).1
    simp only [UInt8.toNat_ofNat'] at hbyte
    have hn := info_lt n
    have hn' := info_lt n'
    have hsame : info n = info n' := by omega
    rw [head_eq, head_eq, List.length_cons, List.length_cons, length_bigEndian, length_bigEndian,
      hsame]
  exact List.append_inj h hlength

theorem utf8_eq_of_encode_text {s t : String} (h : encode (.text s) = encode (.text t)) :
    utf8 s = utf8 t := by
  rw [encode, encode, encodeText, encodeText] at h
  exact (head_append_inj h).2

theorem encodeEntries_eq_map (entries : List (Cbor × Cbor)) :
    encodeEntries entries = entries.map fun x => (encode x.1, encode x.2) := by
  induction entries with
  | nil => rfl
  | cons x rest ih =>
    rw [encodeEntries, ih]
    rfl

/-- The bytes of a map with these encoded entries. -/
def mapCode (codes : List (Bytes × Bytes)) : Bytes :=
  head 5 codes.length ++ (sortEntries codes).flatMap fun x => x.1 ++ x.2

theorem encode_map (entries : List (Cbor × Cbor)) :
    encode (.map entries) = mapCode (entries.map fun x => (encode x.1, encode x.2)) := by
  rw [encode, encodeEntries_eq_map, mapCode, List.length_map]

theorem mapCode_of_perm {codes codes' : List (Bytes × Bytes)}
    (hkeys : ∀ a ∈ codes, ∀ b ∈ codes, a.1 = b.1 → a = b) (hperm : codes.Perm codes') :
    mapCode codes = mapCode codes' := by
  have hsorted : sortEntries codes = sortEntries codes' := sortedByBytes_eq_of_perm _ hkeys hperm
  rw [mapCode, mapCode, hsorted, hperm.length_eq]

/-- The bytes of a map do not show in which order its entries were given. -/
theorem encode_map_of_perm {entries entries' : List (Cbor × Cbor)}
    (hkeys : (entries.map fun x => encode x.1).Nodup) (hperm : entries.Perm entries') :
    encode (.map entries) = encode (.map entries') := by
  rw [encode_map, encode_map]
  refine mapCode_of_perm (fun a ha b hb hkey => ?_) (hperm.map _)
  obtain ⟨x, hx, rfl⟩ := List.mem_map.mp ha
  obtain ⟨y, hy, rfl⟩ := List.mem_map.mp hb
  rw [List.inj_on_of_nodup_map hkeys hx hy hkey]

end Cbor

namespace Table

variable {α : Type} {t t' : Table α}

/-- Names are told apart by their bytes. -/
def Proper (t : Table α) : Prop := (t.names.map Cbor.utf8).Nodup

theorem nodup_entries (t : Table α) : t.entries.Nodup := List.Nodup.of_map _ t.nodup

theorem find_of_mem {name : String} {value : α} {entries : List (String × α)}
    (hnames : (entries.map (·.1)).Nodup) (h : (name, value) ∈ entries) :
    find name entries = some value := by
  induction entries with
  | nil => cases h
  | cons x rest ih =>
    rw [List.map_cons, List.nodup_cons] at hnames
    rw [find]
    rcases List.mem_cons.mp h with rfl | hrest
    · exact if_pos rfl
    · have hne : x.1 ≠ name := fun heq => hnames.1 (heq ▸ List.mem_map_of_mem hrest)
      rw [if_neg hne]
      exact ih hnames.2 hrest

theorem mem_entries_iff {name : String} {value : α} :
    (name, value) ∈ t.entries ↔ t.get? name = some value :=
  ⟨find_of_mem t.nodup, mem_of_find_eq_some⟩

/-- Tables in which the same is found have the same entries. -/
theorem perm_of_get?_eq (hget : ∀ name, t.get? name = t'.get? name) :
    t.entries.Perm t'.entries := by
  rw [List.perm_ext_iff_of_nodup t.nodup_entries t'.nodup_entries]
  rintro ⟨name, value⟩
  rw [mem_entries_iff, mem_entries_iff, hget]

end Table

namespace Context

variable {c c' : Context}

/-- The same primitives, library names and solved descriptions with their solutions. -/
structure SameContent (c c' : Context) : Prop where
  primitives : ∀ name, name ∈ c.primitives ↔ name ∈ c'.primitives
  library : ∀ name, name ∈ c.library.names ↔ name ∈ c'.library.names
  solved : ∀ name, c.solved.get? name = c'.solved.get? name

/-- The key of a context does not show how its content was put together. -/
theorem contentKey_congr (h : c.solved.Proper) (hsame : c.SameContent c') :
    c.contentKey = c'.contentKey := by
  have hprimitives : Text.sort (Text.distinct c.primitives) =
      Text.sort (Text.distinct c'.primitives) := by
    apply Text.sort_eq_of_perm
    rw [List.perm_ext_iff_of_nodup (Text.nodup_distinct _) (Text.nodup_distinct _)]
    intro name
    rw [Text.mem_distinct, Text.mem_distinct, hsame.primitives]
  have hlibrary : c.library.sortedNames = c'.library.sortedNames := by
    apply Text.sort_eq_of_perm
    rw [List.perm_ext_iff_of_nodup c.library.nodup_names c'.library.nodup_names]
    exact hsame.library
  have hsolved : Cbor.encode (.map (c.solved.entries.map fun x => (.text x.1, x.2.cbor))) =
      Cbor.encode (.map (c'.solved.entries.map fun x => (.text x.1, x.2.cbor))) := by
    apply Cbor.encode_map_of_perm
    · have hapart : (c.solved.entries.map fun x => Cbor.encode (.text x.1)).Nodup := by
        have hbytes : (c.solved.entries.map fun x => Cbor.utf8 x.1).Nodup := by
          simpa [Table.Proper, Table.names, Function.comp_def] using h
        rw [List.nodup_iff_pairwise_ne, List.pairwise_map] at hbytes ⊢
        exact hbytes.imp fun hne heq => hne (Cbor.utf8_eq_of_encode_text heq)
      simpa [Function.comp_def] using hapart
    · exact (Table.perm_of_get?_eq hsame.solved).map _
  unfold contentKey Key.ofParts Key.encoding
  rw [hprimitives, hlibrary]
  simp only [Cbor.encode, Cbor.encodeItems] at hsolved ⊢
  rw [hsolved]
  simp only [List.length_cons]

end Context

namespace Specification

/-- What keys tell apart: the description, the type signature and the constraints, where an absent
list of constraints counts as empty. -/
structure SameTask (s s' : Specification) : Prop where
  description : s.description = s'.description
  typeSignature : s.typeSignature = s'.typeSignature
  constraints : s.constraintList = s'.constraintList

theorem solutionKey_congr {s s' : Specification} (h : s.SameTask s') (contextKey : String) :
    solutionKey s contextKey = solutionKey s' contextKey := by
  unfold solutionKey solutionParts
  rw [h.description, h.typeSignature, h.constraints]

end Specification

end Synthesis
