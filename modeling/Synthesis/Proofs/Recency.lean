import Synthesis.Journal
import Synthesis.Proofs.ByteOrder
import Synthesis.Proofs.Instants
import Synthesis.Proofs.Keys
import Mathlib.Data.List.Perm.Basic

/-!
The journal returns the newest records first. Its entries stand in the order of their keys, so
walking them backwards meets the records from the latest instant to the earliest, and those of one
instant by decreasing id, in whatever order they were entered. Each record is read back from its
text as it was entered, but for the seconds of its offset: they are not written, so that a record
of an offset with seconds comes back with another instant. A time whose offset is a day or more is
not entered at all. Other entries do not get in the way, for all keys of records stand together.
-/
namespace Synthesis

namespace OrderedMap

variable {α : Type}

theorem put_perm {key : List Nat} (value : α) {entries : List (List Nat × α)}
    (h : key ∉ entries.map (·.1)) : (put key value entries).Perm ((key, value) :: entries) := by
  induction entries with
  | nil => exact List.Perm.refl _
  | cons e rest ih =>
    rw [List.map_cons, List.mem_cons, not_or] at h
    unfold put
    split
    next => exact List.Perm.refl _
    next hafter =>
      split
      next => exact ((ih h.2).cons e).trans (List.Perm.swap _ _ _)
      next hbefore =>
        rw [precedes_eq_true_iff, Bool.not_eq_false] at hafter hbefore
        exact absurd (lexLe_antisymm (fun _ _ h => h) hbefore hafter) h.1

end OrderedMap

/-- Where members that satisfy `p` never follow one that does not, taking them from the front takes
all of them. -/
theorem takeWhile_eq_filter {α : Type} {p : α → Bool} {xs : List α}
    (h : xs.Pairwise fun a b => p b = true → p a = true) : xs.takeWhile p = xs.filter p := by
  induction xs with
  | nil => rfl
  | cons x xs ih =>
    obtain ⟨hhead, htail⟩ := List.pairwise_cons.mp h
    cases hx : p x with
    | true => rw [List.takeWhile_cons_of_pos hx, List.filter_cons_of_pos hx, ih htail]
    | false =>
      have hnone : xs.filter p = [] := by
        rw [List.filter_eq_nil_iff]
        intro y hy hpy
        rw [hhead y hy hpy] at hx
        cases hx
      rw [List.takeWhile_cons_of_neg (by simp [hx]), List.filter_cons_of_neg (by simp [hx]), hnone]

theorem Decimal.wrap64_of_range {i : Int} (h : 0 ≤ i ∧ i ≤ maxInt64) : wrap64 i = i :=
  wrap64_eq_self_iff.mpr ⟨Int.le_trans (by decide) h.1, h.2⟩

namespace HistoryRecord

open Json Synthesis.Text

/-- A record as it is entered: it has an id, its texts are valid, its number of iterations is a
machine integer, the fraction of its time is below a second, and its instant lies between 1970 and
the last one that a machine integer of nanoseconds reaches, in the year 2262. -/
structure Keepable (r : HistoryRecord) : Prop where
  id_ne : r.id ≠ ""
  id : Valid r.id
  query : Valid r.query
  strategy : Valid r.strategy
  outcome : Valid r.outcome
  iterations : Decimal.fitsInt64 r.iterations = true
  nanos : r.recordedAt.nanos < 10 ^ 9
  instant : 0 ≤ r.recordedAt.unixNanos ∧ r.recordedAt.unixNanos ≤ Decimal.maxInt64

theorem keepable_iff (r : HistoryRecord) :
    (r.id ≠ "" ∧ Valid r.id ∧ Valid r.query ∧ Valid r.strategy ∧ Valid r.outcome ∧
      Decimal.fitsInt64 r.iterations = true ∧ r.recordedAt.nanos < 10 ^ 9 ∧
      0 ≤ r.recordedAt.unixNanos ∧ r.recordedAt.unixNanos ≤ Decimal.maxInt64) ↔ r.Keepable := by
  constructor
  · rintro ⟨hne, hid, hquery, hstrategy, houtcome, hcount, hnanos, hinstant⟩
    exact ⟨hne, hid, hquery, hstrategy, houtcome, hcount, hnanos, hinstant⟩
  · rintro ⟨hne, hid, hquery, hstrategy, houtcome, hcount, hnanos, hinstant⟩
    exact ⟨hne, hid, hquery, hstrategy, houtcome, hcount, hnanos, hinstant⟩

instance (r : HistoryRecord) : Decidable r.Keepable := decidable_of_iff _ (keepable_iff r)

variable {r a b : HistoryRecord}

/-- What tells records apart: the instant and the id. -/
def stamp (r : HistoryRecord) : Int × String := (r.recordedAt.unixNanos, r.id)

/-- The first record is later, or of the same instant with a greater id. -/
def Newer (a b : HistoryRecord) : Prop :=
  b.recordedAt.unixNanos < a.recordedAt.unixNanos ∨
    b.recordedAt.unixNanos = a.recordedAt.unixNanos ∧ lt b.id a.id = true

/-- The record is of the strategy; every record is if no name is given. -/
def isOf (strategy : String) (r : HistoryRecord) : Bool := strategy == "" || r.strategy == strategy

/-- What the text of a record keeps of it: all but the seconds of its offset. -/
def written (r : HistoryRecord) : HistoryRecord := { r with recordedAt := r.recordedAt.written }

theorem written_eq_self_iff : r.written = r ↔ 60 ∣ r.recordedAt.offset := by
  rw [← Timestamp.written_eq_self_iff]
  constructor
  · intro h
    exact congrArg HistoryRecord.recordedAt h
  · intro h
    rw [written, h]

theorem dvd_offset_of_unixNanos_written
    (h : r.written.recordedAt.unixNanos = r.recordedAt.unixNanos) : 60 ∣ r.recordedAt.offset := by
  rw [← Timestamp.wholeMinutes_eq_self_iff]
  simp only [written, Timestamp.written, Timestamp.unixNanos, Timestamp.unixSeconds] at h
  omega

theorem Keepable.formatError?_eq_none_iff (h : r.Keepable) :
    r.recordedAt.formatError? = none ↔ r.recordedAt.offset.natAbs < 86400 :=
  Timestamp.formatError?_eq_none_iff h.nanos h.instant

theorem Keepable.plain (h : r.Keepable) : Plain 1 r.json := by
  have htime := (Timestamp.bare_render r.recordedAt).valid
  unfold json
  refine .cons (by decide) (.text 0 h.id) ?_
  refine .cons (by decide) (.text 0 h.query) ?_
  refine .cons (by decide) (.text 0 h.strategy) ?_
  refine .cons (by decide) (.text 0 h.outcome) ?_
  refine .cons (by decide) (.integer 0 r.iterations) ?_
  exact .cons (by decide) (.text 0 htime) (.nil 0)

theorem Keepable.ofText?_render (h : r.Keepable) (hformat : r.recordedAt.formatError? = none) :
    ofText? r.json.render = some r.written := by
  have htime := Outcome.over?_time (Timestamp.parse?_render h.nanos hformat)
  rw [ofText?, parse?_render h.plain (by decide), Option.bind_some]
  simp only [json, recordOver?_cons reads "id" rfl, recordOver?_cons reads "query" rfl,
    recordOver?_cons reads "strategy" rfl, recordOver?_cons reads "outcome" rfl,
    recordOver?_cons reads "iterations" rfl, recordOver?_cons reads "recorded_at" rfl,
    recordOver?_nil, over?_text h.id, over?_text h.query, over?_text h.strategy,
    over?_text h.outcome, over?_int h.iterations, htime, Option.map_some, Option.bind_some, written]

theorem newer_asymm (hab : Newer a b) (hba : Newer b a) : False := by
  rcases hab with hab | ⟨hab, hid⟩
  · rcases hba with hba | ⟨hba, -⟩
    · omega
    · omega
  · rcases hba with hba | ⟨-, hid'⟩
    · omega
    · have htotal := lexLe_total Char.toNat a.id.toList b.id.toList
      simp only [lt, le, charsLe_eq_lexLe, Bool.not_eq_true'] at hid hid'
      rw [hid, hid'] at htotal
      cases htotal

end HistoryRecord

namespace Journal

open Synthesis.Text Synthesis.Decimal HistoryRecord

variable {r a b : HistoryRecord}

def recordBytes : List Nat := utf8 recordMark

/-- What is stored of a record. -/
def stored (r : HistoryRecord) : List Nat × String := (utf8 (key r), r.json.render)

/-- The bytes of a key: the mark, twenty digits, a slash and the id. -/
theorem utf8_key (h : r.Keepable) :
    utf8 (key r) = recordBytes ++
      ((Timestamp.zeroPad 20 r.recordedAt.unixNanos.toNat).map Char.toNat ++ 47 :: utf8 r.id) := by
  have hinstant := h.instant
  have habs : r.recordedAt.unixNanos.natAbs = r.recordedAt.unixNanos.toNat := by omega
  have hdigits : ∀ c ∈ Timestamp.zeroPad 20 r.recordedAt.unixNanos.toNat, c.toNat < 0x80 := by
    intro c hc
    have hdigit := (isAsciiDigit_iff c).mp (Timestamp.isAsciiDigit_of_mem_zeroPad hc)
    omega
  have hslash : utf8 "/" = [47] := by decide
  have hbytes : utf8 (Timestamp.padded 20 r.recordedAt.unixNanos.toNat)
      = (Timestamp.zeroPad 20 r.recordedAt.unixNanos.toNat).map Char.toNat := by
    rw [utf8, Timestamp.padded, String.toList_ofList, flatMap_charBytes_ascii hdigits]
  rw [key, wrap64_of_range hinstant, instantText, if_neg (by omega), habs, utf8_append,
    utf8_append, utf8_append, hslash, hbytes, List.append_assoc, List.append_assoc,
    List.singleton_append, recordBytes]

theorem precedes_key_of_lt (ha : a.Keepable) (hb : b.Keepable)
    (h : a.recordedAt.unixNanos < b.recordedAt.unixNanos) :
    precedes (utf8 (key a)) (utf8 (key b)) = true := by
  have hrange : maxInt64 = 9223372036854775807 := rfl
  have hinstant := ha.instant
  have hinstant' := hb.instant
  rw [utf8_key ha, utf8_key hb, precedes_append_left]
  apply precedes_digits
  · exact fun c hc => Timestamp.isAsciiDigit_of_mem_zeroPad hc
  · exact fun c hc => Timestamp.isAsciiDigit_of_mem_zeroPad hc
  · rw [Timestamp.length_zeroPad (by decide) (by omega),
      Timestamp.length_zeroPad (by decide) (by omega)]
  · rw [Timestamp.natOfDigits_zeroPad, Timestamp.natOfDigits_zeroPad]
    omega

theorem lexLe_key_of_eq (ha : a.Keepable) (hb : b.Keepable)
    (h : a.recordedAt.unixNanos = b.recordedAt.unixNanos) :
    lexLe id (utf8 (key a)) (utf8 (key b)) = le a.id b.id := by
  rw [utf8_key ha, utf8_key hb, h, lexLe_append_left, lexLe_append_left,
    ← List.singleton_append (l := utf8 a.id), ← List.singleton_append (l := utf8 b.id),
    lexLe_append_left, lexLe_utf8 ha.id hb.id]

/-- A later key is that of a newer record. -/
theorem newer_of_precedes (ha : a.Keepable) (hb : b.Keepable)
    (h : precedes (utf8 (key b)) (utf8 (key a)) = true) : Newer a b := by
  rcases Int.lt_trichotomy b.recordedAt.unixNanos a.recordedAt.unixNanos with hlt | heq | hgt
  · exact Or.inl hlt
  · rw [precedes_eq_true_iff, lexLe_key_of_eq ha hb heq.symm] at h
    exact Or.inr ⟨heq, by rw [lt, h, Bool.not_false]⟩
  · have hback := precedes_eq_true_iff.mp (precedes_key_of_lt ha hb hgt)
    rw [le_of_precedes h] at hback
    cases hback

theorem instant_le_of_key_eq (ha : a.Keepable) (hb : b.Keepable)
    (h : utf8 (key a) = utf8 (key b)) : b.recordedAt.unixNanos ≤ a.recordedAt.unixNanos := by
  by_contra hlater
  have hbefore := precedes_key_of_lt ha hb (by omega)
  rw [h, precedes_eq_true_iff, lexLe_refl] at hbefore
  cases hbefore

/-- Records that differ in instant or id have different keys. -/
theorem stamp_eq_of_key_eq (ha : a.Keepable) (hb : b.Keepable)
    (h : utf8 (key a) = utf8 (key b)) : a.stamp = b.stamp := by
  have heq : a.recordedAt.unixNanos = b.recordedAt.unixNanos :=
    Int.le_antisymm (instant_le_of_key_eq hb ha h.symm) (instant_le_of_key_eq ha hb h)
  have hle : le a.id b.id = true := by rw [← lexLe_key_of_eq ha hb heq, h, lexLe_refl]
  have hge : le b.id a.id = true := by rw [← lexLe_key_of_eq hb ha heq.symm, h, lexLe_refl]
  have hid : a.id = b.id := by
    rw [le, charsLe_eq_lexLe] at hle hge
    exact String.toList_inj.mp (lexLe_antisymm (fun _ _ => Char.toNat_inj.mp) hle hge)
  rw [stamp, stamp, heq, hid]

/-- The entry is that of a record. -/
def marked (e : List Nat × String) : Bool := recordBytes.isPrefixOf e.1

theorem marked_stored (h : r.Keepable) : marked (stored r) = true := by
  rw [marked, stored, utf8_key h, List.isPrefixOf_iff_prefix]
  exact List.prefix_append _ _

/-- No record has a key behind the place where a query starts. -/
theorem not_precedes_stored (h : r.Keepable) :
    precedes (recordBytes ++ [0xFF]) (stored r).1 = false := by
  have hrange : maxInt64 = 9223372036854775807 := rfl
  have hinstant := h.instant
  have hlength : (Timestamp.zeroPad 20 r.recordedAt.unixNanos.toNat).length = 20 :=
    Timestamp.length_zeroPad (by decide) (by omega)
  have hdigit : ∀ c ∈ Timestamp.zeroPad 20 r.recordedAt.unixNanos.toNat, isAsciiDigit c = true :=
    fun c hc => Timestamp.isAsciiDigit_of_mem_zeroPad hc
  rw [stored, utf8_key h, precedes_append_left]
  cases hdigits : Timestamp.zeroPad 20 r.recordedAt.unixNanos.toNat with
  | nil =>
    rw [hdigits] at hlength
    cases hlength
  | cons d ds =>
    have hd := (isAsciiDigit_iff d).mp (hdigit d (by rw [hdigits]; exact List.mem_cons_self))
    rw [Bool.eq_false_iff, List.map_cons, List.cons_append, Ne, precedes_cons_iff]
    omega

/-- The journal is open, and its entries of records are those of the given ones. -/
structure Holds (j : Journal) (records : List HistoryRecord) : Prop where
  isOpen : j.closed = false
  entries : (j.items.entries.filter marked).Perm (records.map stored)
  keepable : ∀ r ∈ records, r.Keepable
  writable : ∀ r ∈ records, r.recordedAt.formatError? = none

variable {j : Journal} {records : List HistoryRecord}

theorem Holds.of_marked (h : j.Holds records) {e : List Nat × String}
    (he : e ∈ j.items.entries) (hmarked : marked e = true) : ∃ r ∈ records, stored r = e := by
  have hmem := h.entries.mem_iff.mp (List.mem_filter.mpr ⟨he, hmarked⟩)
  exact List.mem_map.mp hmem

/-- A query walks the entries of the records backwards, and nothing else. -/
theorem Holds.newestFirst_eq (h : j.Holds records) :
    j.newestFirst = (j.items.entries.filter marked).reverse := by
  have hreach : ∀ e ∈ j.items.entries, marked e = true →
      (!precedes (recordBytes ++ [0xFF]) e.1) = true := by
    intro e he hmarked
    obtain ⟨r, hr, rfl⟩ := h.of_marked he hmarked
    rw [not_precedes_stored (h.keepable r hr), Bool.not_false]
  -- Behind an entry of a record, up to where the query starts, there are only such entries.
  have htogether :
      ((j.items.entries.filter fun e => !precedes (recordBytes ++ [0xFF]) e.1).reverse).Pairwise
        fun a b => marked b = true → marked a = true := by
    rw [List.pairwise_reverse]
    refine (j.items.ordered.sublist List.filter_sublist).imp_of_mem ?_
    intro a b ha hb hab hmarked
    obtain ⟨rest, hrest⟩ := List.isPrefixOf_iff_prefix.mp hmarked
    have hseek : lexLe id b.1 (recordBytes ++ [0xFF]) = true := by
      have hle := (List.mem_filter.mp hb).2
      simpa [precedes] using hle
    by_contra hb'
    rw [Bool.not_eq_true] at hb'
    have hbefore := precedes_of_not_isPrefixOf hb' hseek rest
    rw [hrest, precedes_eq_true_iff, le_of_precedes hab] at hbefore
    cases hbefore
  have hwalk : j.newestFirst
      = (j.items.entries.filter fun e => !precedes (recordBytes ++ [0xFF]) e.1).reverse.takeWhile
        marked := rfl
  rw [hwalk, takeWhile_eq_filter htogether, List.filter_reverse, List.filter_filter]
  congr 1
  apply List.filter_congr
  intro e he
  cases hmarked : marked e with
  | false => rfl
  | true => rw [hreach e he hmarked, Bool.and_true]

/-- The records in the order in which a query meets them. -/
theorem Holds.exists_newestFirst (h : j.Holds records) :
    ∃ sorted : List HistoryRecord, sorted.Perm records ∧ sorted.Pairwise Newer ∧
      j.newestFirst = sorted.map stored := by
  have hperm : j.newestFirst.Perm (records.map stored) := by
    rw [h.newestFirst_eq]
    exact (List.reverse_perm _).trans h.entries
  obtain ⟨sorted, hwalk, hsorted⟩ :
      Relation.Comp (· = List.map stored ·) List.Perm j.newestFirst records := by
    rw [List.eq_map_comp_perm]
    exact hperm
  refine ⟨sorted, hsorted, ?_, hwalk⟩
  have hordered : j.newestFirst.Pairwise fun a b => precedes b.1 a.1 = true := by
    rw [h.newestFirst_eq, List.pairwise_reverse]
    exact j.items.ordered.sublist List.filter_sublist
  rw [hwalk, List.pairwise_map] at hordered
  refine hordered.imp_of_mem ?_
  intro a b ha hb hab
  exact newer_of_precedes (h.keepable a (hsorted.mem_iff.mp ha))
    (h.keepable b (hsorted.mem_iff.mp hb)) hab

/-- Reading goes on from what was found, as long as the limit is not reached. -/
theorem collect_stored {rest found : List HistoryRecord} {limit : Int} {strategy : String}
    (hread : ∀ r ∈ rest, ofText? (stored r).2 = some r.written)
    (hlimit : 0 < limit → found.length < limit) :
    collect limit strategy found (rest.map stored)
      = .ok (Corpus.limited limit (found ++ (rest.filter (isOf strategy)).map written)) := by
  induction rest generalizing found with
  | nil =>
    rw [List.map_nil, collect, List.filter_nil, List.map_nil, List.append_nil, Corpus.limited]
    split
    next hpos => rw [List.take_of_length_le (by have := hlimit hpos; omega)]
    next => rfl
  | cons r rest ih =>
    have hrest : ∀ x ∈ rest, ofText? (stored x).2 = some x.written := fun x hx =>
      hread x (List.mem_cons_of_mem r hx)
    have hentry : stored r = ((stored r).1, (stored r).2) := rfl
    rw [List.map_cons, hentry, collect, hread r List.mem_cons_self]
    dsimp only
    have hstrategy : r.written.strategy = r.strategy := rfl
    rw [hstrategy]
    by_cases hother : strategy ≠ "" ∧ r.strategy ≠ strategy
    · have hskip : isOf strategy r = false := by simp [isOf, hother]
      rw [if_pos hother, ih hrest hlimit, List.filter_cons_of_neg (by simp [hskip])]
    · have hkeep : isOf strategy r = true := by
        by_contra hkeep
        simp only [isOf, Bool.or_eq_true, beq_iff_eq] at hkeep
        exact hother (not_or.mp hkeep)
      have hgrown : found ++ r.written :: (rest.filter (isOf strategy)).map written
          = (found ++ [r.written]) ++ (rest.filter (isOf strategy)).map written := by simp
      rw [if_neg hother, List.filter_cons_of_pos hkeep, List.map_cons, hgrown]
      by_cases hfull : 0 < limit ∧ limit ≤ found.length + 1
      · have hlength : (found ++ [r.written]).length = limit.toNat := by
          have hshort := hlimit hfull.1
          rw [List.length_append, List.length_singleton]
          omega
        rw [if_pos hfull, Corpus.limited, if_pos hfull.1, List.take_left' hlength]
      · rw [if_neg hfull, ih hrest]
        intro hpos
        rw [List.length_append, List.length_singleton]
        omega

theorem Holds.query_eq (h : j.Holds records) (limit : Int) (strategy : String) :
    ∃ full : List HistoryRecord,
      j.query none limit strategy = .ok (Corpus.limited limit (full.map written)) ∧
      full.Perm (records.filter (isOf strategy)) ∧ full.Pairwise Newer := by
  obtain ⟨sorted, hperm, hnewer, hwalk⟩ := h.exists_newestFirst
  refine ⟨sorted.filter (isOf strategy), ?_, hperm.filter _, hnewer.sublist List.filter_sublist⟩
  have hread : ∀ r ∈ sorted, ofText? (stored r).2 = some r.written := by
    intro r hr
    have hmem := hperm.mem_iff.mp hr
    exact (h.keepable r hmem).ofText?_render (h.writable r hmem)
  rw [query, guarded, h.isOpen, hwalk, collect_stored hread (by intro hpos; exact hpos)]
  rfl

theorem completed_of_keepable (h : r.Keepable) (freshId : String) (now : Timestamp) :
    completed r freshId now = r := by
  have htime : r.recordedAt.isZero = false := by
    have hinstant := h.instant
    rw [Timestamp.unixNanos] at hinstant
    simp only [Timestamp.isZero, Bool.and_eq_false_iff, beq_eq_false_iff_ne]
    omega
  rw [completed, if_neg h.id_ne, htime]
  rfl

theorem append_eq (hopen : j.closed = false) (hr : r.Keepable)
    (hformat : r.recordedAt.formatError? = none) (freshId : String) (now : Timestamp) :
    j.append none freshId now r
      = .ok { j with items := j.items.insert (stored r).1 (stored r).2 } := by
  unfold Journal.append
  simp only [completed_of_keepable hr, hformat]
  rw [guarded, hopen, if_neg (by decide)]
  rfl

/-- A record with a new key is entered beside those that are there. -/
theorem Holds.insert (h : j.Holds records) (hr : r.Keepable)
    (hformat : r.recordedAt.formatError? = none) (hnew : ∀ x ∈ records, x.stamp ≠ r.stamp) :
    Holds { j with items := j.items.insert (stored r).1 (stored r).2 } (records ++ [r]) := by
  have habsent : (stored r).1 ∉ j.items.entries.map (·.1) := by
    intro hmem
    obtain ⟨e, he, hkey⟩ := List.mem_map.mp hmem
    have hmarked : marked e = true := by
      rw [marked, hkey]
      exact marked_stored hr
    obtain ⟨x, hx, rfl⟩ := h.of_marked he hmarked
    exact hnew x hx (stamp_eq_of_key_eq (h.keepable x hx) hr hkey)
  refine ⟨h.isOpen, ?_, ?_, ?_⟩
  · have hput := (OrderedMap.put_perm (stored r).2 habsent).filter marked
    rw [List.filter_cons_of_pos (marked_stored hr)] at hput
    refine hput.trans ((h.entries.cons _).trans ?_)
    rw [List.map_append, List.map_singleton]
    exact (List.perm_append_singleton _ _).symm
  · intro x hx
    rcases List.mem_append.mp hx with hx | hx
    · exact h.keepable x hx
    · rw [List.mem_singleton.mp hx]
      exact hr
  · intro x hx
    rcases List.mem_append.mp hx with hx | hx
    · exact h.writable x hx
    · rw [List.mem_singleton.mp hx]
      exact hformat

/-- A call that enters a record. -/
structure Call where
  stopped : Option Interruption
  freshId : String
  now : Timestamp
  record : HistoryRecord

/-- The call is not stopped, and the offset of its record's time is below a day. -/
def Call.taken (c : Call) : Bool :=
  c.stopped.isNone && decide (c.record.recordedAt.offset.natAbs < 86400)

/-- The journal after a call; one that fails leaves it as it was. -/
def enter (j : Journal) (c : Call) : Journal :=
  match j.append c.stopped c.freshId c.now c.record with
  | .ok j => j
  | .error _ => j

def enterAll (j : Journal) (calls : List Call) : Journal := calls.foldl enter j

def taken (calls : List Call) : List HistoryRecord := (calls.filter (·.taken)).map (·.record)

theorem Call.taken_eq_true_iff {c : Call} (hc : c.record.Keepable) :
    c.taken = true ↔ c.stopped = none ∧ c.record.recordedAt.formatError? = none := by
  rw [taken, Bool.and_eq_true, Option.isNone_iff_eq_none, decide_eq_true_eq,
    hc.formatError?_eq_none_iff]

theorem append_unwritable (hr : r.Keepable) {cause : Timestamp.FormatError}
    (hcause : r.recordedAt.formatError? = some cause) (freshId : String) (now : Timestamp) :
    j.append none freshId now r = .error (.unwritable cause) := by
  unfold append
  simp only [completed_of_keepable hr, hcause]

/-- A call that is not taken fails. -/
theorem append_of_not_taken {c : Call} (hc : c.record.Keepable) (h : c.taken = false) :
    ∃ e, j.append c.stopped c.freshId c.now c.record = .error e := by
  cases hstopped : c.stopped with
  | some why => exact ⟨.interrupted why, rfl⟩
  | none =>
    obtain ⟨cause, hcause⟩ : ∃ cause, c.record.recordedAt.formatError? = some cause := by
      rw [← Option.ne_none_iff_exists']
      intro hformat
      rw [(Call.taken_eq_true_iff hc).mpr ⟨hstopped, hformat⟩] at h
      cases h
    exact ⟨.unwritable cause, append_unwritable hc hcause c.freshId c.now⟩

/-- Whether a call enters its record depends on nothing but the call. -/
theorem append_isOk_iff {c : Call} (hopen : j.closed = false) (hc : c.record.Keepable) :
    (∃ j', j.append c.stopped c.freshId c.now c.record = .ok j') ↔ c.taken = true := by
  constructor
  · rintro ⟨j', hok⟩
    by_contra hfails
    obtain ⟨e, herror⟩ := append_of_not_taken (j := j) hc (Bool.not_eq_true _ ▸ hfails)
    cases hok.symm.trans herror
  · intro htaken
    obtain ⟨hstopped, hformat⟩ := (Call.taken_eq_true_iff hc).mp htaken
    rw [hstopped]
    exact ⟨_, append_eq hopen hc hformat c.freshId c.now⟩

theorem Holds.enter {c : Call} (h : j.Holds records) (hc : c.record.Keepable)
    (htaken : c.taken = true) (hnew : ∀ x ∈ records, x.stamp ≠ c.record.stamp) :
    (j.enter c).Holds (records ++ [c.record]) := by
  obtain ⟨hstopped, hformat⟩ := (Call.taken_eq_true_iff hc).mp htaken
  rw [Journal.enter, hstopped, append_eq h.isOpen hc hformat]
  exact h.insert hc hformat hnew

theorem Holds.enterAll {calls : List Call} (h : j.Holds records)
    (hkeep : ∀ c ∈ calls, c.record.Keepable)
    (hdistinct : (records ++ taken calls).Pairwise fun a b => a.stamp ≠ b.stamp) :
    (j.enterAll calls).Holds (records ++ taken calls) := by
  induction calls generalizing j records with
  | nil =>
    rw [taken, List.filter_nil, List.map_nil, List.append_nil]
    exact h
  | cons c calls ih =>
    have hc := hkeep c List.mem_cons_self
    have hrest : ∀ d ∈ calls, d.record.Keepable := fun d hd => hkeep d (List.mem_cons_of_mem c hd)
    cases htaken : c.taken with
    | false =>
      have hskip : taken (c :: calls) = taken calls := by
        rw [taken, List.filter_cons_of_neg (by simp [htaken]), taken]
      rw [hskip] at hdistinct ⊢
      obtain ⟨e, hfails⟩ := append_of_not_taken (j := j) hc htaken
      have hsame : j.enter c = j := by rw [Journal.enter, hfails]
      rw [Journal.enterAll, List.foldl_cons, hsame]
      exact ih h hrest hdistinct
    | true =>
      have hgrow : records ++ taken (c :: calls) = (records ++ [c.record]) ++ taken calls := by
        rw [taken, List.filter_cons_of_pos htaken, List.map_cons, taken, List.append_assoc,
          List.singleton_append]
      rw [hgrow] at hdistinct ⊢
      have hnew : ∀ x ∈ records, x.stamp ≠ c.record.stamp := by
        intro x hx
        have hfront := (List.pairwise_append.mp hdistinct).1
        exact (List.pairwise_append.mp hfront).2.2 x hx c.record List.mem_cons_self
      exact ih (h.enter hc htaken hnew) hrest hdistinct

/-- Entering records one by one into an open journal that has none yet, in any order, and then
asking for those of a strategy gives exactly the records that were taken, the newest first, up to
the limit. A call that is not stopped is taken if the offset of its record is below a day, and the
record comes back as it was if the offset has no seconds, and with another instant if it has. -/
theorem query_newest_first {j : Journal} (hopen : j.closed = false)
    (hnone : ∀ e ∈ j.items.entries, marked e = false) {calls : List Call}
    (hkeep : ∀ c ∈ calls, c.record.Keepable)
    (hdistinct : (taken calls).Pairwise fun a b => a.stamp ≠ b.stamp) (limit : Int)
    (strategy : String) :
    (∀ c ∈ calls, ∀ i : Journal, i.closed = false →
      ((∃ i', i.append c.stopped c.freshId c.now c.record = .ok i') ↔ c.taken = true)) ∧
    (∃ full : List HistoryRecord,
      (j.enterAll calls).query none limit strategy
        = .ok (Corpus.limited limit (full.map written)) ∧
      full.Perm ((taken calls).filter (isOf strategy)) ∧ full.Pairwise Newer ∧
      ∀ r ∈ full, (60 ∣ r.recordedAt.offset → r.written = r) ∧
        (r.written.recordedAt.unixNanos = r.recordedAt.unixNanos → 60 ∣ r.recordedAt.offset)) ∧
    ∀ calls' : List Call, calls'.Perm calls →
      (j.enterAll calls').query none limit strategy
        = (j.enterAll calls).query none limit strategy := by
  have hstart : j.Holds [] := by
    refine ⟨hopen, ?_, by simp, by simp⟩
    rw [List.filter_eq_nil_iff.mpr fun e he => by simp [hnone e he]]
    exact List.Perm.refl _
  have hquery : ∀ calls' : List Call, calls'.Perm calls → ∃ full : List HistoryRecord,
      (j.enterAll calls').query none limit strategy
        = .ok (Corpus.limited limit (full.map written)) ∧
      full.Perm ((taken calls).filter (isOf strategy)) ∧ full.Pairwise Newer := by
    intro calls' hperm
    have htaken : (taken calls').Perm (taken calls) := (hperm.filter _).map _
    have hdistinct' : (taken calls').Pairwise fun a b => a.stamp ≠ b.stamp :=
      htaken.symm.pairwise hdistinct fun h => h.symm
    have hholds := hstart.enterAll (fun c hc => hkeep c (hperm.mem_iff.mp hc)) hdistinct'
    obtain ⟨full, hfull, hmatching, hnewer⟩ := hholds.query_eq limit strategy
    exact ⟨full, hfull, hmatching.trans (htaken.filter _), hnewer⟩
  obtain ⟨full, hfull, hmatching, hnewer⟩ := hquery calls (List.Perm.refl _)
  refine ⟨fun c hc i hi => append_isOk_iff hi (hkeep c hc),
    ⟨full, hfull, hmatching, hnewer, ?_⟩, ?_⟩
  · intro r _
    exact ⟨written_eq_self_iff.mpr, dvd_offset_of_unixNanos_written⟩
  · intro calls' hperm
    obtain ⟨full', hfull', hmatching', hnewer'⟩ := hquery calls' hperm
    have hsame : full' = full :=
      (hmatching'.trans hmatching.symm).eq_of_pairwise
        (fun a b _ _ hab hba => (newer_asymm hab hba).elim) hnewer' hnewer
    rw [hfull', hfull, hsame]

/-- A journal that holds nothing but a snapshot. -/
def refreshed : Journal := { items := OrderedMap.empty.insert (utf8 snapshotKey) "\x7b\x7d" }

/-- Two runs of one instant, one of them from a clock with seconds in its offset, and a later one,
entered out of order; a call that was stopped, and one whose clock is a day ahead. -/
def mornings : List Call :=
  [⟨none, "", ⟨0, 0, 0⟩, ⟨"b", "sort a list", "hole", "success", 2, ⟨1699997330, 5, -2670⟩⟩⟩,
    ⟨some .deadline, "", ⟨0, 0, 0⟩, ⟨"b", "sort a list", "hole", "success", 2, ⟨1700000000, 5, 0⟩⟩⟩,
    ⟨none, "", ⟨0, 0, 0⟩, ⟨"z", "add", "hole", "failure", 1, ⟨1700003600, 6, 3600⟩⟩⟩,
    ⟨none, "", ⟨0, 0, 0⟩, ⟨"y", "add", "hole", "failure", 1, ⟨1700086400, 6, 86400⟩⟩⟩,
    ⟨none, "", ⟨0, 0, 0⟩, ⟨"ä", "add", "stepwise", "failure", 0, ⟨1700000000, 5, 0⟩⟩⟩]

theorem query_newest_first_mornings :
    refreshed.closed = false ∧ (∀ e ∈ refreshed.items.entries, marked e = false) ∧
      (∀ c ∈ mornings, c.record.Keepable) ∧
      (taken mornings).Pairwise (fun a b => a.stamp ≠ b.stamp) ∧
      (taken mornings).map (·.id) = ["b", "z", "ä"] ∧
      ∃ full : List HistoryRecord,
        (refreshed.enterAll mornings).query none 2 "hole"
          = .ok (Corpus.limited 2 (full.map written)) ∧
        full.Perm ((taken mornings).filter (isOf "hole")) ∧ full.Pairwise Newer ∧
        ∀ r ∈ full, (60 ∣ r.recordedAt.offset → r.written = r) ∧
          (r.written.recordedAt.unixNanos = r.recordedAt.unixNanos → 60 ∣ r.recordedAt.offset) := by
  have hnone : ∀ e ∈ refreshed.items.entries, marked e = false := by decide
  have hkeep : ∀ c ∈ mornings, c.record.Keepable := by decide
  have hdistinct : (taken mornings).Pairwise fun a b => a.stamp ≠ b.stamp := by decide
  exact ⟨rfl, hnone, hkeep, hdistinct, rfl,
    (query_newest_first rfl hnone hkeep hdistinct 2 "hole").2.1⟩

/-- The first instant of 1971 on a clock that is forty-four minutes and thirty seconds behind. -/
def newYear : HistoryRecord := ⟨"n", "add", "hole", "success", 1, ⟨31536000, 0, -2670⟩⟩

/-- A record of a clock that is a whole day ahead. -/
def dayAhead : HistoryRecord := ⟨"0", "q", "a", "success", 1, ⟨1735693323, 0, 86400⟩⟩

/-- Records between 1970 and 2262 need not come back with their instant, and need not come back at
all: of the first the seconds of the offset are lost, and the second is not taken. -/
theorem query_loses_offset :
    (newYear.Keepable ∧ dayAhead.Keepable) ∧
      (∃ j, ({} : Journal).append none "" ⟨0, 0, 0⟩ newYear = .ok j ∧
        j.query none 0 "" = .ok [newYear.written]) ∧
      newYear.recordedAt.unixNanos = 31538670000000000 ∧
      newYear.written.recordedAt.unixNanos = 31538640000000000 ∧
      ({} : Journal).append none "" ⟨0, 0, 0⟩ dayAhead = .error (.unwritable .zone) := by
  have hyear : newYear.Keepable := by decide
  have hday : dayAhead.Keepable := by decide
  have hformat : newYear.recordedAt.formatError? = none := by decide
  have hempty : ({} : Journal).Holds [] := ⟨rfl, List.Perm.refl _, by simp, by simp⟩
  have hholds := hempty.insert hyear hformat (by simp)
  obtain ⟨full, hquery, hperm, -⟩ := hholds.query_eq 0 ""
  obtain rfl : full = [newYear] := List.perm_singleton.mp hperm
  exact ⟨⟨hyear, hday⟩, ⟨_, append_eq rfl hyear hformat "" ⟨0, 0, 0⟩, hquery⟩, by decide,
    by decide, append_unwritable hday (by decide) "" ⟨0, 0, 0⟩⟩

end Journal

end Synthesis
