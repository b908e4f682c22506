import Synthesis.Proofs.Instants
import Synthesis.Proofs.Window
import Synthesis.Proofs.Keys

/-!
Snapshots give experience back. A window that was built by recording outcomes has features that
are counts in the order of their names, valid texts and times that can be written, so its snapshot
is read back outcome by outcome. Who takes it over has the newest of its outcomes, as many as fit;
where the same number fits, nothing tells the two apart any more.
-/
namespace Synthesis

namespace Text

theorem Valid.append {s t : String} (hs : Valid s) (ht : Valid t) : Valid (s ++ t) := by
  intro c hc
  rw [String.toList_append, List.mem_append] at hc
  rcases hc with hc | hc
  · exact hs c hc
  · exact ht c hc

theorem Valid.of_subset {s t : String} (hs : Valid s) (h : ∀ c ∈ t.toList, c ∈ s.toList) :
    Valid t := fun c hc => hs c (h c hc)

theorem valid_join {sep : String} (hsep : Valid sep) {xs : List String} (h : ∀ x ∈ xs, Valid x) :
    Valid (join sep xs) := by
  fun_induction join sep xs with
  | case1 => decide
  | case2 x => exact h x List.mem_cons_self
  | case3 x rest hrest ih =>
    exact ((h x List.mem_cons_self).append hsep).append
      (ih fun y hy => h y (List.mem_cons_of_mem x hy))

theorem mem_of_mem_runs {keep : Char → Bool} {cs w : List Char} (hw : w ∈ runs keep cs) {c : Char}
    (hc : c ∈ w) : c ∈ cs := by
  induction cs generalizing w with
  | nil => simp [runs] at hw
  | cons d cs ih =>
    unfold runs at hw
    split at hw
    · split at hw
      next v vs _ hruns =>
        rcases List.mem_cons.mp hw with rfl | hw
        · rcases List.mem_cons.mp hc with rfl | hc
          · exact List.mem_cons_self
          · exact List.mem_cons_of_mem d (ih (hruns ▸ List.mem_cons_self) hc)
        · exact List.mem_cons_of_mem d (ih (hruns ▸ List.mem_cons_of_mem v hw) hc)
      next =>
        rcases List.mem_cons.mp hw with rfl | hw
        · rw [List.mem_singleton.mp hc]
          exact List.mem_cons_self
        · exact List.mem_cons_of_mem d (ih hw hc)
    · exact List.mem_cons_of_mem d (ih hw hc)

theorem valid_words {s : String} (h : Valid s) : ∀ w ∈ words s, Valid w := by
  intro w hw
  obtain ⟨cs, hcs, rfl⟩ := List.mem_map.mp hw
  refine h.of_subset fun c hc => ?_
  rw [String.toList_ofList] at hc
  exact mem_of_mem_runs hcs hc

end Text

namespace Specification

open Synthesis.Text

theorem valid_shortened {words : String} (h : Valid words) : Valid (shortened words) := by
  unfold shortened
  dsimp only
  split
  · refine Valid.append (h.of_subset fun c hc => ?_) (by decide)
    rw [String.toList_ofList] at hc
    exact List.mem_of_mem_take hc
  · exact h

/-- The summary of a specification has characters of its description and type only, besides
blanks, points and colons. -/
theorem valid_summary {s : Specification} (hdescription : Valid s.description)
    (htype : Valid s.typeSignature) : Valid s.summary := by
  have hblank : Valid " " := by decide
  have hwords : Valid (shortened (join " " (words s.description))) :=
    valid_shortened (valid_join hblank (valid_words hdescription))
  unfold summary
  dsimp only
  split
  · refine (hwords.append (by decide)).append ?_
    exact htype.of_subset fun c hc => mem_of_mem_trim hc
  · exact hwords

end Specification

/-- A count that doubles hold exactly. -/
def Level.Exact (l : Level) : Prop := ∃ n : Nat, n ≤ 9007199254740992 ∧ l = .count n

theorem Level.Exact.ofJson?_json {l : Level} (h : l.Exact) : ofJson? l.json = some l := by
  obtain ⟨n, hn, rfl⟩ := h
  have hdigits : (Decimal.digits n).all Text.isAsciiDigit = true :=
    List.all_eq_true.mpr fun c hc => Decimal.isAsciiDigit_of_mem_digits hc
  simp only [json, Json.ofNat, ofJson?, Decimal.natText, String.toList_ofList, hdigits,
    Decimal.natOfDigits_digits, hn, decide_true, Bool.and_self, if_true]

namespace Features

open Synthesis.Text

/-- Exact counts under valid names, in the order of the names. -/
structure Storable (f : Features) : Prop where
  ordered : f.entries.Pairwise fun a b => le a.1 b.1 = true
  names : ∀ e ∈ f.entries, Valid e.1
  levels : ∀ e ∈ f.entries, e.2.Exact

variable {f : Features}

theorem Storable.sorted_eq (h : f.Storable) : f.sorted = f.entries :=
  List.mergeSort_of_pairwise h.ordered

/-- Entries with new names are entered behind those that are there. -/
theorem over?_entries {t whole : Features} (entries : List (String × Level))
    (hwhole : whole.entries = t.entries ++ entries) (hlevels : ∀ e ∈ entries, e.2.Exact) :
    over? t (.object (entries.map fun e => (e.1, e.2.json))) = some whole := by
  induction entries generalizing t with
  | nil =>
    rw [List.append_nil] at hwhole
    exact congrArg some (Table.ext hwhole.symm)
  | cons e entries ih =>
    have hnew : e.1 ∉ t.entries.map (·.1) := by
      have hnodup := whole.nodup
      rw [hwhole, List.map_append, List.map_cons, List.nodup_append] at hnodup
      exact fun hmem => hnodup.2.2 e.1 hmem e.1 List.mem_cons_self rfl
    have hentered : (t.insert e.1 e.2).entries = t.entries ++ [e] := Table.put_of_notMem hnew e.2
    have hstep : over? t (.object ((e :: entries).map fun e => (e.1, e.2.json)))
        = over? (t.insert e.1 e.2) (.object (entries.map fun e => (e.1, e.2.json))) := by
      simp only [over?, List.map_cons, List.foldlM_cons,
        (hlevels e List.mem_cons_self).ofJson?_json]
      rfl
    rw [hstep]
    refine ih ?_ fun x hx => hlevels x (List.mem_cons_of_mem e hx)
    rw [hwhole, hentered, List.append_assoc, List.singleton_append]

theorem Storable.json_eq (h : f.Storable) :
    f.json = .object (f.entries.map fun e => (e.1, e.2.json)) := by
  rw [json, h.sorted_eq]

theorem Storable.over?_json (h : f.Storable) : over? {} f.json = some f := by
  rw [h.json_eq]
  exact over?_entries f.entries rfl h.levels

theorem Storable.plain (h : f.Storable) : Json.Plain 1 f.json := by
  rw [h.json_eq]
  refine .object ?_ ?_
  · intro m hm
    obtain ⟨e, he, rfl⟩ := List.mem_map.mp hm
    exact h.names e he
  · intro m hm
    obtain ⟨e, he, rfl⟩ := List.mem_map.mp hm
    obtain ⟨n, -, hn⟩ := h.levels e he
    rw [hn]
    exact .integer 0 n

theorem names_ofSpecification (s : Specification) :
    (ofSpecification s).entries.map (·.1) = order := rfl

end Features

/-- The lists of the specification, and the words of its type, are few enough to be counted
exactly. -/
structure Specification.Countable (s : Specification) : Prop where
  examples : s.exampleList.length ≤ 9007199254740992
  constraints : s.constraintList.length ≤ 9007199254740992
  typeWords : (Text.runs Text.isWordChar (Text.trim s.typeSignature).toList).length
    ≤ 9007199254740992

theorem Features.exact_flag (b : Bool) : (flag b).Exact := by
  cases b with
  | false => exact ⟨0, by decide, rfl⟩
  | true => exact ⟨1, by decide, rfl⟩

theorem Features.storable_ofSpecification {s : Specification} (h : s.Countable) :
    (Features.ofSpecification s).Storable := by
  refine ⟨?_, ?_, ?_⟩
  · have hnames : order.Pairwise fun a b => Text.le a b = true := by decide
    rw [← names_ofSpecification s, List.pairwise_map] at hnames
    exact hnames
  · have hnames : (order.all fun name => decide (Json.Bare name)) = true := by decide
    intro e he
    have hname : e.1 ∈ order := names_ofSpecification s ▸ List.mem_map_of_mem he
    exact (of_decide_eq_true (List.all_eq_true.mp hnames e.1 hname)).valid
  · simp only [ofSpecification, List.forall_mem_cons]
    exact ⟨⟨_, h.constraints, rfl⟩, exact_flag _, exact_flag _, exact_flag _, ⟨_, h.examples, rfl⟩,
      exact_flag _, exact_flag _, exact_flag _, exact_flag _, exact_flag _, exact_flag _,
      exact_flag _, exact_flag _, ⟨_, h.typeWords, rfl⟩, fun _ hnil => absurd hnil List.not_mem_nil⟩

namespace Outcome

open Json

/-- What a snapshot keeps of an outcome is the whole of it. -/
structure Storable (o : Outcome) : Prop where
  features : o.features.Storable
  strategy : Text.Valid o.strategy
  summary : Text.Valid o.summary
  iterations : Decimal.fitsInt64 o.iterations = true
  exact : o.recordedAt.Exact
  writable : o.recordedAt.formatError? = none

variable {o : Outcome}

theorem Storable.plain (h : o.Storable) : Plain 2 o.json := by
  have htime := (Timestamp.bare_render o.recordedAt).valid
  unfold json
  refine .cons (by decide) h.features.plain ?_
  refine .cons (by decide) (.text 1 h.strategy) ?_
  refine .cons (by decide) (.bool 1 o.success) ?_
  refine .cons (by decide) (.integer 1 o.iterations) ?_
  refine .cons (by decide) (.text 1 h.summary) ?_
  exact .cons (by decide) (.text 1 htime) (.nil 1)

theorem Storable.recordOver?_json (h : o.Storable) : recordOver? reads fresh o.json = some o := by
  have hbool : ∀ old b, over? bool? old (.bool b) = some b := fun _ _ => rfl
  have htime := over?_time (h.exact.parse?_render h.writable)
  have hfeatures : fresh.features.over? o.features.json = some o.features :=
    h.features.over?_json
  simp only [json, recordOver?_cons reads "features" rfl, recordOver?_cons reads "strategy" rfl,
    recordOver?_cons reads "success" rfl, recordOver?_cons reads "iterations" rfl,
    recordOver?_cons reads "spec_summary" rfl, recordOver?_cons reads "recorded_at" rfl,
    recordOver?_nil, hfeatures, over?_text h.strategy, over?_text h.summary, hbool,
    over?_int h.iterations, htime, Option.map_some, Option.bind_some]

end Outcome

namespace Snapshot

open Json

/-- Outcomes are read one after the other, each over a fresh one. -/
theorem listOver?_json {os : List Outcome} (h : ∀ o ∈ os, o.Storable) :
    listOver? (recordOver? Outcome.reads) Outcome.fresh none (.array (os.map (·.json)))
      = some (some os) := by
  have hitems : ∀ n, (((os.map (·.json)).zipIdx n).mapM fun (x : Json × Nat) =>
      recordOver? Outcome.reads ((([] : List Outcome)[x.2]?).getD Outcome.fresh) x.1)
        = some os := by
    induction os with
    | nil => exact fun n => rfl
    | cons o os ih =>
      intro n
      have hread := (h o List.mem_cons_self).recordOver?_json
      have hrest := ih (fun x hx => h x (List.mem_cons_of_mem o hx)) (n + 1)
      rw [List.map_cons, List.zipIdx_cons, List.mapM_cons, hrest, List.getElem?_nil,
        Option.getD_none, hread]
      rfl
  simp only [listOver?, Option.getD_none]
  rw [hitems 0]
  rfl

variable {s : Snapshot}

theorem plain_json (h : ∀ o ∈ s.outcomes.getD [], o.Storable) : Plain 4 s.json := by
  unfold json
  refine .cons (by decide) (.integer 3 s.version) (.cons (by decide) (.integer 3 s.limit) ?_)
  refine .cons (by decide) ?_ (.nil 3)
  cases houtcomes : s.outcomes with
  | none => exact .null 3
  | some os =>
    rw [houtcomes, Option.getD_some] at h
    refine .array fun v hv => ?_
    obtain ⟨o, ho, rfl⟩ := List.mem_map.mp hv
    exact (h o ho).plain

/-- The text of a snapshot stands for the snapshot. -/
theorem ofText?_render (hversion : Decimal.fitsInt64 s.version = true)
    (hlimit : Decimal.fitsInt64 s.limit = true) (h : ∀ o ∈ s.outcomes.getD [], o.Storable) :
    ofText? s.json.render = some s := by
  rw [ofText?, parse?_render (plain_json h) (by decide), Option.bind_some]
  obtain ⟨version, limit, outcomes⟩ := s
  simp only [json, recordOver?_cons reads "version" rfl, recordOver?_cons reads "max_history" rfl,
    recordOver?_cons reads "outcomes" rfl, recordOver?_nil, over?_int hversion, over?_int hlimit,
    Option.map_some, Option.bind_some]
  cases outcomes with
  | none => rfl
  | some os =>
    have hread : listOver? (recordOver? Outcome.reads) Outcome.fresh none
        (.array (os.map (·.json))) = some (some os) := listOver?_json h
    simp only [hread, Option.map_some, Option.bind_some]

end Snapshot

namespace Experience

/-- Something that was tried: when, on which specification, with which strategy, and how it went. -/
structure Trial where
  now : Timestamp
  specification : Specification
  strategy : String
  success : Bool
  iterations : Int

namespace Trial

def outcome (t : Trial) : Outcome :=
  ⟨.ofSpecification t.specification, t.strategy, t.success, t.iterations, t.specification.summary,
    t.now⟩

/-- The texts are valid, the specification can be counted exactly, the number of iterations is a
machine integer, and the time can be written. -/
structure Recordable (t : Trial) : Prop where
  description : Text.Valid t.specification.description
  typeSignature : Text.Valid t.specification.typeSignature
  countable : t.specification.Countable
  strategy : Text.Valid t.strategy
  iterations : Decimal.fitsInt64 t.iterations = true
  exact : t.now.Exact
  writable : t.now.formatError? = none

theorem Recordable.storable {t : Trial} (h : t.Recordable) : t.outcome.Storable := by
  refine ⟨?_, h.strategy, ?_, h.iterations, h.exact, h.writable⟩
  · dsimp only [outcome]
    exact Features.storable_ofSpecification h.countable
  · dsimp only [outcome]
    exact Specification.valid_summary h.description h.typeSignature

end Trial

/-- Records one trial after the other. -/
def recordAll (e : Experience) (trials : List Trial) : Experience :=
  trials.foldl (fun e t => e.record t.now t.specification t.strategy t.success t.iterations) e

theorem recordAll_cons (e : Experience) (t : Trial) (trials : List Trial) :
    e.recordAll (t :: trials) = (e.push t.outcome).recordAll trials := rfl

theorem limit_recordAll (e : Experience) (trials : List Trial) :
    (e.recordAll trials).limit = e.limit := by
  induction trials generalizing e with
  | nil => rfl
  | cons t trials ih =>
    rw [recordAll_cons, ih]
    rfl

theorem length_newest_le {α : Type} (n : Nat) (xs : List α) : (newest n xs).length ≤ n := by
  rw [newest, List.length_drop]
  omega

theorem newest_of_length_le {α : Type} {n : Nat} {xs : List α} (h : xs.length ≤ n) :
    newest n xs = xs := by
  rw [newest, Nat.sub_eq_zero_of_le h, List.drop_zero]

/-- A window that only recording has filled: it fits, and its outcomes can be stored. -/
structure Sound (e : Experience) : Prop where
  fits : e.window.length ≤ e.limit
  storable : ∀ o ∈ e.window, o.Storable

theorem Sound.push {e : Experience} (h : e.Sound) {o : Outcome} (ho : o.Storable) :
    (e.push o).Sound := by
  refine ⟨length_newest_le _ _, fun x hx => ?_⟩
  have hmem : x ∈ e.window ++ [o] := List.mem_of_mem_drop hx
  rcases List.mem_append.mp hmem with hx | hx
  · exact h.storable x hx
  · rw [List.mem_singleton.mp hx]
    exact ho

theorem Sound.recordAll {e : Experience} (h : e.Sound) {trials : List Trial}
    (htrials : ∀ t ∈ trials, t.Recordable) : (e.recordAll trials).Sound := by
  induction trials generalizing e with
  | nil => exact h
  | cons t trials ih =>
    rw [recordAll_cons]
    exact ih (h.push (htrials t List.mem_cons_self).storable) fun x hx =>
      htrials x (List.mem_cons_of_mem t hx)

theorem outcomes_snapshot (e : Experience) : e.snapshot.outcomes.getD [] = e.window := by
  unfold snapshot
  cases hwindow : e.window with
  | nil => rfl
  | cons o os => rfl

theorem Sound.save_eq {e : Experience} (h : e.Sound) : e.save = .ok e.snapshot.json.render := by
  have hwritable : e.snapshot.formatError? = none := by
    rw [Snapshot.formatError?, outcomes_snapshot, List.findSome?_eq_none_iff]
    exact fun o ho => (h.storable o ho).writable
  rw [save, hwritable]

/-- The text that is saved is restored as the newest part of the window. -/
theorem Sound.restore_eq {e : Experience} (h : e.Sound)
    (hlimit : Decimal.fitsInt64 e.limit = true) (target : Experience) :
    target.restore e.snapshot.json.render = .ok (target.replace e.window) := by
  have hread : Snapshot.ofText? e.snapshot.json.render = some e.snapshot := by
    apply Snapshot.ofText?_render
    · rfl
    · exact hlimit
    · rw [outcomes_snapshot]
      exact h.storable
  rw [restore, hread]
  simp only [outcomes_snapshot]
  exact if_pos rfl

theorem fitsInt64_new {capacity : Int} (h : Decimal.fitsInt64 capacity = true) :
    Decimal.fitsInt64 (Experience.new capacity).limit = true := by
  unfold Experience.new
  dsimp only
  split
  · decide
  · rw [Int.toNat_of_nonneg (by omega)]
    exact h

/-- A window filled by recording can be saved, and restored by anyone: they get the newest of its
outcomes, as many as their own limit allows, in the same order. With the same limit they go on
giving the same answers, whatever is recorded on both sides from then on. -/
theorem restore_save {capacity : Int} (hcapacity : Decimal.fitsInt64 capacity = true)
    {trials : List Trial} (htrials : ∀ t ∈ trials, t.Recordable) (target : Experience) :
    ∃ text restored, ((Experience.new capacity).recordAll trials).save = .ok text ∧
      target.restore text = .ok restored ∧ restored.limit = target.limit ∧
      restored.window = newest target.limit ((Experience.new capacity).recordAll trials).window ∧
      (target.limit = (Experience.new capacity).limit → ∀ (later : List Trial) (s : Specification),
        (∀ strategy, (restored.recordAll later).score s strategy
          = (((Experience.new capacity).recordAll trials).recordAll later).score s strategy) ∧
        (restored.recordAll later).recommend s
          = (((Experience.new capacity).recordAll trials).recordAll later).recommend s ∧
        ∀ count, (restored.recordAll later).similar s count
          = (((Experience.new capacity).recordAll trials).recordAll later).similar s count) := by
  have hstart : (Experience.new capacity).Sound := by
    refine ⟨Nat.zero_le _, fun o ho => ?_⟩
    exact absurd ho List.not_mem_nil
  have hsound := hstart.recordAll htrials
  have hlimit := limit_recordAll (Experience.new capacity) trials
  have hfits : Decimal.fitsInt64 ((Experience.new capacity).recordAll trials).limit = true := by
    rw [hlimit]
    exact fitsInt64_new hcapacity
  refine ⟨_, _, hsound.save_eq, hsound.restore_eq hfits target, rfl, rfl, ?_⟩
  intro hsame later s
  -- Nothing is cut off, so both sides are equal from here on.
  have hequal : target.replace ((Experience.new capacity).recordAll trials).window
      = (Experience.new capacity).recordAll trials := by
    have hcut := newest_of_length_le hsound.fits
    rw [hlimit, ← hsame] at hcut
    rw [replace, hcut, hsame, ← hlimit]
  rw [hequal]
  exact ⟨fun _ => rfl, rfl, fun _ => rfl⟩

/-- Three trials, of which the first is forgotten by a window of two. -/
def lessons : List Trial :=
  [⟨⟨0, 0, 0⟩, { description := "add" }, "hole", false, 1⟩,
    ⟨⟨1700000000, 120000000, 3600⟩,
      ⟨"swap \"a\" & \"ü\"", "(a, b) -> (b, a)", none, some ["total"], none⟩, "stepwise", true, 3⟩,
    ⟨⟨1700000001, 5, -1800⟩, { description := "sort\ta list" }, "hole", true, 0⟩]

theorem recordable_lessons : ∀ t ∈ lessons, t.Recordable := by
  intro t ht
  simp only [lessons, List.mem_cons, List.not_mem_nil, or_false] at ht
  rcases ht with rfl | rfl | rfl
  all_goals
    exact ⟨by decide, by decide, ⟨by decide, by decide, by decide⟩, by decide, by decide,
      ⟨by decide, by decide⟩, by decide⟩

theorem restore_save_lessons :
    Decimal.fitsInt64 2 = true ∧ (∀ t ∈ lessons, t.Recordable) ∧
      ∃ text restored, ((Experience.new 2).recordAll lessons).save = .ok text ∧
        (Experience.new 1).restore text = .ok restored ∧ restored.limit = 1 ∧
        restored.window = newest 1 ((Experience.new 2).recordAll lessons).window := by
  have hcapacity : Decimal.fitsInt64 2 = true := by decide
  obtain ⟨text, restored, hsave, hrestore, hlimit, hwindow, -⟩ :=
    restore_save hcapacity recordable_lessons (Experience.new 1)
  exact ⟨hcapacity, recordable_lessons, text, restored, hsave, hrestore, hlimit, hwindow⟩

end Experience

end Synthesis
