import Synthesis.Experience.Snapshot
import Mathlib.Data.List.DropRight
import Mathlib.Data.List.Induction

/-!
The window of outcomes. Outcomes are recorded one by one, and now and then a snapshot is taken over
in place of the window. Whatever came before the last snapshot that was taken over does not matter:
the window holds the newest of that snapshot's outcomes and those recorded since. A snapshot that
cannot be read, or is not there, changes nothing.
-/
namespace Synthesis

/-- Cutting a list down to its newest members early does not matter when more members follow. -/
theorem newest_append {α : Type} (n : Nat) (xs ys : List α) :
    newest n (newest n xs ++ ys) = newest n (xs ++ ys) := by
  unfold newest
  rw [List.length_append, List.length_append, List.length_drop]
  by_cases hlong : n ≤ xs.length
  · have hleft : xs.length - (xs.length - n) + ys.length - n = ys.length := by omega
    have hright : xs.length + ys.length - n = (xs.length - n) + ys.length := by omega
    rw [hleft, hright, ← List.drop_drop, List.drop_append_of_le_length (Nat.sub_le _ _)]
  · have hshort : xs.length - n = 0 := by omega
    rw [hshort, List.drop_zero, Nat.sub_zero]

/-- The outcomes of a text that is a snapshot of the current version. -/
def Snapshot.outcomesIn? (text : String) : Option (List Outcome) :=
  (Snapshot.ofText? text).bind fun s =>
    if s.version = Snapshot.currentVersion then some (s.outcomes.getD []) else none

namespace Experience

/-- What is done with experience. -/
inductive Act where
  | record (now : Timestamp) (s : Specification) (strategy : String) (success : Bool)
      (iterations : Int)
  | restore (text : String)
  /-- A store fails, has no snapshot, or answers with one. -/
  | load (answer : Except Failure (Option String))
  /-- A store takes the snapshot or fails. -/
  | save (failing : Option Failure)
  | snapshot

namespace Act

def recorded? : Act → Option Outcome
  | .record now s strategy success iterations =>
    some ⟨.ofSpecification s, strategy, success, iterations, s.summary, now⟩
  | _ => none

/-- The text of a snapshot that is to be taken over. -/
def text? : Act → Option String
  | .restore text => some text
  | .load (.ok answer) => answer
  | _ => none

/-- The outcomes that take the place of the window. -/
def takenOver? (a : Act) : Option (List Outcome) := a.text?.bind Snapshot.outcomesIn?

end Act

/-- The experience that comes of taking over a snapshot, which stays the same after an error. -/
def settle (e : Experience) : Except SnapshotError Experience → Option Failure × Experience
  | .ok taken => (none, taken)
  | .error cause => (some cause.failure, e)

/-- The failure that an act reports, and the experience after it. -/
def perform (e : Experience) : Act → Option Failure × Experience
  | .record now s strategy success iterations => (none, e.record now s strategy success iterations)
  | .restore text => e.settle (e.restore text)
  | .load answer => e.settle (e.load answer)
  | .save failing =>
    match e.saveTo failing with
    | .ok _ => (none, e)
    | .error cause => (some cause, e)
  | .snapshot =>
    match e.save with
    | .ok _ => (none, e)
    | .error cause => (some cause.failure, e)

def after (e : Experience) (acts : List Act) : Experience :=
  acts.foldl (fun e a => (e.perform a).2) e

/-- The outcomes of the last snapshot that was taken over, and then those recorded since. -/
def told (acts : List Act) : List Outcome :=
  (acts.filterMap Act.takenOver?).getLast?.getD [] ++
    (acts.rtakeWhile fun a => a.takenOver?.isNone).filterMap Act.recorded?

theorem told_concat (acts : List Act) (a : Act) :
    told (acts ++ [a]) = a.takenOver?.getD (told acts ++ a.recorded?.toList) := by
  unfold told
  cases htaken : a.takenOver? with
  | none =>
    have hsince : (acts ++ [a]).rtakeWhile (fun a => a.takenOver?.isNone) =
        acts.rtakeWhile (fun a => a.takenOver?.isNone) ++ [a] :=
      List.rtakeWhile_concat_pos _ _ _ (by rw [htaken]; rfl)
    have hrecorded : [a].filterMap Act.recorded? = a.recorded?.toList := by
      cases hrecord : a.recorded? <;> simp [hrecord]
    rw [hsince, List.filterMap_append, List.filterMap_append, hrecorded]
    simp [htaken]
  | some outcomes =>
    have hsince : (acts ++ [a]).rtakeWhile (fun a => a.takenOver?.isNone) = [] :=
      List.rtakeWhile_concat_neg _ _ _ (by rw [htaken]; exact Bool.false_ne_true)
    rw [hsince, List.filterMap_append]
    simp [htaken]

/-- What an act can do: take over a snapshot, record an outcome, report a failure, or nothing. -/
inductive Performs (e : Experience) (a : Act) : Option Failure × Experience → Prop where
  | takesOver (outcomes : List Outcome) (htaken : a.takenOver? = some outcomes) :
      Performs e a (none, e.replace outcomes)
  | records (o : Outcome) (htext : a.text? = none) (hrecord : a.recorded? = some o) :
      Performs e a (none, e.push o)
  | fails (cause : Failure) (htaken : a.takenOver? = none) (hrecord : a.recorded? = none) :
      Performs e a (some cause, e)
  | rests (htext : a.text? = none) (hrecord : a.recorded? = none) : Performs e a (none, e)

theorem settle_performs (e : Experience) {a : Act} {text : String} (htext : a.text? = some text)
    (hrecord : a.recorded? = none) : Performs e a (e.settle (e.restore text)) := by
  have htaken : a.takenOver? = Snapshot.outcomesIn? text := by rw [Act.takenOver?, htext]; rfl
  unfold restore
  split
  next hread => exact .fails _ (by simp [htaken, Snapshot.outcomesIn?, hread]) hrecord
  next s hread =>
    split
    next hversion => exact .takesOver _ (by simp [htaken, Snapshot.outcomesIn?, hread, hversion])
    next hversion =>
      exact .fails _ (by simp [htaken, Snapshot.outcomesIn?, hread, hversion]) hrecord

theorem perform_performs (e : Experience) (a : Act) : Performs e a (e.perform a) := by
  cases a with
  | record now s strategy success iterations => exact .records _ rfl rfl
  | restore text => exact e.settle_performs rfl rfl
  | load answer =>
    cases answer with
    | error cause => exact .fails _ rfl rfl
    | ok answer =>
      cases answer with
      | none => exact .rests rfl rfl
      | some text => exact e.settle_performs rfl rfl
  | save failing =>
    unfold perform
    dsimp only
    split
    · exact .rests rfl rfl
    · exact .fails _ rfl rfl
  | snapshot =>
    unfold perform
    dsimp only
    split
    · exact .rests rfl rfl
    · exact .fails _ rfl rfl

theorem takenOver?_of_textless {a : Act} (h : a.text? = none) : a.takenOver? = none := by
  rw [Act.takenOver?, h]
  rfl

/-- Nothing is reported when a snapshot is taken over, and a failure when it is not. -/
theorem perform_silent_iff (e : Experience) {a : Act} {text : String}
    (htext : a.text? = some text) : (e.perform a).1 = none ↔ a.takenOver?.isSome := by
  have hperforms := e.perform_performs a
  generalize e.perform a = out at hperforms ⊢
  cases hperforms with
  | takesOver taken htaken => simp [htaken]
  | records o htextless hrecord => rw [htext] at htextless; cases htextless
  | fails cause htaken hrecord => simp [htaken]
  | rests htextless hrecord => rw [htext] at htextless; cases htextless

theorem perform_of_failure {e : Experience} {a : Act} {cause : Failure}
    (hcause : (e.perform a).1 = some cause) : (e.perform a).2 = e := by
  have hperforms := e.perform_performs a
  generalize e.perform a = out at hperforms hcause ⊢
  cases hperforms with
  | fails cause htaken hrecord => rfl
  | takesOver taken htaken => cases hcause
  | records o htext hrecord => cases hcause
  | rests htext hrecord => cases hcause

/-- The window goes along with what is told. -/
theorem perform_window {e : Experience} {outcomes : List Outcome}
    (h : e.window = newest e.limit outcomes) (a : Act) :
    (e.perform a).2.limit = e.limit ∧ (e.perform a).2.window =
      newest e.limit (a.takenOver?.getD (outcomes ++ a.recorded?.toList)) := by
  have hperforms := e.perform_performs a
  generalize e.perform a = out at hperforms ⊢
  cases hperforms with
  | takesOver taken htaken =>
    rw [htaken]
    exact ⟨rfl, rfl⟩
  | records o htext hrecord =>
    rw [takenOver?_of_textless htext, hrecord]
    refine ⟨rfl, ?_⟩
    change newest e.limit (e.window ++ [o]) = newest e.limit (outcomes ++ [o])
    rw [h, newest_append]
  | fails cause htaken hrecord =>
    rw [htaken, hrecord, Option.getD_none, Option.toList_none, List.append_nil]
    exact ⟨rfl, h⟩
  | rests htext hrecord =>
    rw [takenOver?_of_textless htext, hrecord, Option.getD_none, Option.toList_none,
      List.append_nil]
    exact ⟨rfl, h⟩

theorem after_concat (e : Experience) (acts : List Act) (a : Act) :
    e.after (acts ++ [a]) = ((e.after acts).perform a).2 := List.foldl_concat _ _ _ _

theorem after_window (limit : Int) (acts : List Act) :
    ((new limit).after acts).limit = (new limit).limit ∧
      ((new limit).after acts).window = newest (new limit).limit (told acts) := by
  induction acts using List.reverseRecOn with
  | nil => exact ⟨rfl, by simp [after, told, newest, new]⟩
  | append_singleton acts a ih =>
    obtain ⟨hlimit, hwindow⟩ := ih
    rw [← hlimit] at hwindow
    have hperform := perform_window hwindow a
    rw [after_concat, told_concat, ← hlimit]
    exact ⟨hperform.1, hperform.2⟩

/-- After any acts on an empty window of at least one outcome, the window holds the newest of what
was told: the outcomes of the last snapshot that was taken over, if any, and then all that were
recorded since. A snapshot is taken over just when no failure is reported; an act that reports a
failure, and loading without a stored snapshot, leave everything as it was. -/
theorem window_holds_newest_told {limit : Int} (hlimit : 1 ≤ limit) (acts : List Act) :
    let e := (Experience.new limit).after acts
    e.window = (told acts).rtake limit.toNat ∧
      (∀ a text, a.text? = some text → ((e.perform a).1 = none ↔ a.takenOver?.isSome)) ∧
      (∀ a cause, (e.perform a).1 = some cause → (e.perform a).2 = e) ∧
      e.perform (.load (.ok none)) = (none, e) := by
  intro e
  have hsize : (Experience.new limit).limit = limit.toNat := if_neg (by omega)
  have hwindow := (after_window limit acts).2
  rw [hsize] at hwindow
  refine ⟨hwindow, ?_, ?_, rfl⟩
  · intro a text htext
    exact e.perform_silent_iff htext
  · intro a cause hcause
    exact perform_of_failure hcause

/-- A snapshot of three outcomes. -/
def album : String :=
  "\x7b\"version\":1,\"outcomes\":[\x7b\"strategy\":\"a\"\x7d," ++
    "\x7b\"strategy\":\"b\"\x7d,\x7b\"strategy\":\"c\"\x7d]\x7d"

/-- Outcomes before and after a snapshot, and snapshots that are not taken over. -/
def reminiscence : List Act :=
  [.record Outcome.noTime {} "first" true 1, .load (.ok (some album)),
    .restore "\x7b\"version\":2\x7d", .restore "no snapshot", .load (.error (.plain "closed")),
    .load (.ok none), .record Outcome.noTime {} "last" false 2, .save none, .snapshot]

theorem window_holds_newest_told_reminiscence :
    (1 : Int) ≤ 3 ∧
      ((Experience.new 3).after reminiscence).window = (told reminiscence).rtake 3 ∧
      ((Experience.new 3).after reminiscence).window.map (·.strategy) = ["b", "c", "last"] := by
  have hlimit : (1 : Int) ≤ 3 := by decide
  have hwindow := (window_holds_newest_told hlimit reminiscence).1
  refine ⟨hlimit, hwindow, ?_⟩
  rw [hwindow]
  decide +kernel

end Experience

end Synthesis
