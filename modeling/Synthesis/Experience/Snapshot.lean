import Synthesis.Experience.Window
import Synthesis.Json.Fields
import Synthesis.Json.Writer
import Synthesis.Failure

/-!
Snapshots of experience as JSON text. A snapshot holds the whole window; restoring one replaces
the window by its newest outcomes, and a text that is no snapshot leaves the window as it was.
-/
namespace Synthesis

namespace Level

def json : Level → Json
  | .count n => .ofNat n
  | .real x => .ofFloat x

/-- A plain natural that a double holds exactly is a count; every other number is a real. -/
def ofJson? : Json → Option Level
  | .null => some (.count 0)
  | .number literal =>
    let n := Decimal.natOfDigits literal.toList
    if literal.toList.all Text.isAsciiDigit && n ≤ 9007199254740992 then some (.count n)
    else
      let x := Json.floatOf literal
      if x.isInf then none else some (.real x)
  | _ => none

end Level

namespace Features

def json (f : Features) : Json := .object (f.sorted.map fun (k, l) => (k, l.json))

/-- Enters the members of an object; null empties the features. -/
def over? (f : Features) : Json → Option Features
  | .null => some {}
  | .object members =>
    members.foldlM (fun f (k, j) => (Level.ofJson? j).map fun l => f.insert k l) f
  | _ => none

end Features

namespace Outcome

def json (o : Outcome) : Json :=
  .object [("features", o.features.json), ("strategy", .text o.strategy),
    ("success", .bool o.success), ("iterations", .ofInt o.iterations),
    ("spec_summary", .text o.summary), ("recorded_at", .text o.recordedAt.render)]

/-- The instant that stands for "no time". -/
def noTime : Timestamp := ⟨-62135596800, 0, 0⟩

/-- A time is read as its literal stands, so that no character of it may be escaped. -/
def time? : Json → Option Timestamp
  | .string literal => Timestamp.parse? literal
  | _ => none

def fresh : Outcome := ⟨{}, "", false, 0, "", noTime⟩

def reads : Json.Reads Outcome := [
  ("features", fun o j => (o.features.over? j).map fun v => { o with features := v }),
  ("strategy", fun o j =>
    (Json.over? Json.string? o.strategy j).map fun v => { o with strategy := v }),
  ("success", fun o j => (Json.over? Json.bool? o.success j).map fun v => { o with success := v }),
  ("iterations", fun o j =>
    (Json.over? Json.int? o.iterations j).map fun v => { o with iterations := v }),
  ("spec_summary", fun o j =>
    (Json.over? Json.string? o.summary j).map fun v => { o with summary := v }),
  ("recorded_at", fun o j =>
    (Json.over? time? o.recordedAt j).map fun v => { o with recordedAt := v })]

end Outcome

structure Snapshot where
  version : Int
  limit : Int
  /-- Absent when there was nothing to keep. -/
  outcomes : Option (List Outcome)

namespace Snapshot

def currentVersion : Int := 1

def json (s : Snapshot) : Json :=
  .object [("version", .ofInt s.version), ("max_history", .ofInt s.limit),
    ("outcomes", match s.outcomes with
      | none => .null
      | some os => .array (os.map (·.json)))]

def reads : Json.Reads Snapshot := [
  ("version", fun s j => (Json.over? Json.int? s.version j).map fun v => { s with version := v }),
  ("max_history", fun s j => (Json.over? Json.int? s.limit j).map fun v => { s with limit := v }),
  ("outcomes", fun s j =>
    (Json.listOver? (Json.recordOver? Outcome.reads) Outcome.fresh s.outcomes j).map
      fun v => { s with outcomes := v })]

def ofText? (text : String) : Option Snapshot :=
  (Json.parse? text).bind (Json.recordOver? reads ⟨0, 0, none⟩)

/-- Why the snapshot has no text: an outcome whose time cannot be written. -/
def formatError? (s : Snapshot) : Option Timestamp.FormatError :=
  (s.outcomes.getD []).findSome? (·.recordedAt.formatError?)

end Snapshot

inductive SnapshotError where
  | malformed
  | unsupportedVersion (version : Int)
  | loading (cause : Failure)
  | unwritable (cause : Timestamp.FormatError)
  | saving (cause : Failure)

namespace SnapshotError

def failure : SnapshotError → Failure
  | .malformed => .wrapped "decode learner snapshot" (.plain "malformed JSON")
  | .unsupportedVersion v =>
    .plain ("unsupported learner snapshot version " ++ Decimal.intText v)
  | .loading cause => .wrapped "load learner snapshot" cause
  | .unwritable cause =>
    .plain ("json: error calling MarshalJSON for type *time.Time: " ++ cause.message)
  | .saving cause => .wrapped "save learner snapshot" cause

def message (e : SnapshotError) : String := e.failure.message

end SnapshotError

namespace Experience

def snapshot (e : Experience) : Snapshot :=
  ⟨Snapshot.currentVersion, e.limit, if e.window.isEmpty then none else some e.window⟩

/-- The window as text. -/
def save (e : Experience) : Except SnapshotError String :=
  match e.snapshot.formatError? with
  | some cause => .error (.unwritable cause)
  | none => .ok e.snapshot.json.render

/-- Saves the window in a store, which may fail. -/
def saveTo (e : Experience) (failing : Option Failure) : Except Failure String :=
  match e.save with
  | .error cause => .error (.wrapped "snapshot learner" cause.failure)
  | .ok text =>
    match failing with
    | some cause => .error (SnapshotError.saving cause).failure
    | none => .ok text

def restore (e : Experience) (text : String) : Except SnapshotError Experience :=
  match Snapshot.ofText? text with
  | none => .error .malformed
  | some s =>
    if s.version = Snapshot.currentVersion then .ok (e.replace (s.outcomes.getD []))
    else .error (.unsupportedVersion s.version)

/-- Restores what a store answered: nothing stored is no error. -/
def load (e : Experience) (stored : Except Failure (Option String)) :
    Except SnapshotError Experience :=
  match stored with
  | .error cause => .error (.loading cause)
  | .ok none => .ok e
  | .ok (some text) => e.restore text

end Experience

end Synthesis
