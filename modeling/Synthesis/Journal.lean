import Synthesis.Ranking
import Synthesis.Store.Ordered

/-!
The journal: a store of past runs, and of one snapshot of experience. It is an ordered map from
keys to texts. The key of a record has the instant of the run and then the id, so that from the
year 1970 on later records have later keys; a query walks the keys backwards and returns the newest
records first. A journal in memory forgets everything when it is opened again, one on disk keeps it.
-/
namespace Synthesis

inductive JournalError where
  | interrupted (why : Interruption)
  | closed
  | noSnapshot
  | noPath
  | badRatio
  | unwritable (cause : Timestamp.FormatError)
  | unreadable (key : String)
  deriving Repr, DecidableEq

def JournalError.message : JournalError → String
  | .interrupted why => why.message
  | .closed => "history store is closed"
  | .noSnapshot => "no learner snapshot stored"
  | .noPath => "path is required for persistent history store"
  | .badRatio => "create GC runner: ratio must be between 0 and 1 exclusive"
  | .unwritable cause =>
    "encode history record: json: error calling MarshalJSON for type *time.Time: " ++ cause.message
  | .unreadable key => "decode history record " ++ key ++ ": malformed JSON"

namespace HistoryRecord

def json (r : HistoryRecord) : Json :=
  .object [("id", .text r.id), ("query", .text r.query), ("strategy", .text r.strategy),
    ("outcome", .text r.outcome), ("iterations", .ofInt r.iterations),
    ("recorded_at", .text r.recordedAt.render)]

def reads : Json.Reads HistoryRecord := [
  ("id", fun r j => (Json.over? Json.string? r.id j).map fun v => { r with id := v }),
  ("query", fun r j => (Json.over? Json.string? r.query j).map fun v => { r with query := v }),
  ("strategy", fun r j =>
    (Json.over? Json.string? r.strategy j).map fun v => { r with strategy := v }),
  ("outcome", fun r j =>
    (Json.over? Json.string? r.outcome j).map fun v => { r with outcome := v }),
  ("iterations", fun r j =>
    (Json.over? Json.int? r.iterations j).map fun v => { r with iterations := v }),
  ("recorded_at", fun r j =>
    (Json.over? Outcome.time? r.recordedAt j).map fun v => { r with recordedAt := v })]

def ofText? (text : String) : Option HistoryRecord :=
  (Json.parse? text).bind (Json.recordOver? reads { recordedAt := Outcome.noTime })

end HistoryRecord

/-- Where and how a journal is kept. -/
structure JournalPlan where
  inMemory : Bool := true
  path : String := ""
  /-- The share of garbage at which a file on disk is written anew. -/
  discardRatio : Float := 0.5

structure Journal where
  items : OrderedMap String := .empty
  closed : Bool := false

namespace Journal

/-- Twenty places, the sign included. -/
def instantText (nanos : Int) : String :=
  if nanos < 0 then "-" ++ Timestamp.padded 19 nanos.natAbs else Timestamp.padded 20 nanos.natAbs

/-- The keys of records start with this. -/
def recordMark : String := "hist/"

def snapshotKey : String := "learner/snapshot"

/-- The key of a record: its instant in nanoseconds, inside the signed sixty-four bit range, and
its id. -/
def key (r : HistoryRecord) : String :=
  recordMark ++ instantText (Decimal.wrap64 r.recordedAt.unixNanos) ++ "/" ++ r.id

/-- Opens a journal with the given content. -/
def openWith (plan : JournalPlan) (content : Journal) : Except JournalError Journal :=
  if plan.inMemory then .ok {}
  else if plan.path = "" then .error .noPath
  else if 0 < plan.discardRatio ∧ plan.discardRatio < 1 then .ok { content with closed := false }
  else .error .badRatio

/-- A call that was stopped, or comes after the journal was closed, fails. -/
def guarded {α : Type} (j : Journal) (stopped : Option Interruption)
    (act : Except JournalError α) : Except JournalError α :=
  match stopped with
  | some why => .error (.interrupted why)
  | none => if j.closed then .error .closed else act

/-- A record without an id gets the fresh one, and a record without a time the current one. -/
def completed (r : HistoryRecord) (freshId : String) (now : Timestamp) : HistoryRecord :=
  { r with
    id := if r.id = "" then freshId else r.id
    recordedAt := if r.recordedAt.isZero then now else r.recordedAt }

def append (j : Journal) (stopped : Option Interruption) (freshId : String) (now : Timestamp)
    (r : HistoryRecord) : Except JournalError Journal :=
  let r := completed r freshId now
  match stopped, r.recordedAt.formatError? with
  | none, some cause => .error (.unwritable cause)
  | _, _ =>
    j.guarded stopped (.ok { j with items := j.items.insert (Text.utf8 (key r)) r.json.render })

/-- The stored records, the newest first: back from behind the last of their keys, as long as the
keys are those of records. -/
def newestFirst (j : Journal) : List (List Nat × String) :=
  let mark := Text.utf8 recordMark
  (j.items.backFrom (mark ++ [0xFF])).takeWhile fun e => mark.isPrefixOf e.1

/-- Reads stored records until there are enough of the strategy, or of any strategy if no name is
given; a limit that is not positive is none. -/
def collect (limit : Int) (strategy : String) (found : List HistoryRecord) :
    List (List Nat × String) → Except JournalError (List HistoryRecord)
  | [] => .ok found
  | (key, data) :: rest =>
    match HistoryRecord.ofText? data with
    | none => .error (.unreadable (Text.ofUtf8 key))
    | some r =>
      if strategy ≠ "" ∧ r.strategy ≠ strategy then collect limit strategy found rest
      else if 0 < limit ∧ limit ≤ found.length + 1 then .ok (found ++ [r])
      else collect limit strategy (found ++ [r]) rest

/-- The newest records of a strategy, or of all strategies if no name is given; a positive limit
bounds their number. -/
def query (j : Journal) (stopped : Option Interruption) (limit : Int) (strategy : String) :
    Except JournalError (List HistoryRecord) :=
  j.guarded stopped (collect limit strategy [] j.newestFirst)

def save (j : Journal) (stopped : Option Interruption) (data : String) :
    Except JournalError Journal :=
  j.guarded stopped (.ok { j with items := j.items.insert (Text.utf8 snapshotKey) data })

def load (j : Journal) (stopped : Option Interruption) : Except JournalError String :=
  j.guarded stopped (match j.items.get? (Text.utf8 snapshotKey) with
    | some data => .ok data
    | none => .error .noSnapshot)

def close (j : Journal) : Journal := { j with closed := true }

/-- The journal as the history that strategies are ranked by. -/
def asHistory (j : Journal) : HistoryQuery := fun _ limit strategy =>
  match j.query none limit strategy with
  | .ok records => .ok records
  | .error e => .error (.plain e.message)

end Journal

end Synthesis
