import Synthesis.Rehearsal.Rules
import Synthesis.Engine.Service

/-!
A workshop: an engine with scripted collaborators and a history, scripted or kept in a journal.
During a call time stands still and the history stays as it is; when the call has ended it takes
over the records of the call.
-/
namespace Synthesis.Rehearsal

structure Workshop where
  engine : Engine Diary
  session : Session Diary
  counts : Counts := {}
  script : Option HistoryScript := none
  journal : Option Journal := none
  /-- The time of the next call. -/
  now : Int

namespace Workshop

/-- What the history answers now. -/
def history (w : Workshop) : Option HistoryQuery :=
  (w.script.map (·.query)).or (w.journal.map (·.asHistory))

/-- The engine at the time of the next call. -/
def current (w : Workshop) : Engine Diary :=
  { w.engine with
    history := w.history.map fun ask _ _ => ask
    clock := fun _ => w.now }

/-- A time that stands for the current one, later for each record. -/
def presentTime (n : Nat) : Timestamp := .ofUnixNanos (1767225600000000000 + n)

def enterRecord (j : Journal) (r : HistoryRecord) : Journal :=
  let n := j.items.size
  let r := { r with recordedAt := Outcome.noTime }
  match j.append none (Decimal.natText n) (presentTime n) r with
  | .ok j => j
  | .error _ => j

/-- Hands the records of the last call to the history, and tells which the script took. -/
def settle (w : Workshop) : List HistoryRecord × Workshop :=
  let pending := w.session.pending
  let w := { w with
    session := { w.session with pending := [] }
    journal := w.journal.map fun j => pending.foldl enterRecord j }
  match w.script with
  | none => ([], w)
  | some h =>
    let (taken, h) := h.append pending
    (taken, { w with script := some h })

/-- A whole call with its counts, its caller stopped beforehand or not. -/
def call (w : Workshop) (s : Specification) (c : Context) (stopped : Option Interruption) :
    Result × List HistoryRecord × Workshop :=
  let (r, session) := w.current.synthesize s c { w.session with stopped }
  let (taken, w) :=
    { w with session := { session with stopped := none }, counts := w.counts.add r }.settle
  (r, taken, w)

def rank (w : Workshop) (s : Specification) (c : Context) : List Match :=
  w.engine.router.rank (w.session.walks w.engine).scores w.session.experience w.history s c

/-- Opens a workshop. A snapshot store answers `stored`; what it cannot answer is ignored. -/
def start (settings : Settings) (registry : Registry) (collaborators : Collaborators Diary)
    (world : Diary) (abstractions : Option Abstractions) (script : Option HistoryScript)
    (stored : Except Failure (Option String)) (now : Int) : Except OpenError Workshop := do
  let (engine, session) ←
    Engine.start settings registry collaborators world abstractions (fun _ => now) .inOrder
  let experience := match session.experience.load stored with
    | .ok e => e
    | .error _ => session.experience
  let own := settings.history.enabled && script.isNone
  return {
    engine
    session := { session with experience }
    script
    journal := if own then some {} else none
    now }

end Workshop

end Synthesis.Rehearsal
