import Synthesis.Engine.Solve
import Synthesis.Settings.Check
import Synthesis.Journal

/-!
Opening an engine from settings and collaborators, calling it, counting its calls, and closing it.
-/
namespace Synthesis

/-- A call that lacks something it needs. -/
inductive RequestError where
  | noContext
  | noSpecification
  | noServices
  deriving Repr, DecidableEq

def RequestError.message : RequestError → String
  | .noContext => "context must not be nil"
  | .noSpecification => "specification must not be nil"
  | .noServices => "services must not be nil"

inductive OpenError where
  | settings (e : Settings.SettingsError)
  | strategies (e : RegistryError)
  | journal (message : String)

def OpenError.message : OpenError → String
  | .settings e => "invalid config: " ++ e.message
  | .strategies e => "enabled strategies: " ++ e.message
  | .journal message => "open history store: " ++ message

structure Counts where
  calls : Nat := 0
  successes : Nat := 0
  failures : Nat := 0
  cacheHits : Nat := 0

def Counts.add (n : Counts) (r : Result) : Counts :=
  { calls := n.calls + 1
    successes := n.successes + (if r.success then 1 else 0)
    failures := n.failures + (if r.success then 0 else 1)
    cacheHits := n.cacheHits + (if r.cached then 1 else 0) }

namespace Engine

variable {ω : Type}

/-- An engine and a fresh session. -/
def start (settings : Settings) (registry : Registry) (collaborators : Collaborators ω)
    (world : ω) (abstractions : Option Abstractions) (clock : ω → Int) (walks : Walks) :
    Except OpenError (Engine ω × Session ω) := do
  match settings.error? with
  | some e => .error (.settings e)
  | none =>
    let registry ← (registry.filter settings.enabledStrategies).mapError .strategies
    return (
      { settings
        router := .new registry settings.history.queryLimit walks
        collaborators
        clock },
      { solutions := settings.newSolutions
        strategies := settings.newStrategies
        results := settings.newExecutions
        experience := .new settings.maxHistory
        abstractions
        world })

/-- What a call needs, if it has it. -/
def request (hasContext : Bool) (s : Option Specification) : Except RequestError Specification :=
  if !hasContext then .error .noContext
  else match s with
    | none => .error .noSpecification
    | some s => .ok s

end Engine

/-- What closing comes to: what a store of experience was given, and the failures joined. -/
structure Closing where
  saved : Option String := none
  failure : Option Failure := none

/-- Ends a session. The store of experience, if there is one, may fail to take it over, and an owned
history may fail to close; neither keeps the other from being tried. -/
def Session.close {ω : Type} (session : Session ω) (store : Option (Option Failure))
    (historyFailure : Option Failure) : Closing :=
  let kept := store.map session.experience.saveTo
  let failures :=
    (match kept with
      | some (.error f) => [.wrapped "save learner snapshot" f]
      | _ => [])
    ++ (historyFailure.map (.wrapped "close history store")).toList
  { saved := kept.bind (·.toOption)
    failure := if failures.isEmpty then none else some (.joined failures) }

end Synthesis
