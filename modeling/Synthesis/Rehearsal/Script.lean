import Synthesis.Exchange.Reading
import Synthesis.Leaf.Scaffold
import Synthesis.Leaf.Validation
import Synthesis.Ranking

/-!
Scripted collaborators, to rehearse synthesis without a model. A script is a list of rules; a
call takes the first rule whose conditions hold, and the rule says what the collaborator does.
Scripted strategies say what they handle and which subproblems they return.
-/
namespace Synthesis.Rehearsal

open Synthesis.Exchange

/-- A text with every occurrence of a piece replaced. -/
def replaceAll (piece by_ text : String) : String := Text.join by_ (text.splitOn piece)

/-- The place of the description of what is to be solved, inside a scripted text. -/
def descriptionMark : String := "\x7bd\x7d"

def attemptMark : String := "\x7ba\x7d"

def estimate? : Json → Option Float
  | .null => some 0
  | j =>
    match Json.string? j with
    | some "nan" => some (0 / 0)
    | some "inf" => some (1 / 0)
    | some "-inf" => some (-1 / 0)
    | _ => Json.float? j

/-- The subproblem for a parent with the given description. -/
def instantiate (description : String) (p : Subproblem) : Subproblem :=
  { p with
    specification :=
      { p.specification with
        description := replaceAll descriptionMark description p.specification.description } }

def scriptedStrategy? (j : Json) : Option Strategy := do
  let f ← fields? j
  let handleIf ← str f "handle_if"
  let handleOnly ← strOpt f "handle_only"
  let estimate ← sub estimate? f "estimate"
  let subs ← list subproblem? f "subs"
  let err ← sub failure? f "err"
  return {
    metadata :=
      { name := ← str f "name", description := ← str f "description",
        keywords := ← texts f "keywords", atomic := ← flag f "atomic" }
    canHandle := fun s _ => match handleOnly with
      | some d => s.description == d
      | none => Text.contains s.description handleIf
    decompose := fun s _ => match err with
      | some e => .error e
      | none => .ok (subs.map (instantiate s.description))
    estimate := fun _ _ => estimate }

/-- A scripted strategy or a named one of those that are always there. -/
def strategy? (j : Json) : Option Strategy := do
  let f ← fields? j
  match ← subOpt scriptedStrategy? f "script" with
  | some s => return s
  | none => Registry.builtin.get? (← str f "builtin")

/-- A history with scripted answers. -/
structure HistoryScript where
  records : List HistoryRecord
  queryError : Option Failure
  appendError : Option Failure
  unfiltered : Bool
  noLimit : Bool

def historyScript? (j : Json) : Option HistoryScript := do
  let f ← fields? j
  let records ← list (fun j => do
    let f ← fields? j
    let r : HistoryRecord :=
      { id := ← str f "id", query := ← str f "query", strategy := ← str f "strategy",
        outcome := ← str f "outcome", iterations := ← int f "iterations" }
    return r) f "records"
  return { records, queryError := ← sub failure? f "query_err",
           appendError := ← sub failure? f "append_err", unfiltered := ← flag f "unfiltered",
           noLimit := ← flag f "no_limit" }

namespace HistoryScript

/-- The newest records of the wanted strategy. -/
def query (h : HistoryScript) : HistoryQuery := fun _ limit name =>
  match h.queryError with
  | some e => .error e
  | none =>
    let own := h.records.reverse.filter fun r => h.unfiltered || r.strategy == name
    .ok (if h.noLimit then own else own.take limit.toNat)

/-- Less by query, strategy, iterations and outcome. -/
def recordLe (a b : HistoryRecord) : Bool :=
  if a.query ≠ b.query then Text.le a.query b.query
  else if a.strategy ≠ b.strategy then Text.le a.strategy b.strategy
  else if a.iterations ≠ b.iterations then a.iterations < b.iterations
  else Text.le a.outcome b.outcome

/-- Takes over pending records and says which. -/
def append (h : HistoryScript) (pending : List HistoryRecord) :
    List HistoryRecord × HistoryScript :=
  match h.appendError with
  | some _ => ([], h)
  | none =>
    let sorted := pending.mergeSort recordLe
    (sorted, { h with records := h.records ++ sorted })

end HistoryScript

end Synthesis.Rehearsal
