import Synthesis.Chat.Model
import Synthesis.Exchange.Reading
import Synthesis.Exchange.Writing
import Synthesis.Leaf.Retry

/-!
A chat server that gives prepared answers in turn, the last of them again and again, and keeps
the requests.
-/
namespace Synthesis.Rehearsal

open Synthesis.Exchange

/-- The message of an error body. -/
def errorMessage? (body : String) : Option String := do
  let members ← (← Json.parse? body |> some).bind Json.object?
  let error ← (Json.field? members "error").bind Json.object?
  (Json.field? error "message").bind Json.string?

/-- The contents of the choices in the body of an answer. -/
def choiceTexts? (body : String) : Option (List String) := do
  list (fun j => do str (← sub fields? (← fields? j) "message") "content")
    (← (← Json.parse? body |> some).bind fields?) "choices"

def chatAnswer? (j : Json) : Option Chat.Answer := do
  let f ← fields? j
  let status := (← int f "status").toNat
  let accepted := 200 ≤ status ∧ status < 400
  match ← strOpt f "raw" with
  | some body =>
    if accepted then return (choiceTexts? body).elim (.unreachable "unexpected EOF") .choices
    else return .refused status (errorMessage? body)
  | none =>
    if accepted then return .choices (← texts f "content")
    else return .refused status (some (← str f "message"))

/-- The answers left, and the requests so far. -/
structure ChatDesk where
  answers : List Chat.Answer
  requests : List Chat.Request := []

def chatServer : Chat.Server ChatDesk := fun r d =>
  let d := { d with requests := d.requests ++ [r] }
  match d.answers with
  | [] => (.choices [], d)
  | [a] => (a, d)
  | a :: rest => (a, { d with answers := rest })

def chatRequestJson (r : Chat.Request) : Json :=
  .object [("path", .text "/chat/completions"), ("model", .text r.model),
    ("temperature", if r.temperature == 0 then .null else num r.temperature),
    ("max_tokens", .ofInt r.maxTokens),
    ("messages", array (fun m => .object [("role", .text m.role), ("content", .text m.content)])
      r.messages)]

/-- One request to a chat model, repeated as often as the retries allow. -/
structure ChatTrial where
  hasKey : Bool
  model : Chat.Model
  retries : Option Int
  stopped : Option Interruption
  specification : Specification
  context : Context
  hints : Hints
  answers : List Chat.Answer

def chatTrial? (f : Fields) : Option ChatTrial := do
  return {
    hasKey := !(← flag f "no_key")
    model := .new (← str f "model") (← str f "system") (← float f "temperature").toFloat32.toFloat
      (← int f "max_tokens")
    retries := ← intOpt f "retries"
    stopped := if ← flag f "cancelled" then some .cancelled else none
    specification := ← sub spec? f "spec"
    context := ← sub context? f "context"
    hints := ← sub hints? f "hints"
    answers := ← list chatAnswer? f "replies" }

def ChatTrial.run (t : ChatTrial) : Reply ChatDesk Candidate :=
  let g := t.model.generator chatServer
  let g := match t.retries with
    | some n => g.retrying { timeout := 0, maxRetries := n }
    | none => g
  g t.specification t.context t.hints { stopped := t.stopped } { answers := t.answers }

end Synthesis.Rehearsal
