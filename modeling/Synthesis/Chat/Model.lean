import Synthesis.Chat.Status
import Synthesis.Leaf.Prompt

/-!
Generating leaves with a chat model. A request has the instructions of the model and the prompt
of a specification; the first choice of the answer is the code, which is trusted more when it is
fenced. Requests that a model would refuse are not sent.
-/
namespace Synthesis.Chat

structure Message where
  role : String
  content : String

structure Request where
  model : String
  /-- Not sent at zero. -/
  temperature : Float
  /-- Not sent unless positive. -/
  maxTokens : Int
  messages : List Message

/-- What a server answers. -/
inductive Answer where
  | choices (contents : List String)
  /-- A status that is no success, with a message if there was one. -/
  | refused (status : Nat) (message : Option String)
  | unreachable (message : String)

abbrev Server (σ : Type) := Request → σ → Answer × σ

structure Model where
  name : String
  temperature : Float := 0
  maxTokens : Int := 0
  instructions : String

def defaultName : String := "gpt-4o-mini"

def defaultInstructions : String :=
  "You write small, self-contained functions. "
    ++ "Answer with exactly one fenced code block and nothing else."

def noKey : String := "OPENAI_API_KEY not set"

namespace Model

/-- A model with defaults for what is not given. -/
def new (name instructions : String) (temperature : Float) (maxTokens : Int) : Model :=
  { name := if name = "" then defaultName else name
    temperature
    maxTokens
    instructions := if instructions = "" then defaultInstructions else instructions }

def request (m : Model) (s : Specification) (c : Context) (hints : Hints) : Request :=
  { model := m.name
    temperature := m.temperature
    maxTokens := max m.maxTokens 0
    messages := [⟨"system", m.instructions⟩, ⟨"user", Prompt.render s c hints⟩] }

end Model

/-- Models that complete texts and do not chat. -/
def completionModels : List String :=
  ["code-davinci-002", "code-cushman-001", "code-davinci-001", "text-davinci-003",
    "text-davinci-002", "text-curie-001", "text-babbage-001", "text-ada-001", "text-davinci-001",
    "davinci-instruct-beta", "davinci", "curie-instruct-beta", "curie", "ada", "babbage"]

/-- Models that reason before they answer have a fixed temperature. -/
def reasons (model : String) : Bool :=
  ["o1", "o3", "o4", "gpt-5"].any fun lead => Text.startsWith model lead

/-- Why a request is not sent. -/
def Request.objection? (r : Request) : Option String :=
  if completionModels.contains r.model then
    some ("this model is not supported with this method, "
      ++ "please use CreateCompletion client method instead")
  else if reasons r.model && 0 < r.temperature && r.temperature != 1 then
    some ("this model has beta-limitations, temperature, top_p and n are fixed at 1, "
      ++ "while presence_penalty and frequency_penalty are fixed at 0")
  else none

def callFailed (message : String) : Failure := .wrapped "OpenAI API call failed" (.plain message)

def refusal (status : Nat) (message : Option String) : Failure :=
  let failure := callFailed ("error, status code: " ++ Decimal.natText status ++ ", status: "
    ++ statusText status ++ (message.map (", message: " ++ ·)).getD "")
  if mayRecover status then .retryable failure else failure

def fencedConfidence : Float := 0.8

def rawConfidence : Float := 0.5

/-- The candidate in an answer. -/
def Answer.candidate : Answer → Except Failure Candidate
  | .unreachable message => .error (callFailed message)
  | .refused status message => .error (refusal status message)
  | .choices [] => .error (.retryable (.plain "OpenAI returned no choices"))
  | .choices (content :: _) =>
    let (code, fenced) := Prompt.codeIn content
    if code = "" then .ok { success := false, code := "", confidence := 0 }
    else
      let confidence := if fenced then fencedConfidence else rawConfidence
      .ok { success := true, code, confidence }

/-- Asks the model for every leaf. -/
def Model.generator {σ : Type} (m : Model) (server : Server σ) : Generator σ :=
  fun s c hints call state =>
    match call.stopped with
    | some why => ⟨.error (.wrapped "rate limiter" (.interrupted why)), some why, state⟩
    | none =>
      let r := m.request s c hints
      match r.objection? with
      | some message => ⟨.error (callFailed message), none, state⟩
      | none =>
        let (answer, state) := server r state
        ⟨answer.candidate, none, state⟩

end Synthesis.Chat
