import CodeAgent.Config
import CodeAgent.Json.Subscript
import CodeAgent.Model.Dialogue
import CodeAgent.Model.Fault
import CodeAgent.Text.Percent

namespace CodeAgent

inductive Provider where
  | ollama | openai | gemini
deriving DecidableEq

namespace Provider

def all : List Provider := [.ollama, .openai, .gemini]

def name : Provider → Text
  | .ollama => "ollama"
  | .openai => "openai"
  | .gemini => "gemini"

def ofName? (name : Text) : Option Provider := all.find? (·.name = name)

end Provider

/-- Settings for one call; empty ones fall back to the configuration. -/
structure CallSettings where
  apiKey : Text := []
  model : Text := []
deriving DecidableEq

namespace Model

/-- A completion is a text; providers may put other data into its place. -/
abbrev Completion := Except ProviderFault Json

def fail {α : Type} (provider : Text) (reason : Text) (status : Option Int := none) :
    Except ProviderFault α :=
  .error (.backend ⟨reason, status, some provider⟩)

def orElse (t default : Text) : Text := if t.isEmpty then default else t

def passingReasons : List Text :=
  ["connection reset", "connection refused", "eof", "broken pipe",
   "timeout", "timed out", "network", "connection error"]

def isPassing (reason : Text) : Bool := passingReasons.any (Text.hasInfix · (Text.lower reason))

def refusal {α : Type} (provider reason : Text) (status : Int) : Except ProviderFault α :=
  fail provider reason (some status)

def messageContent? (v : Json) : Option Text :=
  match (v.get? "message").bind (·.get? "content") with
  | some (.str t) => some t
  | _ => none

def clientContent? : ClientValue → Option Text
  | .plain v | .dumped v => messageContent? v
  | .attributes _ => none

def maxRetries : Nat := 2

def ollamaCompletion : Reply → Completion
  | .client value =>
    match clientContent? value with
    | some t => .ok (.str t)
    | none => malformed
  | .refused reason status => refusal "ollama" reason status
  | .unreachable reason | .transportError reason => fail "ollama" ("Cannot reach Ollama: " ++ reason)
  | .http _ _ => malformed
where
  malformed : Completion := fail "ollama" "Malformed Ollama response: missing message content"

/-- Whether a reply says that the server could not be reached for a reason that passes. -/
def isPassingFailure : Reply → Bool
  | .unreachable reason | .transportError reason => isPassing reason
  | _ => false

/-- Asks the local server; the waits grow by one and a half seconds. -/
def askOllama (request : Request) (attempt : Nat) : (retries : Nat) → Dialogue Completion
  | 0 => .ask request fun reply => .done (ollamaCompletion reply)
  | n + 1 => .ask request fun reply =>
    if isPassingFailure reply then .wait (15 * (attempt + 1)) (askOllama request (attempt + 1) n)
    else .done (ollamaCompletion reply)

def callOllama (c : Config) (settings : CallSettings) (messages : List Message) : Dialogue Completion :=
  askOllama (.chat (orElse settings.model (c.text .ollamaModel)) messages (c.get .modelTemperature)) 0
    maxRetries

variable [Host]

/-- Reads the document of a reply and takes the steps that lead to the answer. -/
def answerAt (provider label : Text) (status : Int) (body : Text)
    (steps : Json → Except Json.StepFault Json) : Completion :=
  let body := match body with
    | c :: r => if c.val = 0xfeff then r else c :: r
    | [] => []
  let malformed (reason : Text) : Completion :=
    fail provider ("Malformed " ++ label ++ " response: " ++ reason) (some status)
  match Json.read body with
  | .error .tooDeep => .error .tooDeep
  | .error fault => malformed (fault.message body)
  | .ok v =>
    match steps v with
    | .ok answer => .ok answer
    | .error fault => malformed fault.message

def maxErrorBody : Nat := 2000

def post (provider label : Text) (request : Request) (steps : Json → Except Json.StepFault Json) :
    Dialogue Completion :=
  .ask request fun
    | .http status body =>
      .done (if 400 ≤ status then fail provider (body.take maxErrorBody) (some status)
        else answerAt provider label status body steps)
    | .transportError reason | .unreachable reason =>
      .done (fail provider ("Request failed: " ++ reason))
    | .refused reason _ => .done (fail provider ("Request failed: " ++ reason))
    | .client _ => .done (fail provider "Request failed: ")

def messageJson (m : Message) : Json := .obj [("role", .str m.role), ("content", .str m.content)]

/-- What is sent with a request; a request for the list of models has no content. -/
def contentOf : Request → Option Json
  | .post url bearer body => some (.obj [("method", .str "POST"), ("url", .str url),
      ("authorization", (bearer.map .str).getD .null), ("content_type", .str "application/json"),
      ("body", body)])
  | .chat model messages temperature => some (.obj [("model", .str model),
      ("messages", .arr (messages.map messageJson)), ("stream", .bool false),
      ("options", .obj [("temperature", temperature)])])
  | .embed model texts => some (.obj [("model", .str model), ("input", .arr (texts.map .str))])
  | .listModels => none

def callOpenai (c : Config) (settings : CallSettings) (messages : List Message) : Dialogue Completion :=
  let body : Json := .obj [
    ("model", .str (orElse settings.model (c.text .openaiModel))),
    ("messages", .arr (messages.map messageJson)),
    ("temperature", c.get .modelTemperature)]
  let bearer := "Bearer " ++ orElse settings.apiKey (c.text .openaiKey)
  post "openai" "OpenAI" (.post (c.text .openaiUrl) (some bearer) body) fun v => do
    ((← (← (← v.atField "choices").atPosition 0).atField "message")).atField "content"

private def partsOf (t : Text) : Text × Json := ("parts", .arr [.obj [("text", .str t)]])

/-- A conversation without its system messages; what the model said is marked as its own. -/
def geminiBody (messages : List Message) : Json :=
  let contents := (messages.filter (·.role ≠ ("system" : Text))).map fun m =>
    Json.obj [("role", .str (if m.role = ("assistant" : Text) then "model" else m.role)), partsOf m.content]
  let system := messages.find? (·.role = ("system" : Text))
  .obj (("contents", .arr contents) ::
    (match system with
     | some m => [("system_instruction", .obj [partsOf m.content])]
     | none => []))

def callGemini (c : Config) (settings : CallSettings) (messages : List Message) : Dialogue Completion :=
  let model := orElse settings.model (c.text .geminiModel)
  let base := Text.dropEndWhile (·.is '/') (c.text .geminiUrl)
  let url := base ++ Text.percentEncode Text.isPathPoint ("/" ++ model ++ ":generateContent") ++ "?key=" ++
    Text.queryValue (orElse settings.apiKey (c.text .geminiKey))
  post "gemini" "Gemini" (.post url none (geminiBody messages)) fun v => do
    let content ← (← (← v.atField "candidates").atPosition 0).atField "content"
    (← (← content.atField "parts").atPosition 0).atField "text"

/-- Sends a conversation to a provider, the configured one if none is named. -/
def call (c : Config) (messages : List Message) (provider : Text) (settings : CallSettings) :
    Dialogue Completion :=
  let named := Text.lower (orElse provider (c.text .defaultProvider))
  match Provider.ofName? named with
  | some .ollama => callOllama c settings messages
  | some .openai => callOpenai c settings messages
  | some .gemini => callGemini c settings messages
  | none =>
    .done (fail named ("Unknown provider '" ++ named ++ "'. Valid providers: " ++
      Text.joinWith ", " (Provider.all.map Provider.name)))

def isReachable : Dialogue Bool :=
  .ask .listModels fun
    | .client _ | .http _ _ => .done true
    | _ => .done false

def list : Dialogue (Except ProviderFault (List Json)) :=
  .ask .listModels fun
    | .refused reason status => .done (refusal "ollama" reason status)
    | .unreachable reason | .transportError reason =>
      .done (fail "ollama" ("Cannot reach Ollama: " ++ reason))
    | .http _ _ => .done (.error .noAttribute)
    | .client value =>
      let models : Except ProviderFault Json :=
        match value with
        | .plain v | .dumped v =>
          match v with
          | .obj fields => .ok ((Json.lookup "models" fields).getD (.arr []))
          | _ => .error .noAttribute
        | .attributes fields =>
          match Json.lookup "models" fields with
          | some v => .ok v
          | none => .error .noAttribute
      .done (match models with
        | .error fault => .error fault
        | .ok v => (v.items?).elim (.error .illTyped) .ok)

end Model
end CodeAgent
