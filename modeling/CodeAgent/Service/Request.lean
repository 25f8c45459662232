import CodeAgent.Agent.Parameters

namespace CodeAgent

structure TaskRequest where
  task : Text
  provider : Option Text := none
  apiKey : Text := []
  model : Text := []
  activeFile : Option Text := none
  stream : Bool := true
deriving DecidableEq

inductive ServiceRequest where
  | status
  | models
  | openWorkspace (path : Text)
  | runTask (task : TaskRequest)
  | approve (approved : Bool)
  | reset
  | history
  | graph
  | blastRadius (path : Text) (depth : Option Int)
  | search (query : Text) (limit : Option Int)
deriving DecidableEq

namespace ServiceRequest

inductive ProblemKind where
  | missing
  | notText
  | notUnicode
  | noNumeral
  | longNumeral
  | notSwitch
  | noSwitchWord
  | notRecord
deriving DecidableEq

namespace ProblemKind

def name : ProblemKind → Text
  | missing => "missing"
  | notText => "string_type"
  | notUnicode => "string_unicode"
  | noNumeral => "int_parsing"
  | longNumeral => "int_parsing_size"
  | notSwitch => "bool_type"
  | noSwitchWord => "bool_parsing"
  | notRecord => "model_attributes_type"

def message : ProblemKind → Text
  | missing => ParameterFault.missing.message
  | notText => ParameterFault.notString.message
  | notUnicode => ParameterFault.notUnicode.message
  | noNumeral => ParameterFault.noNumeral.message
  | longNumeral => ParameterFault.longNumeral.message
  | notSwitch => "Input should be a valid boolean"
  | noSwitchWord => "Input should be a valid boolean, unable to interpret input"
  | notRecord => "Input should be a valid dictionary or object to extract fields from"

end ProblemKind

/-- A part of a request that was refused, and where it stands. -/
structure Problem where
  kind : ProblemKind
  place : List Text
deriving DecidableEq

/-- Why a request is none of the service's. -/
inductive Refusal where
  | notFound
  | methodNotAllowed
  | invalid (problems : List Problem)
deriving DecidableEq

abbrev Part (α : Type) := Except Problem α

def faults {α : Type} : Part α → List Problem
  | .ok _ => []
  | .error p => [p]

def inBody (name : Text) : List Text := ["body", name]

def fieldsOf : Option Json → Part (List (Text × Json))
  | none | some .null => .error ⟨.missing, ["body"]⟩
  | some (.obj fields) => .ok fields
  | some _ => .error ⟨.notRecord, ["body"]⟩

def asText (name : Text) : Json → Part Text
  | .str t => if t.any (·.isSurrogate) then .error ⟨.notUnicode, inBody name⟩ else .ok t
  | _ => .error ⟨.notText, inBody name⟩

def switchWord? (t : Text) : Option Bool :=
  let word := t.map fun c => if c.isUpperAscii then c.lower else c
  if (["1", "on", "t", "true", "y", "yes"] : List Text).contains word then some true
  else if (["0", "off", "f", "false", "n", "no"] : List Text).contains word then some false
  else none

def asSwitch (name : Text) (v : Json) : Part Bool :=
  let ofInt (i : Int) : Part Bool :=
    if i = 1 then .ok true else if i = 0 then .ok false else .error ⟨.noSwitchWord, inBody name⟩
  match v with
  | .bool b => .ok b
  | .int i => ofInt i
  | .float x =>
    match x.toInt? with
    | some i => ofInt i
    | none => .error ⟨.notSwitch, inBody name⟩
  | .str t =>
    match switchWord? t with
    | some b => .ok b
    | none => .error ⟨.noSwitchWord, inBody name⟩
  | _ => .error ⟨.notSwitch, inBody name⟩

def required {α : Type} (read : Text → Json → Part α) (name : Text) (fields : List (Text × Json)) :
    Part α :=
  match Json.lookup name fields with
  | some v => read name v
  | none => .error ⟨.missing, inBody name⟩

def withDefault {α : Type} (read : Text → Json → Part α) (default : α) (name : Text)
    (fields : List (Text × Json)) : Part α :=
  match Json.lookup name fields with
  | some v => read name v
  | none => .ok default

def asOptionalText (name : Text) : Json → Part (Option Text)
  | .null => .ok none
  | v => (asText name v).map some

def readTask (fields : List (Text × Json)) : Except (List Problem) TaskRequest :=
  let task := required asText "task" fields
  let provider := withDefault asOptionalText none "provider" fields
  let apiKey := withDefault asText [] "api_key" fields
  let model := withDefault asText [] "model" fields
  let activeFile := withDefault asOptionalText none "active_file" fields
  let stream := withDefault asSwitch true "stream" fields
  match task, provider, apiKey, model, activeFile, stream with
  | .ok task, .ok provider, .ok apiKey, .ok model, .ok activeFile, .ok stream =>
    .ok { task, provider, apiKey, model, activeFile, stream }
  | _, _, _, _, _, _ =>
    .error (faults task ++ faults provider ++ faults apiKey ++ faults model ++ faults activeFile ++
      faults stream)

def requiredParameter (name : Text) (parameters : List (Text × Text)) : Part Text :=
  match Table.get? name parameters with
  | some t => .ok t
  | none => .error ⟨.missing, ["query", name]⟩

def optionalNumber (name : Text) (parameters : List (Text × Text)) : Part (Option Int) :=
  match Table.get? name parameters with
  | none => .ok none
  | some t =>
    match Parameter.numeral t with
    | .ok i => .ok (some i)
    | .error .longNumeral => .error ⟨.longNumeral, ["query", name]⟩
    | .error _ => .error ⟨.noNumeral, ["query", name]⟩

def both {α β γ : Type} (f : α → β → γ) (a : Part α) (b : Part β) : Except Refusal γ :=
  match a, b with
  | .ok a, .ok b => .ok (f a b)
  | _, _ => .error (.invalid (faults a ++ faults b))

def one {α β : Type} (f : α → β) (a : Part α) : Except Refusal β :=
  (a.map f).mapError fun p => .invalid [p]

/-- How the requests on a path are read. -/
structure Route where
  method : Text
  path : Text
  read : List (Text × Text) → Option Json → Except Refusal ServiceRequest

def routes : List Route :=
  [⟨"GET", "/api/status", fun _ _ => .ok .status⟩,
   ⟨"GET", "/api/models", fun _ _ => .ok .models⟩,
   ⟨"POST", "/api/workspace", fun _ body =>
     one .openWorkspace ((fieldsOf body).bind (required asText "path"))⟩,
   ⟨"POST", "/api/task", fun _ body =>
     match fieldsOf body with
     | .error p => .error (.invalid [p])
     | .ok fields => ((readTask fields).map .runTask).mapError .invalid⟩,
   ⟨"POST", "/api/approval", fun _ body =>
     one .approve ((fieldsOf body).bind (required asSwitch "approved"))⟩,
   ⟨"POST", "/api/reset", fun _ _ => .ok .reset⟩,
   ⟨"GET", "/api/history", fun _ _ => .ok .history⟩,
   ⟨"GET", "/api/graph", fun _ _ => .ok .graph⟩,
   ⟨"GET", "/api/blast-radius", fun parameters _ =>
     both .blastRadius (requiredParameter "path" parameters) (optionalNumber "depth" parameters)⟩,
   ⟨"GET", "/api/search", fun parameters _ =>
     both .search (requiredParameter "query" parameters) (optionalNumber "limit" parameters)⟩]

def read (method path : Text) (parameters : List (Text × Text)) (body : Option Json) :
    Except Refusal ServiceRequest :=
  match routes.filter (·.path = path) with
  | [] => .error .notFound
  | here =>
    match here.find? (·.method = method) with
    | some route => route.read parameters body
    | none => .error .methodNotAllowed

end ServiceRequest
end CodeAgent
