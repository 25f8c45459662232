import CodeAgent.Model.Provider
import CodeAgent.Service.Basic
import CodeAgent.Service.Request

namespace CodeAgent

structure Answer where
  status : Nat
  body : Json

/-- What the service learns of the provider while it answers. -/
structure ProviderState where
  reachable : Bool
  models : Except BackendFault (List Json)

def ScoredChunk.toJson (c : ScoredChunk) : Json :=
  .obj [("path", .str c.path), ("kind", .str c.kind), ("name", .str c.name), ("text", .str c.text),
    ("start_line", .int c.startLine), ("end_line", .int c.endLine), ("score", .float c.score)]

namespace Answer

def ok (fields : List (Text × Json)) : Answer := ⟨200, .obj fields⟩

def refused (status : Nat) (reason : Text) : Answer := ⟨status, .obj [("error", .str reason)]⟩

def noWorkspace : Answer := refused 409 "No workspace open. POST /api/workspace first."

def faultJson (fault : BackendFault) : Json :=
  .obj [("error", .str fault.message), ("status", (fault.status.map .int).getD .null)]

def ofBackend (fault : BackendFault) : Answer := ⟨502, faultJson fault⟩

def problemJson (p : ServiceRequest.Problem) : Json :=
  .obj [("type", .str p.kind.name), ("loc", .arr (p.place.map .str)), ("msg", .str p.kind.message)]

def ofRefusal : ServiceRequest.Refusal → Answer
  | .notFound => ⟨404, .obj [("detail", .str "Not Found")]⟩
  | .methodNotAllowed => ⟨405, .obj [("detail", .str "Method Not Allowed")]⟩
  | .invalid problems => ⟨422, .obj [("detail", .arr (problems.map problemJson))]⟩

end Answer

namespace Service

def statusAnswer (s : Setting) (provider : ProviderState) (v : Service) : Answer :=
  .ok [("status", .str (if v.opened.isSome then "ok" else "idle")),
    ("provider", s.config.get .defaultProvider),
    ("ollama", .obj [("connected", .bool provider.reachable), ("url", s.config.get .ollamaUrl),
      ("model", s.config.get .ollamaModel)]),
    ("workspace", (v.opened.map Workspace.statusJson).getD .null),
    ("busy", .bool v.busy),
    ("pending_approval", (v.gate.pending.map .str).getD .null)]

def modelsAnswer (s : Setting) (provider : ProviderState) : Answer :=
  match provider.models with
  | .ok models => .ok [("models", .arr models), ("default", s.config.get .ollamaModel)]
  | .error fault => .ofBackend fault

variable [Host]

def openAnswer (s : Setting) (v : Service) (path : Text) : Service × Except WorkspaceFault Answer :=
  if v.busy then (v, .ok (.refused 409 "A task is running"))
  else
    match v.openWorkspace s path with
    | (v, .ok w) => (v, .ok (.ok [("status", .str "ok"), ("workspace", w.statusJson)]))
    | (v, .error (.rootNotFound given)) =>
      (v, .ok (.refused 404 (WorkspaceFault.rootText given)))
    | (v, .error fault) => (v, .error fault)

def approvalAnswer (v : Service) (approved : Bool) : Service × Answer :=
  match v.gate.pending, v.gate.resolve approved with
  | some command, (gate, true) =>
    ({ v with gate }, .ok [("status", .str "ok"), ("command", .str command), ("approved", .bool approved)])
  | _, _ => (v, .refused 409 "No command is awaiting approval")

def blastAnswer (s : Setting) (w : Workspace) (path : Text) (depth? : Option Int) :
    Except DiskFault Answer := do
  let depth := depth?.getD (s.config.int .blastRadiusDepth)
  let affected ← w.affectedBy s (← w.resolve s path) depth
  return .ok [("path", .str path), ("depth", .int depth), ("affected", .arr (affected.map .str))]

def searchAnswer (s : Setting) (w : Workspace) (query : Text) (limit? : Option Int) :
    Workspace × Except IndexFault Answer :=
  match w.index, Workspace.embedder? s with
  | some ix, some e =>
    let limit := if limit?.getD 0 = 0 then s.config.int .semanticSearchLimit else limit?.getD 0
    let (ix, found) := ix.search e query limit
    let w := { w with index := some ix }
    match found with
    | .ok chunks =>
      (w, .ok (.ok [("query", .str query), ("results", .arr (chunks.map ScoredChunk.toJson))]))
    | .error (.backend fault) => (w, .ok (.ofBackend fault))
    | .error fault => (w, .error fault)
  | _, _ => (w, .ok (.refused 409 "Semantic index is disabled"))

/-- The task that a request asks for, with what its tools work on. -/
def taskOf (v : Service) (r : TaskRequest) : Option (Task × Bench) :=
  v.opened.map fun w => (⟨r.task, v.conversation, r.activeFile⟩, ⟨w, v.gate⟩)

def during (v : Service) (b : Bench) : Service :=
  { v with opened := some b.workspace, gate := b.gate, busy := true }

def after (v : Service) (t : Task) (b : Bench) (result : Except TaskFault TaskResult) : Service :=
  { v with
    opened := some b.workspace
    gate := b.gate
    busy := false
    conversation := v.conversation ++ t.exchange result }

/-- The events of a streamed task. A failure that is not the provider's has no verdict. -/
def events (steps : List Step) (result : Except TaskFault TaskResult) : List (Text × Json) :=
  let verdict : List (Text × Json) :=
    match result with
    | .ok r => [("result", r.toJson)]
    | .error (.backend fault) => [("error", Answer.faultJson fault)]
    | .error _ => []
  steps.map (fun step => (("step" : Text), step.toJson)) ++ verdict

def taskAnswer (result : Except TaskFault TaskResult) : Except TaskFault Answer :=
  match result with
  | .ok r => .ok ⟨200, r.toJson⟩
  | .error (.backend fault) => .ok (.ofBackend fault)
  | .error fault => .error fault

def answer (s : Setting) (provider : ProviderState) (v : Service) :
    ServiceRequest → Service × Except WorkspaceFault Answer
  | .status => (v, .ok (v.statusAnswer s provider))
  | .models => (v, .ok (modelsAnswer s provider))
  | .openWorkspace path => v.openAnswer s path
  | .approve approved =>
    let (v, a) := v.approvalAnswer approved
    (v, .ok a)
  | .reset =>
    ({ v with conversation := [] },
      .ok (.ok [("status", .str "ok"), ("message", .str "Conversation reset")]))
  | .history => (v, .ok (.ok [("messages", .arr (v.conversation.map Model.messageJson))]))
  | .graph =>
    (v, .ok (match v.opened with
      | none => .noWorkspace
      | some w =>
        match w.graph.toJson with
        | .obj fields => .ok (fields ++ [(("summary" : Text), w.graph.summaryJson)])
        | body => ⟨200, body⟩))
  | .blastRadius path depth? =>
    (v, match v.opened with
      | none => .ok .noWorkspace
      | some w => (blastAnswer s w path depth?).mapError .disk)
  | .search query limit? =>
    match v.opened with
    | none => (v, .ok .noWorkspace)
    | some w =>
      let (w, a) := searchAnswer s w query limit?
      ({ v with opened := some w }, a.mapError .index)
  | .runTask _ => (v, .ok .noWorkspace)

end Service
end CodeAgent
