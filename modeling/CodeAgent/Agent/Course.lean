import CodeAgent.Agent.Step
import CodeAgent.Command.Gate
import CodeAgent.Model.Dialogue
import CodeAgent.Tool.Fault
import CodeAgent.Workspace.Basic

namespace CodeAgent

def Workspace.runCommand (s : Setting) (w : Workspace) (command : Text) :
    Workspace × Except ToolFault CommandResult :=
  let run := CommandRun.run s.shell s.config w.disk w.root command
  ({ w with disk := run.disk }, run.result.mapError .disk)

/-- What the tools work on: the open workspace, and the gate that commands wait at. -/
structure Bench where
  workspace : Workspace
  gate : Gate

def Bench.runCommand (s : Setting) (b : Bench) (command : Text) : Bench × Except ToolFault CommandResult :=
  let (w, result) := b.workspace.runCommand s command
  ({ b with workspace := w }, result)

inductive Course (α : Type) where
  | done (bench : Bench) (value : α)
  | tell (step : Step) (next : Course α)
  | askModel (bench : Bench) (messages : List Message)
      (next : Bench → Except BackendFault Text → Course α)
  /-- Waits until a request at the gate is settled. -/
  | awaitApproval (bench : Bench) (request : Nat) (next : Bench → Course α)
  /-- Calls the runner with a command, and goes on when that has ended. -/
  | run (setting : Setting) (bench : Bench) (command : Text)
      (next : Bench → Except ToolFault CommandResult → Course α)
  /-- The task was cancelled while it waited. -/
  | cancelled (bench : Bench)

namespace Course

def bind {α β : Type} : Course α → (Bench → α → Course β) → Course β
  | done b a, f => f b a
  | tell s next, f => tell s (next.bind f)
  | askModel b messages next, f => askModel b messages fun b reply => (next b reply).bind f
  | awaitApproval b n next, f => awaitApproval b n fun b => (next b).bind f
  | run s b command next, f => run s b command fun b result => (next b result).bind f
  | cancelled b, _ => cancelled b

def advance {α : Type} : Course α → List Step × Course α
  | tell step next =>
    let (steps, stop) := next.advance
    (step :: steps, stop)
  | stop => ([], stop)

/-- Whoever answers the calls of a model: from what was asked before and the messages to a reply. -/
abbrev Script := List (List Message) → List Message → Except BackendFault Text

/-- What a driven course leaves. -/
structure Outcome (α : Type) where
  bench : Bench
  steps : List Step := []
  /-- The messages of every call of the model. -/
  calls : List (List Message) := []
  /-- The decisions that were not needed. -/
  decisions : List Bool := []
  /-- Nothing when the task was cancelled. -/
  value : Option α

/-- Drives a course to its end: the script answers the model's calls, and the decisions are given to the
requests for approval in turn. A request for which none is left is denied. -/
def drive {α : Type} (script : Script) (calls : List (List Message)) (decisions : List Bool) :
    Course α → Outcome α
  | done bench value => { bench, calls, decisions, value := some value }
  | tell step next =>
    let rest := next.drive script calls decisions
    { rest with steps := step :: rest.steps }
  | askModel bench messages next =>
    (next bench (script calls messages)).drive script (calls ++ [messages]) decisions
  | awaitApproval bench _ next =>
    let gate := ((bench.gate.resolve (decisions.headD false)).1).resumeAll
    (next { bench with gate }).drive script calls decisions.tail
  | run s bench command next =>
    let (bench, result) := bench.runCommand s command
    (next bench result).drive script calls decisions
  | cancelled bench => { bench, calls, decisions, value := none }

/-- Whoever drives a course with a state of its own: it answers the model's calls, and settles the requests
for approval. -/
structure Guide (σ : Type) where
  answer : σ → List Message → σ × Except BackendFault Text
  settle : σ → Bench → σ × Bench

/-- What a guided course leaves. -/
structure Guided (σ α : Type) where
  guide : σ
  bench : Bench
  steps : List Step := []
  value : Option α

def guided {σ α : Type} (g : Guide σ) (state : σ) : Course α → Guided σ α
  | done bench value => { guide := state, bench, value := some value }
  | tell step next =>
    let rest := next.guided g state
    { rest with steps := step :: rest.steps }
  | askModel bench messages next =>
    let (state, reply) := g.answer state messages
    (next bench reply).guided g state
  | awaitApproval bench _ next =>
    let (state, bench) := g.settle state bench
    (next bench).guided g state
  | run s bench command next =>
    let (bench, result) := bench.runCommand s command
    (next bench result).guided g state
  | cancelled bench => { guide := state, bench, value := none }

end Course
end CodeAgent
