import CodeAgent.Json.Value

namespace CodeAgent

inductive StepState where
  | running
  | awaitingPermission
  | done
deriving DecidableEq

def StepState.name : StepState → Text
  | running => "running"
  | awaitingPermission => "awaiting_permission"
  | done => "done"

/-- A tool call in progress, or a stage of it. -/
structure Step where
  tool : Text
  state : StepState
  summary : Text
  result : Option Text := none
  iteration : Option Nat := none
  command : Option Text := none
deriving DecidableEq

def Step.toJson (s : Step) : Json :=
  let fields : List (Text × Option Json) :=
    [("tool", some (.str s.tool)), ("status", some (.str s.state.name)), ("summary", some (.str s.summary)),
     ("result", s.result.map .str), ("iteration", s.iteration.map fun n => .int n),
     ("command", s.command.map .str)]
  .obj (fields.filterMap fun (k, v) => v.map (k, ·))

structure TaskResult where
  finalResponse : Text
  steps : List Step := []
  iterations : Int := 0
  corrections : Nat := 0
  completed : Bool := true
deriving DecidableEq

def TaskResult.toJson (r : TaskResult) : Json :=
  .obj [("final_response", .str r.finalResponse), ("steps", .arr (r.steps.map Step.toJson)),
    ("iterations", .int r.iterations), ("corrections", .int r.corrections),
    ("completed", .bool r.completed)]

end CodeAgent
