import CodeAgent.Agent.Execute

namespace CodeAgent

abbrev Observation := Except BackendFault Text

/-- What can be seen of commands that are executed side by side. -/
inductive Event where
  | told (invocation : Nat) (step : Step)
  /-- The request of an invocation waits at the gate under a number. -/
  | asked (invocation request : Nat)
  /-- The request of an invocation was refused because another was waiting. -/
  | refused (invocation : Nat)
  /-- A decision was accepted while a request was the pending one and the gate showed its command. -/
  | decided (request : Nat) (shown : Text) (approved : Bool)
  /-- An invocation was cancelled before its request was decided. -/
  | withdrawn (invocation : Nat)
  /-- An invocation called the runner. -/
  | ran (invocation : Nat) (command : Text)
deriving DecidableEq

def Course.bench {α : Type} : Course α → Bench
  | .tell _ next => next.bench
  | .done b _ | .askModel b _ _ | .awaitApproval b _ _ | .run _ b _ _ | .cancelled b => b

/-- The invocations by number, each at its stop, with what they share and what was seen so far. -/
structure Crowd where
  bench : Bench
  courses : List (Course Observation) := []
  log : List Event := []

namespace Crowd

def arrival (i : Nat) : Course Observation → List Event
  | .awaitApproval _ n _ => [.asked i n]
  | .run _ _ command _ => [.ran i command]
  | _ => []

def goOn (m : Crowd) (i : Nat) (course : Course Observation) : Crowd :=
  let (steps, stop) := course.advance
  { bench := stop.bench
    courses := m.courses.set i stop
    log := m.log ++ (steps.map (.told i) ++ arrival i stop) }

variable [Host]

def start (m : Crowd) (s : Setting) (command : Text) (iteration : Option Nat) : Crowd :=
  let i := m.courses.length
  let course := m.bench.execute s (.valid (.runCommand command)) iteration
  let begun := { m with courses := m.courses ++ [course] }.goOn i course
  match begun.bench.gate.requests[m.bench.gate.requests.length]? with
  | some (Approval.busy _) => { begun with log := begun.log ++ [.refused i] }
  | _ => begun

def resolve (m : Crowd) (approved : Bool) : Crowd :=
  match m.bench.gate.slot, m.bench.gate.pending, m.bench.gate.resolve approved with
  | some n, some shown, (gate, true) =>
    { m with bench := { m.bench with gate }, log := m.log ++ [.decided n shown approved] }
  | _, _, (gate, _) => { m with bench := { m.bench with gate } }

def cancel (m : Crowd) (i : Nat) : Crowd :=
  match m.courses[i]? with
  | some (.awaitApproval _ n _) =>
    let seen := match m.bench.gate.requests[n]? with
      | some (Approval.waiting _) => [.withdrawn i]
      | _ => []
    { m with bench := { m.bench with gate := (m.bench.gate.cancel n).1 }, log := m.log ++ seen }
  | some (.run _ _ _ _) => { m with courses := m.courses.set i (.cancelled m.bench) }
  | _ => m

def wake (m : Crowd) (i : Nat) : Crowd :=
  match m.courses[i]? with
  | some (.awaitApproval _ n next) =>
    match m.bench.gate.requests[n]? with
    | some (Approval.settled _ _) => m.goOn i (next { m.bench with gate := m.bench.gate.resume n })
    | _ => m
  | _ => m

def finish (m : Crowd) (i : Nat) : Crowd :=
  match m.courses[i]? with
  | some (.run s _ command next) =>
    let (b, result) := m.bench.runCommand s command
    m.goOn i (next b result)
  | _ => m

/-- What can happen next. Others may change the workspace at any time. -/
inductive Move where
  | start (setting : Setting) (command : Text) (iteration : Option Nat)
  | resolve (approved : Bool)
  | cancel (invocation : Nat)
  | wake (invocation : Nat)
  | finish (invocation : Nat)
  | change (workspace : Workspace)

def step (m : Crowd) : Move → Crowd
  | .start s command iteration => m.start s command iteration
  | .resolve approved => m.resolve approved
  | .cancel i => m.cancel i
  | .wake i => m.wake i
  | .finish i => m.finish i
  | .change workspace => { m with bench := { m.bench with workspace } }

/-- All that happens on a workspace with a gate at which every command needs approval. -/
def run (w : Workspace) (moves : List Move) : Crowd := moves.foldl step { bench := ⟨w, {}⟩ }

end Crowd
end CodeAgent
