import CodeAgent.Command.Gate

namespace CodeAgent

/-- A task that asks at the gate: not started, asking under a number, or given up before it started. -/
inductive GateTask where
  | fresh (command : Text)
  | asking (number : Nat)
  | dropped
deriving DecidableEq

/-- What is ready: a task to be started, or a request to be resumed. -/
inductive GateWork where
  | start (task : Nat)
  | wake (number : Nat)
deriving DecidableEq

structure Schedule where
  gate : Gate := {}
  tasks : List GateTask := []
  ready : List GateWork := []

namespace Schedule

/-- Makes a task that will ask for approval once it is started. -/
def spawn (s : Schedule) (command : Text) : Schedule :=
  { s with tasks := s.tasks ++ [.fresh command], ready := s.ready ++ [.start s.tasks.length] }

/-- Delivers a decision; the request that it reaches becomes ready. -/
def resolve (s : Schedule) (approved : Bool) : Schedule × Bool :=
  let (gate, delivered) := s.gate.resolve approved
  let woken := if delivered then s.gate.slot.toList.map .wake else []
  ({ s with gate, ready := s.ready ++ woken }, delivered)

def cancel (s : Schedule) (task : Nat) : Schedule × Bool :=
  match s.tasks[task]? with
  | some (.fresh _) => ({ s with tasks := s.tasks.set task .dropped }, true)
  | some (.asking n) =>
    let (gate, done) := s.gate.cancel n
    let woken := match s.gate.requests[n]? with
      | some (.waiting _) => [.wake n]
      | _ => []
    ({ s with gate, ready := s.ready ++ woken }, done)
  | _ => (s, false)

def work (s : Schedule) : GateWork → Schedule
  | .start task =>
    match s.tasks[task]? with
    | some (.fresh command) =>
      { s with gate := s.gate.request command,
               tasks := s.tasks.set task (.asking s.gate.requests.length) }
    | _ => s
  | .wake n => { s with gate := s.gate.resume n }

def settle (s : Schedule) : Schedule := { s.ready.foldl work s with ready := [] }

/-- How far the request of a task has come; nothing when it was given up before it asked. -/
def approval? (s : Schedule) (task : Nat) : Option Approval :=
  match s.tasks[task]? with
  | some (.asking n) => s.gate.requests[n]?
  | _ => none

end Schedule
end CodeAgent
