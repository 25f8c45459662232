import CodeAgent.Agent.Task

namespace CodeAgent

/-- What comes of calling a subscriber. -/
inductive Receipt (κ : Type) where
  | taken
  | raised
  /-- The rest is a coroutine, which runs as a task of its own. -/
  | owed (work : κ)

/-- How far a task of the subscriber has come when it stops. -/
inductive Errand (κ : Type) where
  | again (work : κ)
  | over
  | failed

/-- A subscriber with a state of its own. It is given copies of steps and nothing that the task works on. -/
structure Subscriber (σ κ : Type) where
  receive : σ → Step → σ × Receipt κ
  resume : σ → κ → σ × Errand κ

inductive Callback (κ : Type) where
  | deliver (step : Step)
  | resume (work : κ)

/-- The event loop beside a task. -/
structure EventLoop (σ κ : Type) where
  state : σ
  ready : List (Callback κ) := []
  /-- What the subscriber was called with so far. -/
  received : List Step := []
  /-- How often it was logged that the subscriber raised. -/
  warnings : Nat := 0

namespace EventLoop

variable {σ κ : Type}

def runOne (sub : Subscriber σ κ) (l : EventLoop σ κ) : EventLoop σ κ :=
  match l.ready with
  | [] => l
  | .deliver step :: rest =>
    let l := { l with ready := rest, received := l.received ++ [step] }
    match sub.receive l.state step with
    | (state, .taken) => { l with state }
    | (state, .raised) => { l with state, warnings := l.warnings + 1 }
    | (state, .owed work) => { l with state, ready := rest ++ [.resume work] }
  | .resume work :: rest =>
    match sub.resume l.state work with
    | (state, .again work) => { l with state, ready := rest ++ [.resume work] }
    | (state, .over) => { l with state, ready := rest }
    | (state, .failed) => { l with state, ready := rest, warnings := l.warnings + 1 }

def run (sub : Subscriber σ κ) : Nat → EventLoop σ κ → EventLoop σ κ
  | 0, l => l
  | n + 1, l => run sub n (l.runOne sub)

/-- Lets so many callbacks run. Without a subscriber there are none. -/
def turn (sub? : Option (Subscriber σ κ)) (n : Nat) (l : EventLoop σ κ) : EventLoop σ κ :=
  match sub? with
  | none => l
  | some sub => l.run sub n

/-- Gives way once: whoever does so gets in line behind everything that is ready. -/
def flush (sub? : Option (Subscriber σ κ)) (l : EventLoop σ κ) : EventLoop σ κ := l.turn sub? l.ready.length

def emit (sub? : Option (Subscriber σ κ)) (step : Step) (l : EventLoop σ κ) : EventLoop σ κ :=
  match sub? with
  | none => l
  | some _ => { l with ready := l.ready ++ [.deliver step] }

end EventLoop

/-- What a task meets at its stops: replies, decisions and the ends of commands, and whatever has become of what it
works on by then. -/
structure World (τ : Type) where
  reply : τ → Bench → List Message → τ × Bench × Except BackendFault Text
  settle : τ → Bench → Nat → τ × Bench
  run : τ → Setting → Bench → Text → τ × Bench × Except ToolFault CommandResult

/-- What a watched course leaves. -/
structure Watched (τ σ κ α : Type) where
  world : τ
  bench : Bench
  loop : EventLoop σ κ
  value : Option α

variable {τ σ κ α : Type}

/-- A course with a subscriber. `pace` tells how many callbacks get to run before each stage of the course. -/
def Course.watched (world : World τ) (sub? : Option (Subscriber σ κ)) :
    (pace : Nat → Nat) → τ → EventLoop σ κ → Course α → Watched τ σ κ α
  | pace, state, l, .done bench value => ⟨state, bench, l.turn sub? (pace 0), some value⟩
  | pace, state, l, .tell step next =>
    next.watched world sub? (pace <| · + 1) state ((l.turn sub? (pace 0)).emit sub? step)
  | pace, state, l, .askModel bench messages next =>
    let (state, bench, reply) := world.reply state bench messages
    (next bench reply).watched world sub? (pace <| · + 1) state (l.turn sub? (pace 0))
  | pace, state, l, .awaitApproval bench request next =>
    let (state, bench) := world.settle state bench request
    (next bench).watched world sub? (pace <| · + 1) state (l.turn sub? (pace 0))
  | pace, state, l, .run s bench command next =>
    let (state, bench, result) := world.run state s bench command
    (next bench result).watched world sub? (pace <| · + 1) state (l.turn sub? (pace 0))
  | pace, state, l, .cancelled bench => ⟨state, bench, l.turn sub? (pace 0), none⟩

variable [Host]

/-- A task with a subscriber. Before a result is returned, what is ready gets to run. -/
def Task.reported (s : Setting) (world : World τ) (sub? : Option (Subscriber σ κ)) (pace : Nat → Nat) (state : τ)
    (l : EventLoop σ κ) (t : Task) (b : Bench) : Watched τ σ κ (Except TaskFault TaskResult) :=
  let out := (t.run s b).watched world sub? pace state l
  match out.value with
  | some (.ok _) => { out with loop := out.loop.flush sub? }
  | _ => out

end CodeAgent
