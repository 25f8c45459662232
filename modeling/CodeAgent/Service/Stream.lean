import CodeAgent.Agent.Reporter
import CodeAgent.Service.Answer

namespace CodeAgent

inductive StreamEntry where
  | event (name : Text) (data : Json)
  /-- The task has ended. -/
  | over

namespace Service

def queueing : Subscriber (List StreamEntry) Empty where
  receive queue step := (queue ++ [.event "step" step.toJson], .taken)
  resume _ work := nomatch work

/-- What is put into the queue behind the steps. A failure that is not the provider's, or being cancelled, leaves only
the mark. -/
def closing (result : Option (Except TaskFault TaskResult)) : List StreamEntry :=
  match result with
  | some (.ok r) => [.event "result" r.toJson, .over]
  | some (.error (.backend fault)) => [.event "error" (Answer.faultJson fault), .over]
  | _ => [.over]

def taken : List StreamEntry → List (Text × Json)
  | .event name data :: rest => (name, data) :: taken rest
  | _ => []

variable [Host]

/-- The events that are yielded for a task. Deliveries that were still to come when the task ended are made behind the
mark. -/
def stream {τ : Type} (s : Setting) (world : World τ) (pace : Nat → Nat) (state : τ) (t : Task) (b : Bench) :
    List (Text × Json) :=
  let out := t.reported s world (some queueing) pace state { state := [] } b
  let l := { out.loop with state := out.loop.state ++ closing out.value }
  taken (l.flush (some queueing)).state

end Service
end CodeAgent
