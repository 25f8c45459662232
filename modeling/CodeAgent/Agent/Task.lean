import CodeAgent.Agent.Execute
import CodeAgent.Agent.Prompt
import CodeAgent.Agent.Reply

namespace CodeAgent

/-- Why a task ends without a result. -/
inductive TaskFault where
  | backend (fault : BackendFault)
  | reply (fault : Reply.Fault)
  | disk (fault : DiskFault)

/-- One task of a conversation. -/
structure Task where
  text : Text
  /-- The conversation before the task. -/
  history : List Message
  activeFile : Option Text := none

/-- How far a task has come. -/
structure TaskProgress where
  /-- What was said in this task, from the task itself on. -/
  turns : List Message
  steps : List Step := []
  corrections : Nat := 0
  lastAnswer : Text := []
  iteration : Nat := 0

namespace Task

def user (content : Text) : Message := ⟨"user", content⟩
def assistant (content : Text) : Message := ⟨"assistant", content⟩

/-- The system message with the state of the project as it is now. -/
def systemMessage (s : Setting) (t : Task) (b : Bench) : Bench × Except DiskFault Message :=
  match b.workspace.projectStatus s t.activeFile with
  | (w, .ok status) => ({ b with workspace := w }, .ok ⟨"system", Prompt.systemMessage (some status)⟩)
  | (w, .error fault) => ({ b with workspace := w }, .error fault)

def toolResult (tool observation : Text) : Message :=
  user ("[Tool Result: " ++ tool ++ "]\n" ++ observation ++ "\n\n" ++ Prompt.nextStep)

def finish (p : TaskProgress) (reply : Text) : TaskResult :=
  ⟨reply, p.steps, p.iteration, p.corrections, true⟩

def exhausted (s : Setting) (p : TaskProgress) : TaskResult :=
  ⟨p.lastAnswer, p.steps, s.config.int .agentMaxIterations, p.corrections, false⟩

def corrected (p : TaskProgress) (reply : Text) : TaskProgress :=
  { p with
    corrections := p.corrections + 1
    turns := p.turns ++ [assistant reply, user Prompt.stallCorrection] }

def runningStep (p : TaskProgress) (call : ToolCall) : Step :=
  { tool := call.tool, state := .running, summary := call.summary, iteration := some p.iteration }

def doneStep (s : Setting) (step : Step) (observation : Text) : Step :=
  { step with
    state := .done
    result := some (Report.preview (s.config.int .stepPreviewChars) observation) }

def observed (p : TaskProgress) (reply : Text) (call : ToolCall) (step : Step) (observation : Text) :
    TaskProgress :=
  { p with
    steps := p.steps ++ [step]
    turns := p.turns ++ [assistant reply, toolResult call.tool observation] }

variable [Host]

/-- Executes the call of a reply and goes on with the progress made. -/
def act (s : Setting) (p : TaskProgress) (b : Bench) (reply : Text) (call : ToolCall)
    (next : Bench → TaskProgress → Course (Except TaskFault TaskResult)) :
    Course (Except TaskFault TaskResult) :=
  let step := runningStep p call
  .tell step <| (b.execute s call (some p.iteration)).bind fun b observation =>
    match observation with
    | .error fault => .done b (.error (.backend fault))
    | .ok observation =>
      let observation := Report.truncate (s.config.int .toolResultMaxChars) observation
      let step := doneStep s step observation
      .tell step (next b (observed p reply call step observation))

def consider (s : Setting) (p : TaskProgress) (b : Bench) (reply : Text)
    (next : Bench → TaskProgress → Course (Except TaskFault TaskResult)) :
    Course (Except TaskFault TaskResult) :=
  let p := { p with lastAnswer := reply }
  match Reply.toolCall? reply with
  | .error fault => .done b (.error (.reply fault))
  | .ok (some call) => act s p b reply call next
  | .ok none => if Prompt.isStalling reply then next b (corrected p reply) else .done b (.ok (finish p reply))

def iterations (s : Setting) (t : Task) :
    (left : Nat) → Bench → TaskProgress → Course (Except TaskFault TaskResult)
  | 0, b, p => .done b (.ok (exhausted s p))
  | n + 1, b, p =>
    match t.systemMessage s b with
    | (b, .error fault) => .done b (.error (.disk fault))
    | (b, .ok system) =>
      let p := { p with iteration := p.iteration + 1 }
      .askModel b (system :: t.history ++ p.turns) fun b reply =>
        match reply with
        | .error fault => .done b (.error (.backend fault))
        | .ok reply => consider s p b reply (iterations s t n)

def run (s : Setting) (t : Task) (b : Bench) : Course (Except TaskFault TaskResult) :=
  iterations s t (s.config.int .agentMaxIterations).toNat b { turns := [user t.text] }

end Task

/-- What a task adds to the conversation: one that failed leaves no trace. -/
def Task.exchange (t : Task) (result : Except TaskFault TaskResult) : List Message :=
  match result with
  | .ok r => [Task.user t.text, Task.assistant r.finalResponse]
  | .error _ => []

end CodeAgent
