import CodeAgent.Agent.Task
import CodeAgent.Host.Usual
import CodeAgent.Proofs.Agent.Course
import Mathlib.Data.List.Permutation

namespace CodeAgent.Task

open Course (Way)

/-- The execution of a call in an iteration, from what the tools worked on to what they left. -/
structure Execution where
  iteration : Nat
  call : ToolCall
  start : Bench
  seen : List Seen
  observation : Text
  finish : Bench

namespace Execution

variable (s : Setting) (x : Execution)

def running : Step :=
  { tool := x.call.tool, state := .running, summary := x.call.summary, iteration := some x.iteration }

def cut : Text := Report.truncate (s.config.int .toolResultMaxChars) x.observation

def step : Step := doneStep s x.running (x.cut s)

def log : List Seen := .told x.running :: (x.seen ++ [.told (x.step s)])

end Execution

/-- An iteration after which the task goes on: the reply stalled unless a call was executed. The bench is kept as it
was sent with the messages and as it was when the reply came. -/
structure Turn where
  sent : Bench
  system : Message
  reply : Text
  got : Bench
  execution? : Option Execution

namespace Turn

variable (s : Setting) (turn : Turn)

def response : Message :=
  match turn.execution? with
  | none => user Prompt.stallCorrection
  | some x => toolResult x.call.tool (x.cut s)

def said : List Message := [assistant turn.reply, turn.response s]

def deeds : List Seen :=
  match turn.execution? with
  | none => []
  | some x => x.log s

def left : Bench :=
  match turn.execution? with
  | none => turn.got
  | some x => x.finish

end Turn

variable {s : Setting} {t : Task} {b e : Bench} {p : TaskProgress} {seen : List Seen} {turns : List Turn}
  {v : Option (Except TaskFault TaskResult)} {reply : Text} {messages : List Message}

/-- The system message with the state of the project at some moment. -/
def IsSystem (s : Setting) (t : Task) (m : Message) : Prop :=
  ∃ (w : Workspace) (status : Text), (w.projectStatus s t.activeFile).2 = .ok status ∧
    m = ⟨"system", Prompt.systemMessage (some status)⟩

theorem isSystem_of_systemMessage {m : Message} (h : t.systemMessage s b = (e, .ok m)) : IsSystem s t m := by
  rw [systemMessage] at h
  split at h
  · rename_i w status hstatus
    cases h
    exact ⟨b.workspace, status, by rw [hstatus], rfl⟩
  · cases h

section
def progress (s : Setting) (p : TaskProgress) (turn : Turn) : TaskProgress :=
  let p := { p with iteration := p.iteration + 1, lastAnswer := turn.reply }
  match turn.execution? with
  | none => corrected p turn.reply
  | some x => observed p turn.reply x.call (x.step s) (x.cut s)

def Fruitless (v : Option (Except TaskFault TaskResult)) : Prop := ∀ r, v ≠ some (.ok r)

theorem fruitless_none : Fruitless none := by
  intro r h
  cases h

theorem fruitless_error (fault : TaskFault) : Fruitless (some (.error fault)) := by
  intro r h
  cases h

theorem fruitless_of_done {fault : TaskFault} (h : Way (.done b (.error fault)) seen e v) :
    seen = [] ∧ Fruitless v := by
  cases h with
  | done => exact ⟨rfl, fruitless_error fault⟩
  | givenUp => exact ⟨rfl, fruitless_none⟩

variable {next : Bench → TaskProgress → Course (Except TaskFault TaskResult)} {sent got : Bench} {system : Message}

/-- The progress after a row of turns. -/
theorem foldl_progress (turns : List Turn) (p : TaskProgress) :
    turns.foldl (progress s) p =
      { turns := p.turns ++ turns.flatMap (Turn.said s)
        steps := p.steps ++ (turns.filterMap Turn.execution?).map (Execution.step s)
        corrections := p.corrections + turns.countP (·.execution?.isNone)
        lastAnswer := (turns.map Turn.reply).getLastD p.lastAnswer
        iteration := p.iteration + turns.length } := by
  induction turns generalizing p with
  | nil => simp
  | cons turn rest ih =>
    rw [List.foldl_cons, ih]
    obtain ⟨sent, system, reply, got, x?⟩ := turn
    cases x? with
    | none =>
      simp [progress, corrected, Turn.said, Turn.response, List.getLast?_cons]
      omega
    | some x =>
      simp [progress, observed, Turn.said, Turn.response, List.getLast?_cons]
      omega

/-- Every turn is a stall or an execution. -/
theorem length_executions (turns : List Turn) :
    (turns.filterMap Turn.execution?).length + turns.countP (·.execution?.isNone) = turns.length := by
  induction turns with
  | nil => rfl
  | cons turn rest ih =>
    obtain ⟨sent, system, reply, got, x?⟩ := turn
    cases x? <;> simp <;> omega

variable [Host]

/-- What makes a turn of an iteration that finds a bench: the system message tells that bench, and the call of the
reply is executed on the bench that the reply left. -/
inductive Turn.Holds (s : Setting) (t : Task) (k : Nat) (b : Bench) : Turn → Prop
  | stalled {sent got : Bench} {system : Message} {reply : Text} (hm : t.systemMessage s b = (sent, .ok system))
      (hc : Reply.toolCall? reply = .ok none) (hs : Prompt.isStalling reply = true) :
      Holds s t k b ⟨sent, system, reply, got, none⟩
  | acted {sent got e : Bench} {system : Message} {reply : Text} {call : ToolCall} {seen : List Seen}
      {observation : Text} (hm : t.systemMessage s b = (sent, .ok system))
      (hc : Reply.toolCall? reply = .ok (some call))
      (hx : Way (got.execute s call (some k)) seen e (some (.ok observation))) :
      Holds s t k b ⟨sent, system, reply, got, some ⟨k, call, got, seen, observation, e⟩⟩

/-- A row of turns after some iterations, each of which finds what the one before left. -/
inductive Turns (s : Setting) (t : Task) : Nat → Bench → List Turn → Bench → Prop
  | nil {k : Nat} {b : Bench} : Turns s t k b [] b
  | cons {k : Nat} {b e : Bench} {turn : Turn} {turns : List Turn} (h : turn.Holds s t (k + 1) b)
      (rest : Turns s t (k + 1) turn.left turns e) : Turns s t k b (turn :: turns) e

def log (s : Setting) : List Message → List Turn → List Seen
  | _, [] => []
  | messages, turn :: rest =>
    .asked turn.sent (turn.system :: messages) (.ok turn.reply) turn.got ::
      (turn.deeds s ++ log s (messages ++ turn.said s) rest)

/-- How a task ends that finds a bench after its turns, with some iterations left. -/
inductive Ending (s : Setting) (t : Task) (b : Bench) :
    Nat → TaskProgress → List Seen → Bench → Option (Except TaskFault TaskResult) → Prop
  | exhausted {p : TaskProgress} : Ending s t b 0 p [] b (some (.ok (exhausted s p)))
  | finished {n : Nat} {p : TaskProgress} {sent got : Bench} {system : Message} {reply : Text}
      (hm : t.systemMessage s b = (sent, .ok system)) (hc : Reply.toolCall? reply = .ok none)
      (hs : Prompt.isStalling reply = false) :
      Ending s t b (n + 1) p [.asked sent (system :: (t.history ++ p.turns)) (.ok reply) got] got
        (some (.ok (finish { p with iteration := p.iteration + 1 } reply)))
  | silent {n : Nat} {p : TaskProgress} {e : Bench} {v : Option (Except TaskFault TaskResult)} (hv : Fruitless v) :
      Ending s t b n p [] e v
  | broken {n : Nat} {p : TaskProgress} {sent got e : Bench} {system : Message} {reply : Except BackendFault Text}
      {rest : List Seen} {v : Option (Except TaskFault TaskResult)} (hm : t.systemMessage s b = (sent, .ok system))
      (hq : calls rest = []) (hv : Fruitless v) :
      Ending s t b (n + 1) p (.asked sent (system :: (t.history ++ p.turns)) reply got :: rest) e v

/-- What becomes of a reply that came with a bench: one more turn, the end, or a failure on the way. -/
inductive Considered (s : Setting) (t : Task) (p : TaskProgress) (b sent : Bench) (system : Message) (reply : Text)
    (got : Bench) (next : Bench → TaskProgress → Course (Except TaskFault TaskResult)) :
    List Seen → Bench → Option (Except TaskFault TaskResult) → Prop
  | turn {x? : Option Execution} {rest : List Seen} {e : Bench} {v : Option (Except TaskFault TaskResult)}
      (h : Turn.Holds s t (p.iteration + 1) b ⟨sent, system, reply, got, x?⟩)
      (hw : Way (next (Turn.left ⟨sent, system, reply, got, x?⟩) (progress s p ⟨sent, system, reply, got, x?⟩))
        rest e v) :
      Considered s t p b sent system reply got next (Turn.deeds s ⟨sent, system, reply, got, x?⟩ ++ rest) e v
  | finished (hc : Reply.toolCall? reply = .ok none) (hs : Prompt.isStalling reply = false) :
      Considered s t p b sent system reply got next [] got
        (some (.ok (finish { p with iteration := p.iteration + 1 } reply)))
  | broken {seen : List Seen} {e : Bench} {v : Option (Except TaskFault TaskResult)} (hq : calls seen = [])
      (hv : Fruitless v) : Considered s t p b sent system reply got next seen e v

/-- A call that is acted on is one turn with its execution, and the way goes on behind it. -/
theorem way_act {call : ToolCall} (hm : t.systemMessage s b = (sent, .ok system))
    (hc : Reply.toolCall? reply = .ok (some call))
    (h : Way (act s { p with iteration := p.iteration + 1, lastAnswer := reply } got reply call next) seen e v) :
    Considered s t p b sent system reply got next seen e v := by
  have hquiet := got.quiet_execute s call (some (p.iteration + 1))
  cases h with
  | givenUp => exact .broken rfl fruitless_none
  | tell h =>
    rcases h.of_bind with ⟨first, b', observation, rest, hfirst, hrest, rfl⟩ | ⟨rfl, hfirst⟩
    · have hfirstq : calls first = [] := hquiet _ _ _ hfirst
      cases observation with
      | error fault =>
        obtain ⟨rfl, hv⟩ := fruitless_of_done hrest
        refine .broken ?_ hv
        rw [List.append_nil]
        exact hfirstq
      | ok observation =>
        cases hrest with
        | givenUp =>
          refine .broken ?_ fruitless_none
          rw [List.append_nil]
          exact hfirstq
        | @tell _ _ rest _ _ hrest =>
          have hturn := Considered.turn (Turn.Holds.acted hm hc hfirst) hrest
          simp only [Turn.deeds, Execution.log, List.cons_append, List.append_assoc, List.nil_append] at hturn
          exact hturn
    · have hfirstq : calls _ = [] := hquiet _ _ _ hfirst
      exact .broken hfirstq fruitless_none

/-- A reply is one turn: an answer, a stall, a refused call or a call that is executed. -/
theorem way_consider (hm : t.systemMessage s b = (sent, .ok system))
    (h : Way (consider s { p with iteration := p.iteration + 1 } got reply next) seen e v) :
    Considered s t p b sent system reply got next seen e v := by
  unfold consider at h
  split at h
  · obtain ⟨rfl, hv⟩ := fruitless_of_done h
    exact .broken rfl hv
  · rename_i call hc
    exact way_act hm hc h
  · rename_i hc
    split at h
    · rename_i hs
      exact Considered.turn (Turn.Holds.stalled hm hc hs) h
    · rename_i hs
      cases h with
      | done => exact .finished hc (by simpa using hs)
      | givenUp => exact .broken rfl fruitless_none

/-- Every way through the iterations that are left is a row of turns and an end. -/
theorem way_iterations {left : Nat} (h : Way (iterations s t left b p) seen e v) :
    ∃ turns last rest, Turns s t p.iteration b turns last ∧ turns.length ≤ left ∧
      seen = log s (t.history ++ p.turns) turns ++ rest ∧
      Ending s t last (left - turns.length) (turns.foldl (progress s) p) rest e v := by
  -- On the iterations that are left: after one turn the rest goes on with the progress of that turn.
  induction left generalizing b p seen with
  | zero =>
    cases h with
    | done => exact ⟨[], _, [], .nil, Nat.le_refl 0, rfl, .exhausted⟩
    | givenUp => exact ⟨[], b, [], .nil, Nat.le_refl 0, rfl, .silent fruitless_none⟩
  | succ n ih =>
    unfold iterations at h
    split at h
    · obtain ⟨rfl, hv⟩ := fruitless_of_done h
      exact ⟨[], b, [], .nil, Nat.zero_le _, rfl, .silent hv⟩
    rename_i sent system hm
    cases h with
    | givenUp => exact ⟨[], b, [], .nil, Nat.zero_le _, rfl, .silent fruitless_none⟩
    | @askModel _ got _ _ reply seen _ _ h =>
      cases reply with
      | error fault =>
        obtain ⟨rfl, hv⟩ := fruitless_of_done h
        exact ⟨[], b, _, .nil, Nat.zero_le _, rfl, .broken hm rfl hv⟩
      | ok reply =>
        cases way_consider hm h with
        | @turn x? rest _ _ hturn hw =>
          obtain ⟨turns, last, rest, hturns, hlength, rfl, hend⟩ := ih hw
          have hiteration : (progress s p ⟨sent, system, reply, got, x?⟩).iteration = p.iteration + 1 := by
            cases x? <;> rfl
          have hsaid : (progress s p ⟨sent, system, reply, got, x?⟩).turns =
              p.turns ++ Turn.said s ⟨sent, system, reply, got, x?⟩ := by
            cases x? <;> rfl
          rw [hiteration] at hturns
          refine ⟨⟨sent, system, reply, got, x?⟩ :: turns, last, rest, .cons hturn hturns, Nat.succ_le_succ hlength,
            ?_, ?_⟩
          · rw [hsaid, ← List.append_assoc] at *
            simp only [log, List.append_assoc, List.cons_append]
          · rw [List.length_cons, Nat.add_sub_add_right, List.foldl_cons]
            exact hend
        | finished hc hs => exact ⟨[], b, _, .nil, Nat.zero_le _, rfl, .finished hm hc hs⟩
        | broken hq hv => exact ⟨[], b, _, .nil, Nat.zero_le _, rfl, .broken hm hq hv⟩

theorem Turn.Holds.quiet {k : Nat} {turn : Turn} (h : turn.Holds s t k b) : calls (turn.deeds s) = [] := by
  cases h with
  | stalled => rfl
  | acted hm hc hx =>
    have hquiet := Bench.quiet_execute _ _ _ _ _ _ _ hx
    simp only [Turn.deeds, Execution.log, calls_cons, calls_append, hquiet]
    rfl

/-- The calls of the model in a row of turns, one for each. -/
theorem calls_log {k : Nat} (h : Turns s t k b turns e) (messages : List Message) :
    calls (log s messages turns) = turns.mapIdx fun i turn =>
      (turn.system :: (messages ++ (turns.take i).flatMap (Turn.said s)), .ok turn.reply) := by
  induction h generalizing messages with
  | nil => rfl
  | cons h rest ih =>
    rw [log, calls_cons, calls_append, h.quiet, List.nil_append, ih, List.mapIdx_cons]
    simp [Seen.call?]

theorem replies_log {k : Nat} (h : Turns s t k b turns e) (messages : List Message) :
    (calls (log s messages turns)).map (·.2) = turns.map (.ok ·.reply) := by
  rw [calls_log h]
  apply List.ext_getElem?
  simp only [List.getElem?_map, List.getElem?_mapIdx, Option.map_map]
  exact fun i => rfl

/-- A reply after which a task goes on: it carries a call, or it stalls. -/
def GoesOn (reply : Text) : Prop :=
  (∃ call, Reply.toolCall? reply = .ok (some call)) ∨
    Reply.toolCall? reply = .ok none ∧ Prompt.isStalling reply = true

def Ends (reply : Text) : Prop := Reply.toolCall? reply = .ok none ∧ Prompt.isStalling reply = false

theorem Turns.goesOn {k : Nat} (h : Turns s t k b turns e) : ∀ turn ∈ turns, GoesOn turn.reply := by
  induction h with
  | nil => simp
  | cons h rest ih =>
    refine List.forall_mem_cons.mpr ⟨?_, ih⟩
    cases h with
    | stalled hm hc hs => exact Or.inr ⟨hc, hs⟩
    | acted hm hc hx => exact Or.inl ⟨_, hc⟩

/-- A task that returns has asked the model at most as often as it may. It has stopped at the first reply after
which it does not go on, or for want of iterations. Its steps are those of the executions in its turns, one for
each, and its counters agree. Every turn finds what the one before left, and the task leaves what the last one left
or, where it ends with a reply, what was there when that came. -/
theorem run_accounts {r : TaskResult} (hN : 0 ≤ s.config.int .agentMaxIterations)
    (h : Way (t.run s b) seen e (some (.ok r))) :
    ∃ turns last rest, Turns s t 0 b turns last ∧ seen = log s (t.history ++ [user t.text]) turns ++ rest ∧
      (∀ turn ∈ turns, GoesOn turn.reply) ∧
      r.steps = (turns.filterMap Turn.execution?).map (Execution.step s) ∧ (∀ step ∈ r.steps, step.state = .done) ∧
      ((calls seen).length : Int) ≤ s.config.int .agentMaxIterations ∧
      (r.completed = true ∧ Ends r.finalResponse ∧
          (∃ sent system, t.systemMessage s last = (sent, .ok system) ∧
            ∃ messages, rest = [.asked sent (system :: messages) (.ok r.finalResponse) e]) ∧
          (calls seen).map (·.2) = (turns.map Turn.reply ++ [r.finalResponse]).map .ok ∧
          r.steps.length + r.corrections + 1 = r.iterations ∧ r.iterations = (calls seen).length ∨
        r.completed = false ∧ rest = [] ∧ e = last ∧ (calls seen).map (·.2) = (turns.map Turn.reply).map .ok ∧
          r.finalResponse = (turns.map Turn.reply).getLastD [] ∧
          r.steps.length + r.corrections = r.iterations ∧ r.iterations = s.config.int .agentMaxIterations ∧
          ((calls seen).length : Int) = s.config.int .agentMaxIterations) := by
  obtain ⟨turns, last, rest, hturns, hlength, rfl, hend⟩ := way_iterations h
  have hreplies := replies_log hturns (t.history ++ [user t.text])
  have hcount := congrArg List.length hreplies
  rw [List.length_map, List.length_map] at hcount
  have hexecutions := length_executions turns
  have hdone : ∀ step ∈ (turns.filterMap Turn.execution?).map (Execution.step s), step.state = .done := by
    intro step hstep
    obtain ⟨x, -, rfl⟩ := List.mem_map.mp hstep
    rfl
  rw [foldl_progress] at hend
  refine ⟨turns, last, rest, hturns, rfl, hturns.goesOn, ?_⟩
  generalize hleft : (s.config.int .agentMaxIterations).toNat - turns.length = left at hend
  cases hend with
  | exhausted =>
    rw [List.append_nil, hcount]
    have hall : (turns.length : Int) = s.config.int .agentMaxIterations := by omega
    refine ⟨rfl, hdone, Int.le_of_eq hall, Or.inr ⟨rfl, rfl, rfl, ?_, rfl, ?_, rfl, hall⟩⟩
    · rw [hreplies, List.map_map]
      rfl
    · simp only [exhausted, List.nil_append, List.length_map]
      omega
  | finished hm hc hs =>
    rw [calls_append, List.length_append, hcount]
    refine ⟨rfl, hdone, ?_, Or.inl ⟨rfl, ⟨hc, hs⟩, ⟨_, _, hm, _, rfl⟩, ?_, ?_, ?_⟩⟩
    · simp only [calls, List.filterMap_cons, Seen.call?, List.filterMap_nil, List.length_cons, List.length_nil]
      omega
    · rw [List.map_append, hreplies, List.map_append, List.map_map]
      rfl
    · simp only [finish, List.nil_append, List.length_map]
      omega
    · simp only [finish, calls, List.filterMap_cons, Seen.call?, List.filterMap_nil, List.length_cons, List.length_nil]
      omega
  | silent hv => exact absurd rfl (hv r)
  | broken hm hq hv => exact absurd rfl (hv r)

def bareSetting : Setting where
  config := .default
  home := ⟨[], []⟩
  directory := ⟨[], []⟩
  shell d _ _ _ := ⟨d, none, [], []⟩

def emptyBench : Bench := ⟨{ disk := .empty, root := ⟨[], []⟩, graph := ⟨⟨[], []⟩, [], []⟩, listing := some [] }, {}⟩

/-- A way on from a reply is a way from the call of the model that got it. -/
theorem way_ask {n : Nat} (hm : t.systemMessage s b = (sent, .ok system))
    (h : Way (consider s { p with iteration := p.iteration + 1 } got reply (iterations s t n)) seen e v) :
    Way (iterations s t (n + 1) b p) (.asked sent (system :: t.history ++ p.turns) (.ok reply) got :: seen) e v := by
  rw [iterations, hm]
  exact .askModel h

theorem way_stall (hc : Reply.toolCall? reply = .ok none) (hs : Prompt.isStalling reply = true)
    (h : Way (next b (corrected { p with lastAnswer := reply } reply)) seen e v) :
    Way (consider s p b reply next) seen e v := by
  rw [consider, hc]
  dsimp only
  rw [if_pos hs]
  exact h

theorem way_finish (hc : Reply.toolCall? reply = .ok none) (hs : Prompt.isStalling reply = false) :
    Way (consider s p b reply next) [] b (some (.ok (finish { p with lastAnswer := reply } reply))) := by
  rw [consider, hc]
  dsimp only
  rw [if_neg (Bool.eq_false_iff.mp hs)]
  exact .done

theorem way_call {call : ToolCall} {observation : Text} {b' : Bench} (hc : Reply.toolCall? reply = .ok (some call))
    (hx : b.execute s call (some p.iteration) = .done b' (.ok observation))
    (h : Way (next b' (observed { p with lastAnswer := reply } reply call
      (doneStep s (runningStep p call) (Report.truncate (s.config.int .toolResultMaxChars) observation))
      (Report.truncate (s.config.int .toolResultMaxChars) observation))) seen e v) :
    Way (consider s p b reply next) (.told (runningStep p call) :: .told (doneStep s (runningStep p call)
      (Report.truncate (s.config.int .toolResultMaxChars) observation)) :: seen) e v := by
  rw [consider, hc]
  dsimp only
  unfold act
  refine .tell ?_
  have hx' : b.execute s call (some { p with lastAnswer := reply }.iteration) = .done b' (.ok observation) := hx
  rw [hx']
  exact .tell h

end

attribute [local instance] Host.usual

def writeReply : Text := "\x7b\"tool\": \"write_file\", \"path\": \"a.txt\", \"content\": \"x\"\x7d"

def writeCall : ToolCall := .valid (.writeFile "a.txt" "x")

/-- A task in which the model has a file written, then stalls, and then answers. -/
theorem way_write_stall_finish :
    ∃ seen e r, Way (run bareSetting ⟨"Go", [], none⟩ emptyBench) seen e (some (.ok r)) ∧
      r.finalResponse = "Done." ∧ r.steps.map Step.result = [some (Text.ofString "Wrote 1 lines to a.txt")] ∧
      r.corrections = 1 ∧
      (calls seen).map (·.1.tail) =
        [[user "Go"],
          [user "Go", assistant writeReply, toolResult "write_file" "Wrote 1 lines to a.txt"],
          [user "Go", assistant writeReply, toolResult "write_file" "Wrote 1 lines to a.txt",
            assistant "Could you do it?", user Prompt.stallCorrection]] := by
  have hstatus (b : Bench) : ∃ sent m, systemMessage bareSetting ⟨"Go", [], none⟩ b = (sent, .ok m) := ⟨_, _, rfl⟩
  have hcall : Reply.toolCall? writeReply = .ok (some writeCall) := by cbv
  have hstall : Reply.toolCall? "Could you do it?" = .ok none := by cbv
  have hstalls : Prompt.isStalling "Could you do it?" = true := by cbv
  have hanswer : Reply.toolCall? "Done." = .ok none := by cbv
  have hends : Prompt.isStalling "Done." = false := by cbv
  obtain ⟨sent, system, hm⟩ := hstatus emptyBench
  have hobservation : (sent.perform bareSetting (.writeFile "a.txt" "x")).2 = .ok "Wrote 1 lines to a.txt" := by
    cases hm
    rfl
  have hwritten : sent.execute bareSetting writeCall (some 1) =
      .done (sent.perform bareSetting (.writeFile "a.txt" "x")).1 (.ok "Wrote 1 lines to a.txt") := by
    rw [← hobservation]
    rfl
  obtain ⟨sent', system', hm'⟩ := hstatus (sent.perform bareSetting (.writeFile "a.txt" "x")).1
  obtain ⟨sent'', system'', hm''⟩ := hstatus sent'
  have hway : Way (iterations bareSetting ⟨"Go", [], none⟩ 20 emptyBench { turns := [user "Go"] }) _ sent'' _ :=
    way_ask hm (way_call hcall hwritten (way_ask hm'
        (way_stall hstall hstalls (way_ask hm'' (way_finish hanswer hends)))))
  exact ⟨_, _, _, hway, rfl, by decide +kernel, rfl, rfl⟩

theorem write_stall_answer :
    ∃ seen e r, Way (run bareSetting ⟨"Go", [], none⟩ emptyBench) seen e (some (.ok r)) ∧
      r.finalResponse = "Done." ∧ r.steps.map Step.result = [some (Text.ofString "Wrote 1 lines to a.txt")] ∧
      r.corrections = 1 ∧
      ∃ turns last, Turns bareSetting ⟨"Go", [], none⟩ 0 emptyBench turns last ∧
        (calls seen).map (·.2) = (turns.map Turn.reply ++ [r.finalResponse]).map .ok ∧ r.iterations = 3 := by
  obtain ⟨seen, e, r, hway, hanswer, hsteps, hcorrections, -⟩ := way_write_stall_finish
  obtain ⟨turns, last, rest, hturns, -, -, -, -, -, hend⟩ := run_accounts (by decide) hway
  have hlength : r.steps.length = 1 := by simpa using congrArg List.length hsteps
  rcases hend with ⟨-, -, -, hreplies, hcount, -⟩ | ⟨-, -, -, -, -, hcount, hall, -⟩
  · exact ⟨seen, e, r, hway, hanswer, hsteps, hcorrections, turns, last, hturns, hreplies, by omega⟩
  · have hmax : bareSetting.config.int .agentMaxIterations = 20 := by decide
    omega

end CodeAgent.Task
