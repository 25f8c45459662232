import CodeAgent.Agent.Reporter
import CodeAgent.Host.Usual
import CodeAgent.Proofs.Agent.Task

namespace CodeAgent

open Course (Way)

variable {τ σ κ α : Type} {sub : Subscriber σ κ} {sub? : Option (Subscriber σ κ)} {l : EventLoop σ κ}

def Callback.step? : Callback κ → Option Step
  | .deliver step => some step
  | .resume _ => none

namespace EventLoop

def pending (l : EventLoop σ κ) : List Step := l.ready.filterMap Callback.step?

def addressed (l : EventLoop σ κ) : List Step := l.received ++ l.pending

/-- A callback that runs leaves room to those behind it, and schedules nothing but tasks of the subscriber. -/
theorem ready_runOne (sub : Subscriber σ κ) {c : Callback κ} {rest : List (Callback κ)} (h : l.ready = c :: rest) :
    ∃ late : List (Callback κ), (l.runOne sub).ready = rest ++ late ∧ late.filterMap Callback.step? = [] ∧
      (l.runOne sub).received = l.received ++ c.step?.toList := by
  unfold runOne
  rw [h]
  cases c with
  | deliver step =>
    dsimp only
    rcases sub.receive l.state step with ⟨state, _ | _ | work⟩
    · exact ⟨[], by simp, rfl, rfl⟩
    · exact ⟨[], by simp, rfl, rfl⟩
    · exact ⟨[.resume work], rfl, rfl, rfl⟩
  | resume work =>
    dsimp only
    rcases sub.resume l.state work with ⟨state, work | _ | _⟩
    · exact ⟨[.resume work], rfl, rfl, (List.append_nil _).symm⟩
    · exact ⟨[], by simp, rfl, (List.append_nil _).symm⟩
    · exact ⟨[], by simp, rfl, (List.append_nil _).symm⟩

theorem addressed_runOne (sub : Subscriber σ κ) (l : EventLoop σ κ) : (l.runOne sub).addressed = l.addressed := by
  cases h : l.ready with
  | nil => simp [runOne, h]
  | cons c rest =>
    obtain ⟨late, hready, hlate, hreceived⟩ := ready_runOne sub h
    have hc : [c].filterMap Callback.step? = c.step?.toList := by cases c <;> rfl
    rw [addressed, addressed, pending, pending, hready, hreceived, h, List.filterMap_append, hlate, List.append_nil,
      ← List.singleton_append, List.filterMap_append, hc, List.append_assoc]

theorem addressed_run (n : Nat) (l : EventLoop σ κ) : (l.run sub n).addressed = l.addressed := by
  induction n generalizing l with
  | zero => rfl
  | succ n ih => exact (ih _).trans (addressed_runOne sub l)

theorem addressed_turn (n : Nat) (l : EventLoop σ κ) : (l.turn sub? n).addressed = l.addressed := by
  cases sub? with
  | none => rfl
  | some sub => exact addressed_run n l

theorem addressed_emit (step : Step) (l : EventLoop σ κ) :
    (l.emit (some sub) step).addressed = l.addressed ++ [step] := by
  simp [addressed, pending, emit, Callback.step?]

/-- Once what is ready has run, the subscriber has received all that it was told. -/
theorem received_flush (l : EventLoop σ κ) : (l.flush (some sub)).received = l.addressed := by
  have go (front back : List (Callback κ)) (hback : back.filterMap Callback.step? = []) (l : EventLoop σ κ)
      (h : l.ready = front ++ back) : (l.run sub front.length).received = l.addressed := by
    induction front generalizing l back with
    | nil =>
      rw [List.nil_append] at h
      rw [addressed, pending, h, hback, List.append_nil]
      rfl
    | cons c front ih =>
      obtain ⟨late, hready, hlate, -⟩ := ready_runOne sub h
      rw [← addressed_runOne sub l]
      refine ih (back ++ late) ?_ (l.runOne sub) (hready.trans (List.append_assoc _ _ _))
      rw [List.filterMap_append, hback, hlate, List.append_nil]
  exact go l.ready [] rfl l (List.append_nil _).symm

section
variable {P : EventLoop σ κ → Prop} (hone : ∀ l, P l → P (l.runOne sub))
include hone

theorem run_induct (n : Nat) (h : P l) : P (l.run sub n) := by
  induction n generalizing l with
  | zero => exact h
  | succ n ih => exact ih (hone l h)

/-- What every callback and every step that is told keep, a watched course keeps. -/
theorem watched_induct (hemit : ∀ l step, P l → P (l.emit (some sub) step)) (world : World τ) (c : Course α)
    (pace : Nat → Nat) (state : τ) (h : P l) : P (c.watched world (some sub) pace state l).loop := by
  induction c generalizing pace state l with
  | done b a => exact run_induct hone _ h
  | tell step next ih => exact ih _ _ (hemit _ step (run_induct hone _ h))
  | askModel b messages next ih => exact ih _ _ _ _ (run_induct hone _ h)
  | awaitApproval b n next ih => exact ih _ _ _ (run_induct hone _ h)
  | run s b command next ih => exact ih _ _ _ _ (run_induct hone _ h)
  | cancelled b => exact run_induct hone _ h

end

end EventLoop

def Watched.outcome (out : Watched τ σ κ α) : τ × Bench × Option α := (out.world, out.bench, out.value)

theorem Watched.value_eq {σ' κ' : Type} {out : Watched τ σ κ α} {out' : Watched τ σ' κ' α}
    (h : out.outcome = out'.outcome) : out.value = out'.value := congrArg (·.2.2) h

/-- What was seen is what a world has answered at every stop, from one state of the world to another. -/
inductive World.Answers (world : World τ) : τ → List Seen → τ → Prop
  | nil {state : τ} : Answers world state [] state
  | told {state after : τ} {step : Step} {seen : List Seen} (h : Answers world state seen after) :
      Answers world state (.told step :: seen) after
  | asked {state after : τ} {b : Bench} {messages : List Message} {seen : List Seen}
      (h : Answers world (world.reply state b messages).1 seen after) :
      Answers world state
        (.asked b messages (world.reply state b messages).2.2 (world.reply state b messages).2.1 :: seen) after
  | waited {state after : τ} {b : Bench} {n : Nat} {seen : List Seen}
      (h : Answers world (world.settle state b n).1 seen after) :
      Answers world state (.waited b n (world.settle state b n).2 :: seen) after
  | ran {state after : τ} {s : Setting} {b : Bench} {command : Text} {seen : List Seen}
      (h : Answers world (world.run state s b command).1 seen after) :
      Answers world state
        (.ran s b command (world.run state s b command).2.2 (world.run state s b command).2.1 :: seen) after

namespace Course

theorem Way.of_done {b e : Bench} {a v : α} {seen : List Seen} (h : Way (.done b a) seen e (some v)) :
    seen = [] ∧ e = b ∧ a = v := by
  cases h
  exact ⟨rfl, rfl, rfl⟩

/-- A watched course goes the way on which the world answers, and what is told on it is addressed to the
subscriber. -/
theorem way_watched (world : World τ) (sub : Subscriber σ κ) (c : Course α) (pace : Nat → Nat) (state : τ)
    (l : EventLoop σ κ) :
    ∃ seen, Way c seen (c.watched world (some sub) pace state l).bench
        (c.watched world (some sub) pace state l).value ∧
      world.Answers state seen (c.watched world (some sub) pace state l).world ∧
      (c.watched world (some sub) pace state l).loop.addressed = l.addressed ++ told seen := by
  induction c generalizing pace state l with
  | done b a => exact ⟨[], .done, .nil, (EventLoop.addressed_turn _ _).trans (List.append_nil _).symm⟩
  | tell step next ih =>
    obtain ⟨seen, hway, hanswers, htold⟩ := ih (pace <| · + 1) state ((l.turn (some sub) (pace 0)).emit (some sub) step)
    rw [EventLoop.addressed_emit, EventLoop.addressed_turn, List.append_assoc] at htold
    exact ⟨_, .tell hway, .told hanswers, htold⟩
  | askModel b messages next ih =>
    obtain ⟨seen, hway, hanswers, htold⟩ :=
      ih _ _ (pace <| · + 1) (world.reply state b messages).1 (l.turn (some sub) (pace 0))
    rw [EventLoop.addressed_turn] at htold
    exact ⟨_, .askModel hway, .asked hanswers, htold⟩
  | awaitApproval b n next ih =>
    obtain ⟨seen, hway, hanswers, htold⟩ :=
      ih _ (pace <| · + 1) (world.settle state b n).1 (l.turn (some sub) (pace 0))
    rw [EventLoop.addressed_turn] at htold
    exact ⟨_, .awaitApproval hway, .waited hanswers, htold⟩
  | run s b command next ih =>
    obtain ⟨seen, hway, hanswers, htold⟩ :=
      ih _ _ (pace <| · + 1) (world.run state s b command).1 (l.turn (some sub) (pace 0))
    rw [EventLoop.addressed_turn] at htold
    exact ⟨_, .run hway, .ran hanswers, htold⟩
  | cancelled b => exact ⟨[], .givenUp, .nil, (EventLoop.addressed_turn _ _).trans (List.append_nil _).symm⟩

/-- What becomes of a course does not depend on who is told of it, nor on when. -/
theorem watched_outcome {σ' κ' : Type} (world : World τ) (sub? : Option (Subscriber σ κ))
    (sub?' : Option (Subscriber σ' κ')) (c : Course α) (pace pace' : Nat → Nat) (state : τ) (l : EventLoop σ κ)
    (l' : EventLoop σ' κ') :
    (c.watched world sub? pace state l).outcome = (c.watched world sub?' pace' state l').outcome := by
  induction c generalizing pace pace' state l l' with
  | done b a => rfl
  | tell step next ih => exact ih _ _ _ _ _
  | askModel b messages next ih => exact ih _ _ _ _ _ _ _
  | awaitApproval b n next ih => exact ih _ _ _ _ _ _
  | run s b command next ih => exact ih _ _ _ _ _ _ _
  | cancelled b => rfl

def Guide.world (g : Guide τ) : World τ where
  reply state bench messages :=
    let (state, reply) := g.answer state messages
    (state, bench, reply)
  settle state bench _ := g.settle state bench
  run state s bench command :=
    let (bench, result) := bench.runCommand s command
    (state, bench, result)

/-- A guided course is a watched one. -/
theorem guided_eq_watched (g : Guide τ) (sub : Subscriber σ κ) (c : Course α) (pace : Nat → Nat) (state : τ)
    (l : EventLoop σ κ) :
    let out := c.watched g.world (some sub) pace state l
    ((c.guided g state).guide, (c.guided g state).bench, (c.guided g state).value) = out.outcome ∧
      out.loop.addressed = l.addressed ++ (c.guided g state).steps := by
  induction c generalizing pace state l with
  | done b a => exact ⟨rfl, (EventLoop.addressed_turn _ _).trans (List.append_nil _).symm⟩
  | tell step next ih =>
    obtain ⟨houtcome, htold⟩ := ih (pace <| · + 1) state ((l.turn (some sub) (pace 0)).emit (some sub) step)
    rw [EventLoop.addressed_emit, EventLoop.addressed_turn, List.append_assoc] at htold
    exact ⟨houtcome, htold⟩
  | askModel b messages next ih =>
    obtain ⟨houtcome, htold⟩ := ih _ _ (pace <| · + 1) (g.answer state messages).1 (l.turn (some sub) (pace 0))
    rw [EventLoop.addressed_turn] at htold
    exact ⟨houtcome, htold⟩
  | awaitApproval b n next ih =>
    obtain ⟨houtcome, htold⟩ := ih _ (pace <| · + 1) (g.settle state b).1 (l.turn (some sub) (pace 0))
    rw [EventLoop.addressed_turn] at htold
    exact ⟨houtcome, htold⟩
  | run s b command next ih =>
    obtain ⟨houtcome, htold⟩ := ih _ _ (pace <| · + 1) state (l.turn (some sub) (pace 0))
    rw [EventLoop.addressed_turn] at htold
    exact ⟨houtcome, htold⟩
  | cancelled b => exact ⟨rfl, (EventLoop.addressed_turn _ _).trans (List.append_nil _).symm⟩

end Course

namespace Bench

variable {s : Setting} {b b' e : Bench} {call : ToolCall} {c : Text} {k : Nat} {seen : List Seen} {observation : Text}
  {verdict : Option Approval}

/-- What the gate says of a command: at once, or once the request for it no longer waits, by when all that the gate
and the tools work on may have changed. -/
inductive Ruled (b : Bench) (c : Text) : List Seen → Bench → Option Approval → Prop
  | atOnce (h : ∀ waiting, (b.gate.request c).requests[b.gate.requests.length]? ≠ some (.waiting waiting)) :
      Ruled b c [] { b with gate := b.gate.request c } (b.gate.request c).requests[b.gate.requests.length]?
  | later {after : Bench} {waiting : Text}
      (h : (b.gate.request c).requests[b.gate.requests.length]? = some (.waiting waiting)) :
      Ruled b c [.waited { b with gate := b.gate.request c } b.gate.requests.length after] after
        after.gate.requests[b.gate.requests.length]?

theorem Ruled.told_waited {waited : List Seen} (h : Ruled b c waited b' verdict) : told waited = [] := by
  cases h <;> rfl

variable [Host]

/-- What is seen of a call while it is executed on a bench, what the model is told of it, and what it leaves. Only a
command that was approved is told a second time, and run. -/
inductive Stages (s : Setting) (k : Nat) (b : Bench) : ToolCall → List Seen → Text → Bench → Prop
  | invalid {call : InvalidCall} :
      Stages s k b (.invalid call) [] ("ERROR (" ++ call.tool ++ "): " ++ call.error) b
  | plain {i : Invocation} {observation : Text} (h : i.kind ≠ .runCommand)
      (performed : (b.perform s i).2 = .ok observation) :
      Stages s k b (.valid i) [] observation (b.perform s i).1
  | approved {c observation : Text} {waited : List Seen} {b' after : Bench}
      {result : Except ToolFault CommandResult}
      (ruled : Ruled b c waited b' (some (.finished (.decided true))))
      (concluded : (after.workspace.conclude .runCommand (result.map CommandResult.render)).2 = .ok observation) :
      Stages s k b (.valid (.runCommand c))
        (.told (askingStep c (some k)) ::
          (waited ++ [.told (executingStep c (some k)), .ran s b' c result after])) observation
        { after with
          workspace := (after.workspace.conclude .runCommand (result.map CommandResult.render)).1 }
  | denied {c : Text} {waited : List Seen} {b' : Bench}
      (ruled : Ruled b c waited b' (some (.finished (.decided false)))) :
      Stages s k b (.valid (.runCommand c)) (.told (askingStep c (some k)) :: waited) "Command denied by user."
        { b' with workspace := b'.workspace.markDirty }
  | busy {c other : Text} {waited : List Seen} {b' : Bench} (ruled : Ruled b c waited b' (some (.busy other))) :
      Stages s k b (.valid (.runCommand c)) (.told (askingStep c (some k)) :: waited)
        ("ERROR (run_command): " ++ Gate.busyMessage other) b'

/-- What is told after the verdict on a command closes the steps that were told before it. -/
theorem way_afterVerdict {waited : List Seen} (hr : Ruled b c waited b' verdict)
    (h : Way (b'.afterVerdict s c (some k) verdict) seen e (some (.ok observation))) :
    Stages s k b (.valid (.runCommand c)) (.told (askingStep c (some k)) :: (waited ++ seen)) observation e := by
  unfold afterVerdict at h
  split at h
  · cases h with
    | tell h =>
      cases h with
      | run h =>
        obtain ⟨rfl, rfl, hobservation⟩ := h.of_done
        exact .approved hr hobservation
  · obtain ⟨rfl, rfl, hobservation⟩ := h.of_done
    cases hobservation
    rw [List.append_nil]
    exact .denied hr
  · obtain ⟨rfl, rfl, hobservation⟩ := h.of_done
    cases hobservation
    rw [List.append_nil]
    exact .busy hr
  · cases h

/-- A call whose execution comes to an observation goes through the stages of its kind. -/
theorem way_execute (h : Way (b.execute s call (some k)) seen e (some (.ok observation))) :
    Stages s k b call seen observation e := by
  unfold execute at h
  split at h
  · obtain ⟨rfl, rfl, hobservation⟩ := h.of_done
    cases hobservation
    exact .invalid
  · rename_i c
    unfold command at h
    cases h with
    | tell h =>
      dsimp only at h
      split at h
      · rename_i waiting hw
        cases h with
        | @awaitApproval _ b' _ _ _ _ _ h =>
          have hstages := way_afterVerdict (.later hw) h
          exact hstages
      · rename_i hn
        exact way_afterVerdict (.atOnce fun waiting hw => hn waiting hw) h
  · rename_i i hplain
    obtain ⟨rfl, rfl, hobservation⟩ := h.of_done
    refine .plain (fun hk => ?_) hobservation
    cases i with
    | runCommand c => exact hplain c rfl
    | _ => cases hk

/-- What is told while a call is executed: nothing, but of a command that it asks, and that it is executed. -/
theorem Stages.told_seen (h : Stages s k b call seen observation e) :
    told seen = [] ∨ ∃ c, call = .valid (.runCommand c) ∧
      (told seen = [askingStep c (some k)] ∨ told seen = [askingStep c (some k), executingStep c (some k)]) := by
  cases h with
  | invalid => exact Or.inl rfl
  | plain => exact Or.inl rfl
  | approved ruled =>
    refine Or.inr ⟨_, rfl, Or.inr ?_⟩
    rw [told_cons, told_append, ruled.told_waited]
    rfl
  | denied ruled =>
    refine Or.inr ⟨_, rfl, Or.inl ?_⟩
    rw [told_cons, ruled.told_waited]
    rfl
  | busy ruled =>
    refine Or.inr ⟨_, rfl, Or.inl ?_⟩
    rw [told_cons, ruled.told_waited]
    rfl

theorem Stages.iteration (h : Stages s k b call seen observation e) :
    ∀ step ∈ told seen, step.iteration = some k := by
  rcases h.told_seen with h | ⟨c, -, h | h⟩ <;> rw [h] <;> simp [askingStep, executingStep]

end Bench

namespace Task

variable {s : Setting} {t : Task} {turns : List Turn} {k : Nat}

def Execution.events (s : Setting) (x : Execution) : List Step := x.running :: (told x.seen ++ [x.step s])

/-- What was told of a log is what each of its executions tells, in order. -/
theorem told_log (messages : List Message) (turns : List Turn) :
    told (log s messages turns) = (turns.filterMap Turn.execution?).flatMap (Execution.events s) := by
  induction turns generalizing messages with
  | nil => rfl
  | cons turn rest ih =>
    have hlog : told (log s messages (turn :: rest)) =
        told (turn.deeds s) ++ told (log s (messages ++ turn.said s) rest) := told_append _ _
    rw [hlog, ih]
    obtain ⟨sent, system, reply, got, x?⟩ := turn
    cases x? with
    | none => rfl
    | some x =>
      have hdeeds : told (Turn.deeds s ⟨sent, system, reply, got, some x⟩) = x.events s :=
        congrArg (x.running :: ·) (told_append x.seen [.told (x.step s)])
      rw [hdeeds]
      simp

section
theorem exists_result {value : Option (Except TaskFault TaskResult)}
    (h : (value.bind Except.toOption).isSome = true) : ∃ r, value = some (.ok r) := by
  rcases value with _ | _ | r
  · cases h
  · cases h
  · exact ⟨r, rfl⟩

variable [Host]

/-- The stages of every execution in a row of turns. -/
theorem Turns.stages {b e : Bench} (h : Turns s t k b turns e) : ∀ x ∈ turns.filterMap Turn.execution?,
    Bench.Stages s x.iteration x.start x.call x.seen x.observation x.finish := by
  induction h with
  | nil => simp
  | cons h rest ih =>
    cases h with
    | stalled => exact ih
    | acted hm hc hx => exact List.forall_mem_cons.mpr ⟨Bench.way_execute hx, ih⟩

/-- What comes of a task that is told of. -/
theorem reported_outcome (world : World τ) (sub? : Option (Subscriber σ κ)) (pace : Nat → Nat) (state : τ)
    (l : EventLoop σ κ) (t : Task) (b : Bench) : (t.reported s world sub? pace state l b).outcome =
      ((t.run s b).watched world sub? pace state l).outcome := by
  unfold reported
  dsimp only
  split <;> rfl

/-- Before a result is returned, everything that is ready runs. -/
theorem reported_ok {world : World τ} {pace : Nat → Nat} {state : τ} {b : Bench} {r : TaskResult}
    (h : (t.reported s world sub? pace state l b).value = some (.ok r)) :
    ((t.run s b).watched world sub? pace state l).value = some (.ok r) ∧
      (t.reported s world sub? pace state l b).loop =
        ((t.run s b).watched world sub? pace state l).loop.flush sub? := by
  have hvalue : ((t.run s b).watched world sub? pace state l).value = some (.ok r) := by
    rw [← h]
    exact (Watched.value_eq (reported_outcome world sub? pace state l t b)).symm
  refine ⟨hvalue, ?_⟩
  unfold reported
  simp only [hvalue]

/-- What is to be told of a task with a result: for every step in order that it runs, the stages of its call, and that
it is done, all with the iteration of the step. The executions are those of the turns that the task was seen to take
from its bench on. -/
structure Reports (s : Setting) (t : Task) (b : Bench) (seen : List Seen) (r : TaskResult)
    (executions : List Execution) (events : List Step) : Prop where
  turns : ∃ turns last rest, Turns s t 0 b turns last ∧ seen = log s (t.history ++ [user t.text]) turns ++ rest ∧
    told rest = [] ∧ executions = turns.filterMap Turn.execution?
  steps : r.steps = executions.map (Execution.step s)
  events : events = executions.flatMap (Execution.events s)
  stages : ∀ x ∈ executions, Bench.Stages s x.iteration x.start x.call x.seen x.observation x.finish
  iterations : ∀ x ∈ executions, ∀ event ∈ x.events s, event.iteration = some x.iteration

/-- A task that ends with a result has told every execution whole. -/
theorem reports_of_way {b e : Bench} {seen : List Seen} {r : TaskResult} (h : Way (t.run s b) seen e (some (.ok r))) :
    ∃ executions, Reports s t b seen r executions (told seen) := by
  obtain ⟨turns, last, rest, hturns, -, rfl, hend⟩ := way_iterations h
  have hstages := hturns.stages
  rw [foldl_progress] at hend
  generalize (s.config.int .agentMaxIterations).toNat - turns.length = left at hend
  have hlast : r.steps = (turns.filterMap Turn.execution?).map (Execution.step s) ∧ told rest = [] := by
    cases hend with
    | exhausted => exact ⟨rfl, rfl⟩
    | finished => exact ⟨rfl, rfl⟩
    | silent hv => exact absurd rfl (hv r)
    | broken hm hq hv => exact absurd rfl (hv r)
  refine ⟨turns.filterMap Turn.execution?, ⟨turns, last, rest, hturns, rfl, hlast.2, rfl⟩, hlast.1, ?_, hstages,
    fun x hx event he => ?_⟩
  · rw [told_append, told_log, hlast.2, List.append_nil]
  · rcases List.mem_cons.mp he with rfl | he
    · rfl
    · rcases List.mem_append.mp he with he | he
      · exact (hstages x hx).iteration event he
      · rw [List.mem_singleton.mp he]
        rfl

/-- By the time a task returns, its subscriber has received what is to be told of it on the way on which the world has
answered. Whoever is told, at whatever pace, what becomes of the task is the same. -/
theorem reported_complete (world : World τ) (sub : Subscriber σ κ) (pace : Nat → Nat) (state : τ) (initial : σ)
    (t : Task) (b : Bench) :
    (∀ r, (t.reported s world (some sub) pace state { state := initial } b).value = some (.ok r) →
      ∃ seen executions,
        world.Answers state seen (t.reported s world (some sub) pace state { state := initial } b).world ∧
        Reports s t b seen r executions
          (t.reported s world (some sub) pace state { state := initial } b).loop.received) ∧
    ∀ (σ' κ' : Type) (sub?' : Option (Subscriber σ' κ')) (pace' : Nat → Nat) (initial' : σ'),
      (t.reported s world sub?' pace' state { state := initial' } b).outcome =
        (t.reported s world (some sub) pace state { state := initial } b).outcome := by
  constructor
  · intro r hr
    obtain ⟨hvalue, hloop⟩ := reported_ok hr
    have hworld := congrArg (·.1) (reported_outcome (s := s) world (some sub) pace state { state := initial } t b)
    obtain ⟨seen, hway, hanswers, htold⟩ :=
      Course.way_watched world sub (t.run s b) pace state { state := initial }
    rw [hvalue] at hway
    obtain ⟨executions, hreports⟩ := reports_of_way hway
    rw [hloop, EventLoop.received_flush, htold]
    refine ⟨seen, executions, ?_, hreports⟩
    dsimp only [Watched.outcome] at hworld
    rw [hworld]
    exact hanswers
  · intro σ' κ' sub?' pace' initial'
    rw [reported_outcome, reported_outcome]
    exact Course.watched_outcome world sub?' (some sub) (t.run s b) pace' pace state _ _

def raising : Subscriber Unit Empty where
  receive _ _ := ((), .raised)
  resume _ work := nomatch work

def scriptedWorld : World (List Text) where
  reply texts b _ := (texts.tail, b, .ok (texts.headD []))
  settle texts b _ := (texts, { b with gate := (b.gate.resolve true).1.resumeAll })
  run texts s b command := (texts, b.runCommand s command)

end

attribute [local instance] Host.usual

def scriptedReplies : List Text := ["\x7b\"tool\": \"run_command\", \"command\": \"ls\"\x7d", "Done."]

def commandTask : Watched (List Text) Unit Empty (Except TaskFault TaskResult) :=
  reported bareSetting scriptedWorld (some raising) (fun _ => 0) scriptedReplies
      { state := () } ⟨"Go", [], none⟩ emptyBench

/-- The subscriber is called four times and raises every time, and the task returns as it does without one. -/
theorem raising_subscriber_told : ∃ r seen executions, commandTask.value = some (.ok r) ∧
    scriptedWorld.Answers scriptedReplies seen commandTask.world ∧
    Reports bareSetting ⟨"Go", [], none⟩ emptyBench seen r executions commandTask.loop.received ∧
    commandTask.loop.received.map Step.state = [.running, .awaitingPermission, .running, .done] ∧
    commandTask.loop.warnings = 4 ∧
    (reported bareSetting scriptedWorld (none : Option (Subscriber Unit Empty)) (fun _ => 0) scriptedReplies
      { state := () } ⟨"Go", [], none⟩ emptyBench).value = some (.ok r) := by
  obtain ⟨htold, hsame⟩ := reported_complete (s := bareSetting) scriptedWorld raising (fun _ => 0) scriptedReplies ()
    ⟨"Go", [], none⟩ emptyBench
  rw [← commandTask] at htold hsame
  have hreturns : (commandTask.value.bind Except.toOption).isSome = true := by decide +kernel
  obtain ⟨r, hr⟩ := exists_result hreturns
  obtain ⟨seen, executions, hanswers, hreports⟩ := htold r hr
  have hnone := (Watched.value_eq (hsame Unit Empty none (fun _ => 0) ())).trans hr
  exact ⟨r, seen, executions, hr, hanswers, hreports, by decide +kernel, by decide +kernel, hnone⟩

end Task

end CodeAgent
