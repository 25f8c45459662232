import CodeAgent.Host.Usual
import CodeAgent.Proofs.Agent.Reporter
import CodeAgent.Service.Stream

namespace CodeAgent

open Course (Way)

namespace Task

variable {s : Setting} {t : Task} {b b' e : Bench} {p : TaskProgress} {seen : List Seen} {reply : Text}
  {next : Bench → TaskProgress → Course (Except TaskFault TaskResult)}

variable [Host]

/-- Why a task failed: the provider did, or a reply could not be read, or the state of the project could not be told. -/
inductive Failed (s : Setting) (t : Task) (seen : List Seen) : TaskFault → Prop
  | backend {fault : BackendFault} : Failed s t seen (.backend fault)
  | reply {messages : List Message} {reply : Text} {fault : Reply.Fault} (asked : (messages, .ok reply) ∈ calls seen)
      (unread : Reply.toolCall? reply = .error fault) : Failed s t seen (.reply fault)
  | disk {b : Bench} {fault : DiskFault} (untold : (t.systemMessage s b).2 = .error fault) :
      Failed s t seen (.disk fault)

theorem Failed.after {fault : TaskFault} (h : Failed s t seen fault) (first : List Seen) :
    Failed s t (first ++ seen) fault := by
  cases h with
  | backend => exact .backend
  | reply asked unread => exact .reply (calls_append first seen ▸ List.mem_append_right _ asked) unread
  | disk untold => exact .disk untold

/-- A task that fails behind a call has failed in what follows the call. -/
theorem failed_of_act {call : ToolCall} {fault : TaskFault}
    (h : Way (act s p b reply call next) seen e (some (.error fault)))
    (hnext : ∀ b p seen, Way (next b p) seen e (some (.error fault)) → Failed s t seen fault) :
    Failed s t seen fault := by
  cases h with
  | tell h =>
    rcases h.of_bind with ⟨first, b', observation, rest, -, hrest, rfl⟩ | ⟨hnone, -⟩
    · cases observation with
      | error fault' =>
        obtain ⟨rfl, -, hfault⟩ := hrest.of_done
        cases hfault
        exact .backend
      | ok observation =>
        cases hrest with
        | tell hrest => exact (((hnext _ _ _ hrest).after [_]).after first).after [_]
    · cases hnone

/-- What a failed task has failed of. -/
theorem failed_of_way {left : Nat} {fault : TaskFault}
    (h : Way (iterations s t left b p) seen e (some (.error fault))) :
    Failed s t seen fault := by
  induction left generalizing b p seen with
  | zero =>
    obtain ⟨-, -, hfault⟩ := h.of_done
    cases hfault
  | succ n ih =>
    unfold iterations at h
    split at h
    · rename_i fault' hsystem
      obtain ⟨rfl, -, hfault⟩ := h.of_done
      cases hfault
      exact .disk (congrArg Prod.snd hsystem)
    · cases h with
      | @askModel _ _ _ _ reply rest _ _ h =>
        cases reply with
        | error fault' =>
          obtain ⟨rfl, -, hfault⟩ := h.of_done
          cases hfault
          exact .backend
        | ok reply =>
          dsimp only at h
          unfold consider at h
          split at h
          · rename_i fault' hunread
            obtain ⟨rfl, -, hfault⟩ := h.of_done
            cases hfault
            exact .reply (List.mem_singleton.mpr rfl) hunread
          · exact (failed_of_act h fun b p seen hw => ih hw).after [_]
          · split at h
            · exact (ih h).after [_]
            · obtain ⟨-, -, hfault⟩ := h.of_done
              cases hfault

end Task

namespace Service

variable {τ : Type} {s : Setting} {world : World τ} {pace : Nat → Nat} {state : τ} {t : Task} {b : Bench}
  {result : Except TaskFault TaskResult} {l : EventLoop (List StreamEntry) Empty}

def queued (steps : List Step) : List StreamEntry := steps.map fun step => .event "step" step.toJson

/-- Since the queue and the deliveries stood at `first` and `earlier`, every step that was delivered was put into the
queue. -/
def Queues (first : List StreamEntry) (earlier : List Step) (l : EventLoop (List StreamEntry) Empty) : Prop :=
  ∃ steps, l.state = first ++ queued steps ∧ l.received = earlier ++ steps

theorem Queues.refl (l : EventLoop (List StreamEntry) Empty) : Queues l.state l.received l :=
  ⟨[], (List.append_nil _).symm, (List.append_nil _).symm⟩

theorem Queues.runOne {first : List StreamEntry} {earlier : List Step} (l : EventLoop (List StreamEntry) Empty)
    (h : Queues first earlier l) : Queues first earlier (l.runOne queueing) := by
  obtain ⟨steps, hstate, hreceived⟩ := h
  unfold EventLoop.runOne
  split
  · exact ⟨steps, hstate, hreceived⟩
  · rename_i step rest hready
    refine ⟨steps ++ [step], ?_, ?_⟩
    · simp [queueing, hstate, queued]
    · simp [queueing, hreceived]
  · rename_i work rest hready
    exact nomatch work

section
def stepEvent (step : Step) : Text × Json := ("step", step.toJson)

theorem taken_queued (steps : List Step) (rest : List StreamEntry) :
    taken (queued steps ++ rest) = steps.map stepEvent ++ taken rest := by
  induction steps with
  | nil => rfl
  | cons step steps ih => exact congrArg (List.cons (stepEvent step)) ih

theorem taken_closing (result : Except TaskFault TaskResult) (late : List StreamEntry) :
    taken (closing (some result) ++ late) = events [] result := by
  rcases result with fault | r
  · cases fault <;> rfl
  · rfl

def OneVerdict (events : List (Text × Json)) : Prop :=
  ∃ (steps : List (Text × Json)) (verdict : Text × Json), events = steps ++ [verdict] ∧
    (∀ event ∈ steps, event.1 = "step") ∧ (verdict.1 = "result" ∨ verdict.1 = "error")

/-- A stream ends with one verdict unless a fault came that is not passed on. -/
theorem oneVerdict_events_iff (steps : List Step) : OneVerdict (events steps result) ↔
    (∃ r, result = .ok r) ∨ ∃ fault, result = .error (.backend fault) := by
  have hsteps : ∀ event ∈ steps.map stepEvent, event.1 = "step" := by simp [stepEvent]
  constructor
  · rintro ⟨before, verdict, he, -, hname⟩
    rcases result with fault | r
    · have hlast (hnone : events steps (.error fault) = steps.map stepEvent) : verdict.1 = "step" := by
        refine hsteps verdict ?_
        rw [← hnone, he]
        simp
      cases fault with
      | backend fault => exact Or.inr ⟨fault, rfl⟩
      | reply fault =>
        rw [hlast (List.append_nil _)] at hname
        exact absurd hname (by decide)
      | disk fault =>
        rw [hlast (List.append_nil _)] at hname
        exact absurd hname (by decide)
    · exact Or.inl ⟨r, rfl⟩
  · rintro (⟨r, rfl⟩ | ⟨fault, rfl⟩)
    · exact ⟨_, _, rfl, hsteps, Or.inl rfl⟩
    · exact ⟨_, _, rfl, hsteps, Or.inr rfl⟩

variable [Host]

/-- The queue of a task is what its subscriber received. -/
theorem state_reported (s : Setting) (world : World τ) (pace : Nat → Nat) (state : τ) (t : Task) (b : Bench) :
    (t.reported s world (some queueing) pace state { state := [] } b).loop.state =
      queued (t.reported s world (some queueing) pace state { state := [] } b).loop.received := by
  have hwatched : Queues [] [] ((t.run s b).watched world (some queueing) pace state { state := [] }).loop :=
    EventLoop.watched_induct Queues.runOne (fun _ _ h => h) world (t.run s b) pace state (.refl { state := [] })
  have hreported : Queues [] [] (t.reported s world (some queueing) pace state { state := [] } b).loop := by
    unfold Task.reported
    dsimp only
    split
    · exact EventLoop.run_induct Queues.runOne _ hwatched
    · exact hwatched
  obtain ⟨steps, hstate, hreceived⟩ := hreported
  rw [hstate, hreceived, List.nil_append, List.nil_append]

/-- The events of a streamed task are those of the steps that were delivered by its end. -/
theorem stream_eq (h : (t.reported s world (some queueing) pace state { state := [] } b).value = some result) :
    stream s world pace state t b =
      events (t.reported s world (some queueing) pace state { state := [] } b).loop.received result := by
  have hstate := state_reported s world pace state t b
  unfold stream
  dsimp only
  rw [h]
  generalize (t.reported s world (some queueing) pace state { state := [] } b).loop = l at hstate ⊢
  obtain ⟨late, hlate, -⟩ := EventLoop.run_induct Queues.runOne l.ready.length
    (Queues.refl { l with state := l.state ++ closing (some result) })
  change taken (EventLoop.run queueing l.ready.length { l with state := l.state ++ closing (some result) }).state = _
  rw [hlate, hstate, List.append_assoc, taken_queued, taken_closing]
  rfl

/-- What a task that is streamed told is what it did, and what was delivered of that by its end. -/
theorem way_reported (h : (t.reported s world (some queueing) pace state { state := [] } b).value = some result) :
    ∃ seen e, Way (t.run s b) seen e (some result) ∧
      world.Answers state seen (t.reported s world (some queueing) pace state { state := [] } b).world ∧
      (t.reported s world (some queueing) pace state { state := [] } b).loop.received <+: told seen ∧
      ((∃ r, result = .ok r) →
        (t.reported s world (some queueing) pace state { state := [] } b).loop.received = told seen) := by
  obtain ⟨seen, hway, hanswers, htold⟩ := Course.way_watched world queueing (t.run s b) pace state { state := [] }
  have houtcome := Task.reported_outcome (s := s) world (some queueing) pace state { state := [] } t b
  have hvalue := (Watched.value_eq houtcome).symm.trans h
  have hworld : (t.reported s world (some queueing) pace state { state := [] } b).world = _ := congrArg (·.1) houtcome
  rw [hvalue] at hway
  have htold : _ = told seen := htold
  refine ⟨seen, _, hway, hworld ▸ hanswers, ?_⟩
  rcases result with fault | r
  · have hloop : (t.reported s world (some queueing) pace state { state := [] } b).loop =
        ((t.run s b).watched world (some queueing) pace state { state := [] }).loop := by
      unfold Task.reported
      simp only [hvalue]
    rw [hloop, ← htold]
    exact ⟨List.prefix_append _ _, by simp⟩
  · obtain ⟨-, hloop⟩ := Task.reported_ok h
    rw [hloop, EventLoop.received_flush, htold]
    exact ⟨List.prefix_rfl, fun _ => rfl⟩

/-- The events of a task that ended are steps that it told, in order, and then one verdict just if it ended with a
result or with a failure of the provider. After a result no step is missing, and what leaves no verdict is a reply that
cannot be read or a project whose state cannot be told. -/
theorem stream_verdict_iff (h : (t.reported s world (some queueing) pace state { state := [] } b).value = some result) :
    (OneVerdict (stream s world pace state t b) ↔ (∃ r, result = .ok r) ∨ ∃ fault, result = .error (.backend fault)) ∧
    ∃ seen e steps, Way (t.run s b) seen e (some result) ∧
      world.Answers state seen (t.reported s world (some queueing) pace state { state := [] } b).world ∧
      stream s world pace state t b = events steps result ∧
      steps <+: told seen ∧ ((∃ r, result = .ok r) → steps = told seen) ∧
      ∀ fault, result = .error fault → Task.Failed s t seen fault := by
  obtain ⟨seen, e, hway, hanswers, hprefix, hall⟩ := way_reported h
  rw [stream_eq h]
  refine ⟨oneVerdict_events_iff _, seen, e, _, hway, hanswers, rfl, hprefix, hall, ?_⟩
  rintro fault rfl
  exact Task.failed_of_way hway

end

attribute [local instance] Host.usual

def scriptedStream (t : Task) : List (Text × Json) :=
  stream Task.bareSetting Task.scriptedWorld (fun _ => 0) Task.scriptedReplies t Task.emptyBench

def scriptedValue (t : Task) : Option (Except TaskFault TaskResult) :=
  (t.reported Task.bareSetting Task.scriptedWorld (some queueing) (fun _ => 0) Task.scriptedReplies { state := [] }
    Task.emptyBench).value

/-- A task ends because the path of the file in the editor is refused, and yields no verdict. -/
theorem refused_file_no_verdict : (scriptedValue ⟨"Go", [], some [⟨0, by decide⟩]⟩).isSome = true ∧
    ¬ OneVerdict (scriptedStream ⟨"Go", [], some [⟨0, by decide⟩]⟩) := by
  have hempty : (scriptedStream ⟨"Go", [], some [⟨0, by decide⟩]⟩).isEmpty = true := by decide +kernel
  refine ⟨by decide +kernel, ?_⟩
  rw [List.isEmpty_iff.mp hempty]
  rintro ⟨steps, verdict, he, -⟩
  simp at he

/-- The steps of a command, and the result. -/
theorem command_task_verdict : OneVerdict (scriptedStream ⟨"Go", [], none⟩) ∧
    (scriptedStream ⟨"Go", [], none⟩).map Prod.fst = (["step", "step", "step", "step", "result"] : List Text) := by
  have hreturns : ((scriptedValue ⟨"Go", [], none⟩).bind Except.toOption).isSome = true := by decide +kernel
  obtain ⟨r, hr⟩ := Task.exists_result hreturns
  rw [scriptedValue] at hr
  exact ⟨(stream_verdict_iff hr).1.mpr (Or.inl ⟨r, rfl⟩), by decide +kernel⟩

end Service

end CodeAgent
