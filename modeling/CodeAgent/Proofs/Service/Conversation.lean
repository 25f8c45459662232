import CodeAgent.Host.Usual
import CodeAgent.Proofs.Agent.Task
import CodeAgent.Proofs.Table
import CodeAgent.Service.Answer

namespace CodeAgent

open Course (Way)

namespace Task

variable {s : Setting} {t : Task} {b e : Bench} {seen : List Seen} {turns : List Turn}
  {v : Option (Except TaskFault TaskResult)} {messages : List Message} {k : Nat}

variable [Host]

/-- What the calls of the model in a task are sent, and what they are answered. The turns are those that the task was
seen to take from its bench on. The last call need not belong to a turn. -/
structure Transcript (s : Setting) (t : Task) (b : Bench) (seen : List Seen) (turns : List Turn) : Prop where
  holds : ∃ last rest, Turns s t 0 b turns last ∧ seen = log s (t.history ++ [user t.text]) turns ++ rest
  count : turns.length ≤ (calls seen).length ∧ (calls seen).length ≤ turns.length + 1
  sent : ∀ k call, (calls seen)[k]? = some call → ∃ system, IsSystem s t system ∧
    call.1 = system :: (t.history ++ user t.text :: (turns.take k).flatMap (Turn.said s))
  replies : ∀ (k : Nat) (turn : Turn), turns[k]? = some turn →
    ∃ messages, (calls seen)[k]? = some (messages, Except.ok turn.reply)

theorem Turn.Holds.isSystem {turn : Turn} (h : turn.Holds s t k b) : IsSystem s t turn.system := by
  cases h with
  | stalled hm => exact isSystem_of_systemMessage hm
  | acted hm => exact isSystem_of_systemMessage hm

theorem Turns.isSystem (h : Turns s t k b turns e) : ∀ turn ∈ turns, IsSystem s t turn.system := by
  induction h with
  | nil => simp
  | cons h rest ih => exact List.forall_mem_cons.mpr ⟨h.isSystem, ih⟩

/-- After its turns a task calls the model once more at most. -/
theorem Ending.calls_eq {n : Nat} {p : TaskProgress} {rest : List Seen} (h : Ending s t b n p rest e v) :
    calls rest = [] ∨
      ∃ system reply, IsSystem s t system ∧ calls rest = [(system :: (t.history ++ p.turns), reply)] := by
  cases h with
  | exhausted => exact Or.inl rfl
  | finished hm => exact Or.inr ⟨_, _, isSystem_of_systemMessage hm, rfl⟩
  | silent => exact Or.inl rfl
  | broken hm hq => exact Or.inr ⟨_, _, isSystem_of_systemMessage hm, by rw [calls_cons, hq]; rfl⟩

/-- Whatever becomes of a task, its calls of the model are a transcript of its turns. -/
theorem run_transcript (h : Way (t.run s b) seen e v) : ∃ turns, Transcript s t b seen turns := by
  obtain ⟨turns, last, rest, hturns, -, rfl, hend⟩ := way_iterations h
  rw [foldl_progress] at hend
  have hrest := hend.calls_eq
  have hcalls := calls_append (log s (t.history ++ [user t.text]) turns) rest
  rw [calls_log hturns] at hcalls
  refine ⟨turns, ⟨last, rest, hturns, rfl⟩, ?_, ?_, ?_⟩
  · rw [hcalls, List.length_append, List.length_mapIdx]
    obtain hnone | ⟨_, _, -, hone⟩ := hrest
    · rw [hnone]
      simp
    · rw [hone]
      simp
  · intro k call hcall
    rw [hcalls, List.getElem?_append, List.length_mapIdx] at hcall
    split at hcall
    · rename_i hk
      rw [List.getElem?_mapIdx, List.getElem?_eq_getElem hk, Option.map_some, Option.some.injEq] at hcall
      subst hcall
      exact ⟨_, hturns.isSystem _ (List.getElem_mem hk), by simp⟩
    · rename_i hk
      obtain hnone | ⟨system, reply, hm, hone⟩ := hrest
      · rw [hnone] at hcall
        cases hcall
      · rw [hone] at hcall
        obtain ⟨hk', rfl⟩ := List.getElem?_eq_some_iff.mp hcall
        rw [List.take_of_length_le (by omega)]
        exact ⟨system, hm, by simp⟩
  · intro k turn hturn
    obtain ⟨hk, rfl⟩ := List.getElem?_eq_some_iff.mp hturn
    rw [hcalls, List.getElem?_append, List.length_mapIdx, if_pos hk, List.getElem?_mapIdx,
      List.getElem?_eq_getElem hk]
    exact ⟨_, rfl⟩

/-- Every call is sent, behind its system message, what the call before it was sent and two messages more. -/
theorem Transcript.grows (h : Transcript s t b seen turns) {c c' : List Message × Except BackendFault Text}
    (hc : (calls seen)[k]? = some c) (hc' : (calls seen)[k + 1]? = some c') :
    ∃ m m', c'.1.tail = c.1.tail ++ [m, m'] := by
  obtain ⟨system, -, hsent⟩ := h.sent k c hc
  obtain ⟨system', -, hsent'⟩ := h.sent (k + 1) c' hc'
  have hk : k < turns.length := by
    have := (List.getElem?_eq_some_iff.mp hc').1
    have := h.count.2
    omega
  refine ⟨assistant turns[k].reply, turns[k].response s, ?_⟩
  have htake : turns.take (k + 1) = turns.take k ++ [turns[k]] := List.take_succ_eq_append_getElem hk
  rw [hsent, hsent', htake, List.flatMap_append, List.flatMap_singleton]
  simp [Turn.said]

end Task

def Alternates (messages : List Message) : Prop :=
  ∀ (i : Nat) (m : Message), messages[i]? = some m → m.role = if i % 2 = 0 then "user" else "assistant"

theorem alternates_nil : Alternates [] := by
  intro i m h
  cases h

theorem Alternates.concat {messages : List Message} {m : Message} (h : Alternates messages)
    (hm : m.role = if messages.length % 2 = 0 then "user" else "assistant") : Alternates (messages ++ [m]) := by
  intro i m' hi
  rw [List.getElem?_append] at hi
  split at hi
  · exact h i m' hi
  · obtain ⟨hlt, rfl⟩ := List.getElem?_eq_some_iff.mp hi
    have hi : i = messages.length := by
      simp only [List.length_singleton] at hlt
      omega
    subst hi
    simpa using hm

namespace Task

variable {s : Setting} {t : Task} {turns : List Turn} {messages : List Message}

theorem role_response (turn : Turn) : (turn.response s).role = "user" := by
  unfold Turn.response
  split <;> rfl

/-- What is said in turns goes on behind a question. -/
theorem alternates_said (turns : List Turn) (h : Alternates messages) (hodd : messages.length % 2 = 1) :
    Alternates (messages ++ turns.flatMap (Turn.said s)) := by
  induction turns generalizing messages with
  | nil => simpa using h
  | cons turn rest ih =>
    have hassistant : Alternates (messages ++ [assistant turn.reply]) := h.concat (by rw [hodd]; rfl)
    have hboth : Alternates (messages ++ [assistant turn.reply] ++ [turn.response s]) := by
      refine hassistant.concat ?_
      rw [role_response, List.length_append, List.length_singleton, if_pos (by omega)]
    have hrest := ih hboth (by simp only [List.length_append, List.length_singleton]; omega)
    simpa [Turn.said] using hrest

variable [Host]

theorem Transcript.alternates {b : Bench} {seen : List Seen} (h : Transcript s t b seen turns)
    (hhistory : Alternates t.history) (heven : t.history.length % 2 = 0) {k : Nat}
    {c : List Message × Except BackendFault Text} (hc : (calls seen)[k]? = some c) : Alternates c.1.tail := by
  obtain ⟨system, -, hsent⟩ := h.sent k c hc
  have hquestion : Alternates (t.history ++ [user t.text]) := hhistory.concat (by rw [heven]; rfl)
  have hsaid := alternates_said (s := s) (turns.take k) hquestion
    (by rw [List.length_append, List.length_singleton]; omega)
  rw [hsent, List.tail_cons]
  simpa using hsaid

end Task

namespace Service

/-- What is asked of a conversation: a reset, or a task, with the bench that it found, what was seen of it and its
outcome. A task that was given up has none. -/
inductive Entry where
  | reset
  | task (t : Task) (start : Bench) (seen : List Seen) (outcome : Option (Except TaskFault TaskResult))

def Entry.isReset : Entry → Bool
  | .reset => true
  | _ => false

def Entry.pair : Entry → List Message
  | .task t _ _ (some (.ok r)) => [Task.user t.text, Task.assistant r.finalResponse]
  | _ => []

def sinceReset (entries : List Entry) : List Entry := (entries.reverse.takeWhile (!·.isReset)).reverse

def session (entries : List Entry) : List Message := (sinceReset entries).flatMap Entry.pair

section
variable {s : Setting} {entries : List Entry} {v : Service}

theorem session_reset (entries : List Entry) : session (entries ++ [.reset]) = [] := by
  simp [session, sinceReset, Entry.isReset]

theorem session_task (entries : List Entry) (t : Task) (b : Bench) (seen : List Seen)
    (outcome : Option (Except TaskFault TaskResult)) :
    session (entries ++ [.task t b seen outcome]) = session entries ++ Entry.pair (.task t b seen outcome) := by
  simp [session, sinceReset, Entry.isReset]

/-- In a session the two sides take turns, and the model has the last word. -/
theorem alternates_session (entries : List Entry) :
    Alternates (session entries) ∧ (session entries).length % 2 = 0 := by
  induction entries using List.reverseRecOn with
  | nil => exact ⟨alternates_nil, rfl⟩
  | append_singleton entries entry ih =>
    obtain ⟨halternates, heven⟩ := ih
    cases entry with
    | reset =>
      rw [session_reset]
      exact ⟨alternates_nil, rfl⟩
    | task t b seen outcome =>
      rw [session_task]
      cases outcome with
      | none => exact ⟨by simpa [Entry.pair] using halternates, by simpa [Entry.pair] using heven⟩
      | some result =>
        cases result with
        | error fault => exact ⟨by simpa [Entry.pair] using halternates, by simpa [Entry.pair] using heven⟩
        | ok r =>
          have hquestion : Alternates (session entries ++ [Task.user t.text]) :=
            halternates.concat (by rw [heven]; rfl)
          have hanswer : Alternates (session entries ++ [Task.user t.text] ++ [Task.assistant r.finalResponse]) := by
            refine hquestion.concat ?_
            rw [List.length_append, List.length_singleton, if_neg (by omega)]
            rfl
          refine ⟨by simpa [Entry.pair] using hanswer, ?_⟩
          simp only [Entry.pair, List.length_append, List.length_cons, List.length_nil]
          omega

/-- What a task leaves in the conversation is its pair. -/
theorem exchange_eq_pair (t : Task) (b : Bench) (seen : List Seen) (result : Except TaskFault TaskResult) :
    t.exchange result = Entry.pair (.task t b seen (some result)) := by
  cases result <;> rfl

theorem history_of_taskOf {request : TaskRequest} {t : Task} {b : Bench} (h : v.taskOf request = some (t, b)) :
    t.history = v.conversation := by
  obtain ⟨w, -, hw⟩ := Option.map_eq_some_iff.mp h
  cases hw
  rfl

variable [Host]

/-- A service whose conversation began empty, and what was asked of it since. Whatever else happens in between
leaves the conversation alone. -/
inductive Talk (s : Setting) : List Entry → Service → Prop
  | start {v : Service} (h : v.conversation = []) : Talk s [] v
  | reset {entries : List Entry} {v : Service} (provider : ProviderState) (h : Talk s entries v) :
      Talk s (entries ++ [.reset]) (v.answer s provider .reset).1
  | ended {entries : List Entry} {v : Service} {request : TaskRequest} {t : Task} {b e : Bench} {seen : List Seen}
      {result : Except TaskFault TaskResult} (h : Talk s entries v) (ht : v.taskOf request = some (t, b))
      (hw : Way (t.run s b) seen e (some result)) :
      Talk s (entries ++ [.task t b seen (some result)]) (v.after t e result)
  | givenUp {entries : List Entry} {v : Service} {request : TaskRequest} {t : Task} {b e : Bench} {seen : List Seen}
      (h : Talk s entries v) (ht : v.taskOf request = some (t, b)) (hw : Way (t.run s b) seen e none) :
      Talk s (entries ++ [.task t b seen none]) (v.during e)
  | meanwhile {entries : List Entry} {v v' : Service} (h : Talk s entries v)
      (hv : v'.conversation = v.conversation) : Talk s entries v'

theorem Talk.conversation_eq (h : Talk s entries v) : v.conversation = session entries := by
  induction h with
  | start h => exact h
  | reset provider h ih =>
    rw [session_reset]
    rfl
  | @ended entries v request t b e seen result h ht hw ih =>
    rw [session_task, ← exchange_eq_pair, ← ih]
    rfl
  | givenUp h ht hw ih =>
    rw [session_task, ← ih]
    exact (List.append_nil _).symm
  | meanwhile h hv ih => rw [hv, ih]

/-- Every task of a conversation was begun with what the conversation held then, on the bench of the service. -/
theorem Talk.began {before after : List Entry} {t : Task} {b : Bench} {seen : List Seen}
    {outcome : Option (Except TaskFault TaskResult)} (h : Talk s entries v)
    (he : entries = before ++ .task t b seen outcome :: after) :
    t.history = session before ∧
      (∃ v' request, Talk s before v' ∧ v'.taskOf request = some (t, b)) ∧ ∃ e, Way (t.run s b) seen e outcome := by
  induction h generalizing after with
  | start =>
    cases before <;> cases he
  | reset provider h ih =>
    rcases concat_eq_append_cons he with ⟨-, hx⟩ | ⟨after', he⟩
    · cases hx
    · exact ih he
  | ended h ht hw ih =>
    rcases concat_eq_append_cons he with ⟨rfl, hx⟩ | ⟨after', he⟩
    · cases hx
      exact ⟨(history_of_taskOf ht).trans h.conversation_eq, ⟨_, _, h, ht⟩, _, hw⟩
    · exact ih he
  | givenUp h ht hw ih =>
    rcases concat_eq_append_cons he with ⟨rfl, hx⟩ | ⟨after', he⟩
    · cases hx
      exact ⟨(history_of_taskOf ht).trans h.conversation_eq, ⟨_, _, h, ht⟩, _, hw⟩
    · exact ih he
  | meanwhile h hv ih => exact ih he

/-- The conversation is what was asked and answered since the last reset, and every call of a task is sent the
conversation before the task, the task, and all that was said in it so far, from the bench of the service on. -/
theorem Talk.transcript (h : Talk s entries v) :
    v.conversation = session entries ∧
      ∀ before t b seen outcome after, entries = before ++ .task t b seen outcome :: after →
        t.history = session before ∧
          (∃ v' request, Talk s before v' ∧ v'.taskOf request = some (t, b)) ∧
          ∃ turns, Task.Transcript s t b seen turns ∧
            (∀ k c c', (calls seen)[k]? = some c → (calls seen)[k + 1]? = some c' →
              ∃ m m', c'.1.tail = c.1.tail ++ [m, m']) ∧
            ∀ c ∈ calls seen, Alternates c.1.tail := by
  refine ⟨h.conversation_eq, fun before t b seen outcome after he => ?_⟩
  obtain ⟨hhistory, hbench, e, hw⟩ := h.began he
  obtain ⟨turns, htranscript⟩ := Task.run_transcript hw
  obtain ⟨halternates, heven⟩ := alternates_session before
  rw [← hhistory] at halternates heven
  refine ⟨hhistory, hbench, turns, htranscript, fun k c c' => htranscript.grows, fun c hc => ?_⟩
  obtain ⟨k, hk⟩ := List.getElem?_of_mem hc
  exact htranscript.alternates halternates heven hk

end

attribute [local instance] Host.usual

/-- A conversation of one task, in which a file was written and the model stalled. -/
theorem written_task_told :
    ∃ seen v r, Talk Task.bareSetting [.task ⟨"Go", [], none⟩ Task.emptyBench seen (some (.ok r))] v ∧
      v.conversation = [Task.user "Go", Task.assistant "Done."] ∧
      (calls seen).map (·.1.tail) =
        [[Task.user "Go"],
          [Task.user "Go", Task.assistant Task.writeReply,
            Task.toolResult "write_file" "Wrote 1 lines to a.txt"],
          [Task.user "Go", Task.assistant Task.writeReply, Task.toolResult "write_file" "Wrote 1 lines to a.txt",
            Task.assistant "Could you do it?", Task.user Prompt.stallCorrection]] ∧
      ∃ turns, Task.Transcript Task.bareSetting ⟨"Go", [], none⟩ Task.emptyBench seen turns := by
  obtain ⟨seen, e, r, hway, hanswer, -, -, hcalls⟩ := Task.way_write_stall_finish
  have hstart : Talk Task.bareSetting [] { closedDisk := .empty, opened := some Task.emptyBench.workspace } :=
    .start rfl
  have ht : taskOf { closedDisk := .empty, opened := some Task.emptyBench.workspace } { task := "Go" } =
      some (⟨"Go", [], none⟩, Task.emptyBench) := rfl
  have htalk := hstart.ended ht hway
  obtain ⟨hconversation, htasks⟩ := htalk.transcript
  obtain ⟨-, -, turns, htranscript, -⟩ := htasks [] _ _ _ _ [] rfl
  refine ⟨seen, _, r, htalk, ?_, hcalls, turns, htranscript⟩
  rw [hconversation, ← hanswer]
  rfl

end Service

end CodeAgent
