import CodeAgent.Agent.Task
import CodeAgent.Host.Usual
import CodeAgent.Proofs.Workspace.Listing

namespace CodeAgent

namespace Course

variable {α β : Type}

/-- A way through a course on which nobody else touches the workspace, with the messages of the calls of the model and
the value, if it was not cancelled. The model may reply anything, anything may come to the gate meanwhile, and any
shell may run a command. While it waits for the model or at the gate it may be given up. -/
inductive Alone : Course α → List (List Message) → Bench → Option α → Prop where
  | done {b : Bench} {a : α} : Alone (.done b a) [] b (some a)
  | tell {step : Step} {next : Course α} {asked : List (List Message)} {e : Bench} {v : Option α}
      (h : Alone next asked e v) : Alone (.tell step next) asked e v
  | askModel {b e : Bench} {messages : List Message} {next : Bench → Except BackendFault Text → Course α}
      {asked : List (List Message)} {v : Option α} (gate : Gate) (reply : Except BackendFault Text)
      (h : Alone (next { b with gate } reply) asked e v) : Alone (.askModel b messages next) (messages :: asked) e v
  | unanswered {b : Bench} {messages : List Message} {next : Bench → Except BackendFault Text → Course α} :
      Alone (.askModel b messages next) [messages] b none
  | awaitApproval {b e : Bench} {n : Nat} {next : Bench → Course α} {asked : List (List Message)} {v : Option α}
      (gate : Gate) (h : Alone (next { b with gate }) asked e v) : Alone (.awaitApproval b n next) asked e v
  | undecided {b : Bench} {n : Nat} {next : Bench → Course α} : Alone (.awaitApproval b n next) [] b none
  | run {s : Setting} {b e : Bench} {command : Text} {next : Bench → Except ToolFault CommandResult → Course α}
      {asked : List (List Message)} {v : Option α} (shell : Shell)
      (h : Alone (next (b.runCommand { s with shell } command).1 (b.runCommand { s with shell } command).2) asked e v) :
      Alone (.run s b command next) asked e v
  | cancelled {b : Bench} : Alone (.cancelled b) [] b none

variable {asked : List (List Message)} {e : Bench}

/-- Such a way through two courses in a row goes through the first to its value, or is cancelled in it. -/
theorem Alone.of_bind {c : Course α} {f : Bench → α → Course β} {v : Option β} (h : Alone (c.bind f) asked e v) :
    (∃ first b a rest, Alone c first b (some a) ∧ Alone (f b a) rest e v ∧ asked = first ++ rest) ∨
      v = none ∧ Alone c asked e none := by
  induction c generalizing asked with
  | done b a => exact Or.inl ⟨[], b, a, asked, .done, h, rfl⟩
  | tell step next ih =>
    cases h with
    | tell h =>
      rcases ih h with ⟨first, b, a, rest, hfirst, hrest, rfl⟩ | ⟨hv, hnext⟩
      · exact Or.inl ⟨_, b, a, rest, .tell hfirst, hrest, rfl⟩
      · exact Or.inr ⟨hv, .tell hnext⟩
  | askModel b messages next ih =>
    cases h with
    | askModel gate reply h =>
      rcases ih _ _ h with ⟨first, b, a, rest, hfirst, hrest, rfl⟩ | ⟨hv, hnext⟩
      · exact Or.inl ⟨_, b, a, rest, .askModel gate reply hfirst, hrest, rfl⟩
      · exact Or.inr ⟨hv, .askModel gate reply hnext⟩
    | unanswered => exact Or.inr ⟨rfl, .unanswered⟩
  | awaitApproval b n next ih =>
    cases h with
    | awaitApproval gate h =>
      rcases ih _ h with ⟨first, b, a, rest, hfirst, hrest, rfl⟩ | ⟨hv, hnext⟩
      · exact Or.inl ⟨_, b, a, rest, .awaitApproval gate hfirst, hrest, rfl⟩
      · exact Or.inr ⟨hv, .awaitApproval gate hnext⟩
    | undecided => exact Or.inr ⟨rfl, .undecided⟩
  | run s b command next ih =>
    cases h with
    | run shell h =>
      rcases ih _ _ h with ⟨first, b, a, rest, hfirst, hrest, rfl⟩ | ⟨hv, hnext⟩
      · exact Or.inl ⟨_, b, a, rest, .run shell hfirst, hrest, rfl⟩
      · exact Or.inr ⟨hv, .run shell hnext⟩
  | cancelled b =>
    cases h with
    | cancelled => exact Or.inr ⟨rfl, .cancelled⟩

/-- A script with decisions goes such a way. -/
theorem alone_drive (c : Course α) (script : Script) (before : List (List Message)) (decisions : List Bool) :
    ∃ asked, Alone c asked (c.drive script before decisions).bench (c.drive script before decisions).value ∧
      (c.drive script before decisions).calls = before ++ asked := by
  induction c generalizing before decisions with
  | done b a => exact ⟨[], .done, (List.append_nil before).symm⟩
  | tell step next ih =>
    obtain ⟨asked, halone, hcalls⟩ := ih before decisions
    exact ⟨asked, .tell halone, hcalls⟩
  | askModel b messages next ih =>
    obtain ⟨asked, halone, hcalls⟩ := ih b (script before messages) (before ++ [messages]) decisions
    exact ⟨messages :: asked, .askModel b.gate _ halone, by rw [drive, hcalls]; simp⟩
  | awaitApproval b n next ih =>
    obtain ⟨asked, halone, hcalls⟩ := ih _ before decisions.tail
    exact ⟨asked, .awaitApproval _ halone, hcalls⟩
  | run s b command next ih =>
    obtain ⟨asked, halone, hcalls⟩ := ih _ _ before decisions
    exact ⟨asked, .run s.shell halone, hcalls⟩
  | cancelled b => exact ⟨[], .cancelled, (List.append_nil before).symm⟩

end Course

open Course (Alone)
open Workspace (Deed)

namespace Bench

variable {s : Setting} {b e : Bench} {command : Text} {iteration : Option Nat} {asked : List (List Message)}
  {v : Option (Except BackendFault Text)} {i : Invocation}

variable [Host]

/-- After the verdict a command that is done alone leaves what its tool leaves, or nothing at all. -/
theorem alone_afterVerdict {verdict : Option Approval}
    (h : Alone (afterVerdict s command iteration b verdict) asked e v) :
    asked = [] ∧ e.workspace.root = b.workspace.root ∧ Deed b.workspace (.runCommand command) v e.workspace := by
  unfold afterVerdict at h
  split at h
  · cases h with
    | tell h =>
      cases h with
      | run shell h =>
        cases h with
        | done => exact ⟨rfl, Workspace.perform_deed { s with shell } b.workspace (.runCommand command)⟩
  · cases h with
    | done => exact ⟨rfl, rfl, .refreshed rfl rfl⟩
  · cases h with
    | done => exact ⟨rfl, rfl, .kept rfl rfl⟩
  · cases h with
    | cancelled => exact ⟨rfl, rfl, .kept rfl rfl⟩

theorem execute_performs (h : i.kind ≠ .runCommand) :
    b.execute s (.valid i) iteration = .done (b.perform s i).1 (b.perform s i).2 := by
  cases i with
  | runCommand command => exact absurd rfl h
  | _ => rfl

/-- What a call leaves that nobody else interferes with. -/
theorem alone_execute (h : Alone (b.execute s (.valid i) iteration) asked e v) :
    asked = [] ∧ e.workspace.root = b.workspace.root ∧ Deed b.workspace i v e.workspace := by
  by_cases hk : i.kind = .runCommand
  · cases i with
    | runCommand command =>
      unfold execute Bench.command at h
      cases h with
      | tell h =>
        dsimp only at h
        split at h
        · cases h with
          | awaitApproval gate h => exact alone_afterVerdict (b := { b with gate }) h
          | undecided => exact ⟨rfl, rfl, .kept rfl rfl⟩
        · exact alone_afterVerdict (b := { b with gate := b.gate.request command }) h
    | _ => cases hk
  · rw [execute_performs hk] at h
    cases h with
    | done => exact ⟨rfl, Workspace.perform_deed s b.workspace i⟩

end Bench

namespace Task

variable {s : Setting} {t : Task} {b b' e : Bench} {w w' w'' : Workspace} {p : TaskProgress}
  {v : Option (Except TaskFault TaskResult)} {asked : List (List Message)}

/-- A message that tells the state of a project with a list of its files. -/
def Tells (m : Message) (listing : Text) : Prop :=
  ∃ found rest, m = ⟨"system", Prompt.systemMessage (some (Text.joinWith "\n\n" (found :: listing :: rest)))⟩

/-- To write the system message the workspace at most lists its files. -/
theorem systemMessage_workspace {m : Except DiskFault Message} (h : t.systemMessage s b = (b', m)) :
    b'.workspace = (b.workspace.manifest s).1 := by
  have hstatus : (b.workspace.projectStatus s t.activeFile).1 = (b.workspace.manifest s).1 := by
    unfold Workspace.projectStatus
    dsimp only
    split
    · split <;> rfl
    · rfl
  rw [← hstatus]
  rw [systemMessage] at h
  split at h
  all_goals
    rename_i hw
    cases h
    rw [hw]

/-- The system message has the list of files in it. -/
theorem tells_systemMessage {system : Message} (h : t.systemMessage s b = (b', .ok system)) :
    Tells system (b.workspace.manifest s).2 := by
  rw [systemMessage] at h
  split at h
  · rename_i w status hstatus
    cases h
    unfold Workspace.projectStatus at hstatus
    dsimp only at hstatus
    split at hstatus
    · split at hstatus
      · cases hstatus
        exact ⟨_, _, rfl⟩
      · cases hstatus
    · cases hstatus
      exact ⟨_, _, rfl⟩
  · cases h

theorem systemMessage_ok {s : Setting} {t : Task} (h : t.activeFile = none) (b : Bench) :
    ∃ system, t.systemMessage s b = ({ b with workspace := (b.workspace.manifest s).1 }, .ok system) := by
  obtain ⟨text, history, activeFile⟩ := t
  cases h
  exact ⟨_, rfl⟩

/-- One call of the model: what its message was made of, the message, the tool call that was executed then with its
observation, if there was one, and what was left. -/
structure Round where
  asked : Workspace
  system : Message
  call? : Option (Invocation × Option (Except BackendFault Text))
  left : Workspace

section

variable [Host]

/-- What makes a round of a task. Any shell may run its commands. -/
inductive Round.Holds (s : Setting) (t : Task) : Round → Prop where
  | idle {b b' : Bench} {system : Message} (hm : t.systemMessage s b = (b', .ok system)) :
      Holds s t ⟨b.workspace, system, none, b'.workspace⟩
  | acted {b b' c e : Bench} {system : Message} {i : Invocation} {iteration : Option Nat}
      {asked : List (List Message)} {v : Option (Except BackendFault Text)} (shell : Shell)
      (hm : t.systemMessage s b = (b', .ok system)) (hc : c.workspace = b'.workspace)
      (hx : Alone (c.execute { s with shell } (.valid i) iteration) asked e v) :
      Holds s t ⟨b.workspace, system, some (i, v), e.workspace⟩

/-- The rounds of some tasks in a row, from a workspace to what they leave of it. -/
inductive Rounds (s : Setting) : Workspace → List Round → Workspace → Prop where
  | nil (w : Workspace) : Rounds s w [] w
  | unasked {b b' : Bench} {fault : DiskFault} {rounds : List Round} {w : Workspace} (t : Task)
      (hm : t.systemMessage s b = (b', .error fault)) (rest : Rounds s b'.workspace rounds w) :
      Rounds s b.workspace rounds w
  | cons {r : Round} {rounds : List Round} {w : Workspace} (t : Task) (h : r.Holds s t)
      (rest : Rounds s r.left rounds w) : Rounds s r.asked (r :: rounds) w

theorem Rounds.append {rounds rounds' : List Round} (h : Rounds s w rounds w') (h' : Rounds s w' rounds' w'') :
    Rounds s w (rounds ++ rounds') w'' := by
  induction h with
  | nil => exact h'
  | unasked t hm _ ih => exact .unasked t hm (ih h')
  | cons t hr _ ih => exact .cons t hr (ih h')

/-- There are rounds from a workspace to another in which the model was asked with these messages. -/
def Rounded (s : Setting) (w : Workspace) (asked : List (List Message)) (w' : Workspace) : Prop :=
  ∃ rounds, Rounds s w rounds w' ∧ asked.map List.head? = rounds.map fun r => some r.system

variable {c : Bench} {system : Message} {messages : List Message} {reply : Text} {call : ToolCall}
  {next : Bench → TaskProgress → Course (Except TaskFault TaskResult)}

theorem rounded_nil (s : Setting) (w : Workspace) : Rounded s w [] w := ⟨[], .nil w, rfl⟩

theorem rounded_idle (hm : t.systemMessage s b = (b', .ok system)) (h : Rounded s b'.workspace asked w) :
    Rounded s b.workspace ((system :: messages) :: asked) w := by
  obtain ⟨rounds, hrounds, hasked⟩ := h
  exact ⟨_, .cons t (.idle hm) hrounds, congrArg (some system :: ·) hasked⟩

/-- One round of a call, and the rounds of what goes on after it. -/
theorem rounded_act (hnext : ∀ {b p asked}, Alone (next b p) asked e v → Rounded s b.workspace asked e.workspace)
    (hm : t.systemMessage s b = (b', .ok system)) (hc : c.workspace = b'.workspace)
    (h : Alone (act s p c reply call next) asked e v) :
    Rounded s b.workspace ((system :: messages) :: asked) e.workspace := by
  cases h with
  | tell h =>
    cases call with
    | invalid call =>
      cases h with
      | tell h => exact rounded_idle hm (hc ▸ hnext h)
    | valid i =>
      rcases h.of_bind with ⟨first, d, observation, rest, hfirst, hrest, rfl⟩ | ⟨-, hcancelled⟩
      · have hround := Round.Holds.acted s.shell hm hc hfirst
        obtain ⟨rfl, -⟩ := Bench.alone_execute hfirst
        cases observation with
        | error fault =>
          cases hrest with
          | done => exact ⟨_, .cons t hround (.nil _), rfl⟩
        | ok observation =>
          cases hrest with
          | tell hrest =>
            obtain ⟨rounds, hrounds, hasked⟩ := hnext hrest
            exact ⟨_, .cons t hround hrounds, congrArg (some system :: ·) hasked⟩
      · have hround := Round.Holds.acted s.shell hm hc hcancelled
        obtain ⟨rfl, -⟩ := Bench.alone_execute hcancelled
        exact ⟨_, .cons t hround (.nil _), rfl⟩

/-- A reply that is considered is one round more. -/
theorem rounded_consider
    (hnext : ∀ {b p asked}, Alone (next b p) asked e v → Rounded s b.workspace asked e.workspace)
    (hm : t.systemMessage s b = (b', .ok system)) (hc : c.workspace = b'.workspace)
    (h : Alone (consider s p c reply next) asked e v) :
    Rounded s b.workspace ((system :: messages) :: asked) e.workspace := by
  unfold consider at h
  dsimp only at h
  split at h
  · cases h with
    | done => exact rounded_idle hm (hc ▸ rounded_nil s e.workspace)
  · exact rounded_act hnext hm hc h
  · split at h
    · exact rounded_idle hm (hc ▸ hnext h)
    · cases h with
      | done => exact rounded_idle hm (hc ▸ rounded_nil s e.workspace)

/-- However many iterations are left, the workspaces go on round by round. -/
theorem rounded_iterations {left : Nat} (h : Alone (iterations s t left b p) asked e v) :
    Rounded s b.workspace asked e.workspace := by
  induction left generalizing b p asked with
  | zero =>
    cases h with
    | done => exact rounded_nil s _
  | succ n ih =>
    unfold iterations at h
    split at h
    · rename_i b' fault hm
      cases h with
      | done => exact ⟨[], .unasked t hm (.nil _), rfl⟩
    · rename_i b' system hm
      cases h with
      | askModel gate reply h =>
        cases reply with
        | error fault =>
          cases h with
          | done => exact rounded_idle hm (rounded_nil s _)
        | ok reply =>
          refine rounded_consider (c := { b' with gate }) ?_ hm rfl h
          exact ih
      | unanswered => exact rounded_idle hm (rounded_nil s _)

/-- A driven iteration in which a call is executed that waits for nobody. -/
theorem drive_acted {script : Course.Script} {before : List (List Message)} {n : Nat} {observation : Text}
    (decisions : List Bool) (hm : t.systemMessage s b = (b', .ok system))
    (hreply : script before (system :: t.history ++ p.turns) = .ok reply)
    (hc : Reply.toolCall? reply = .ok (some call))
    (hx : b'.execute s call (some (p.iteration + 1)) = .done c (.ok observation)) :
    ∃ p', let rest := (iterations s t n c p').drive script (before ++ [system :: t.history ++ p.turns]) decisions
      ((iterations s t (n + 1) b p).drive script before decisions).bench = rest.bench ∧
        ((iterations s t (n + 1) b p).drive script before decisions).calls = rest.calls := by
  rw [iterations, hm]
  simp only [Course.drive, hreply, consider, hc, act, hx, Course.bind]
  exact ⟨_, rfl, rfl⟩

/-- A driven iteration that ends the task. -/
theorem drive_finished {script : Course.Script} {before : List (List Message)} {n : Nat} (decisions : List Bool)
    (hm : t.systemMessage s b = (b', .ok system))
    (hreply : script before (system :: t.history ++ p.turns) = .ok reply)
    (hc : Reply.toolCall? reply = .ok none) (hs : Prompt.isStalling reply = false) :
    ((iterations s t (n + 1) b p).drive script before decisions).bench = b' ∧
      ((iterations s t (n + 1) b p).drive script before decisions).calls =
        before ++ [system :: t.history ++ p.turns] := by
  rw [iterations, hm]
  simp only [Course.drive, hreply, consider, hc, hs]
  exact ⟨rfl, rfl⟩

/-- Tasks in a row on a workspace that nobody else touches, with the messages of all calls of the model. -/
inductive Tasks (s : Setting) : Workspace → List (List Message) → Workspace → Prop where
  | nil (w : Workspace) : Tasks s w [] w
  | cons {w w' : Workspace} {asked asked' : List (List Message)} {e : Bench} {v : Option (Except TaskFault TaskResult)}
      (t : Task) (gate : Gate) (h : Alone (t.run s ⟨w, gate⟩) asked e v) (rest : Tasks s e.workspace asked' w') :
      Tasks s w (asked ++ asked') w'

theorem rounded_tasks (h : Tasks s w asked w') : Rounded s w asked w' := by
  induction h with
  | nil w => exact rounded_nil s w
  | cons t gate h _ ih =>
    obtain ⟨rounds, hrounds, hasked⟩ := rounded_iterations h
    obtain ⟨rest, hrest, hmore⟩ := ih
    exact ⟨rounds ++ rest, hrounds.append hrest, by rw [List.map_append, List.map_append, hasked, hmore]⟩

namespace Round

/-- The call of the round has failed and has changed the list of files. -/
def Slips (s : Setting) (r : Round) : Prop :=
  ∃ i v, r.call? = some (i, v) ∧ Workspace.Slips s r.asked i v r.left

/-- The call of the round has run a command of the configuration, and that has changed the list of files. -/
def Overlooks (s : Setting) (r : Round) : Prop :=
  ∃ i v, r.call? = some (i, v) ∧ i.configured = true ∧ r.left.listed s ≠ r.asked.listed s

variable {r : Round}

theorem Holds.tells (h : r.Holds s t) : Tells r.system (r.asked.manifest s).2 := by
  cases h with
  | idle hm => exact tells_systemMessage hm
  | acted shell hm hc hx => exact tells_systemMessage hm

/-- After a round in which the list was current and that does not slip it is so again, unless something was
overlooked. -/
theorem Holds.upToDate_iff (h : r.Holds s t) (hcur : r.asked.UpToDate s) (hs : ¬ r.Slips s) :
    r.left.UpToDate s ↔ ¬ r.Overlooks s := by
  cases h with
  | idle hm =>
    rw [systemMessage_workspace hm]
    refine ⟨fun _ => ?_, fun _ => Workspace.manifest_upToDate_iff.mpr hcur⟩
    rintro ⟨i, v, ⟨⟩, -⟩
  | @acted b b' c e system i iteration asked v shell hm hc hx =>
    obtain ⟨-, hroot, hdeed⟩ := Bench.alone_execute hx
    rw [hc, systemMessage_workspace hm] at hroot hdeed
    have hlisted := Workspace.manifest_listed s b.workspace
    have htold : (b.workspace.manifest s).1.listing = some ((b.workspace.manifest s).1.listed s) := by
      rw [(Workspace.manifest_keeps s b.workspace).2.2, hlisted, hcur]
    have hslips : ¬ Workspace.Slips s (b.workspace.manifest s).1 i v e.workspace := fun hslip =>
      hs ⟨i, v, rfl, hslip.1, hslip.2.1, hslip.2.2.1, hlisted ▸ hslip.2.2.2⟩
    rw [hdeed.upToDate_iff hroot htold hslips, hlisted]
    constructor
    · rintro hkept ⟨i, v, ⟨⟩, hi, hne⟩
      exact hne (hkept hi)
    · intro hnone hi
      by_contra hne
      exact hnone ⟨i, v, rfl, hi, hne⟩

end Round

theorem Rounds.tells {rounds : List Round} (h : Rounds s w rounds w') :
    ∀ r ∈ rounds, Tells r.system (r.asked.manifest s).2 := by
  induction h with
  | nil => exact fun r hr => absurd hr List.not_mem_nil
  | unasked _ _ _ ih => exact ih
  | cons t h _ ih => exact List.forall_mem_cons.mpr ⟨h.tells, ih⟩

/-- The lists that are told in a row of rounds without a slip, and the one that would be told next, are the lists of the
files that are there, if the first is and nothing is overlooked, and only then. -/
theorem Rounds.upToDate_iff {rounds : List Round} (h : Rounds s w rounds w') (hs : ∀ r ∈ rounds, ¬ r.Slips s) :
    (∀ r ∈ rounds, r.asked.UpToDate s) ∧ w'.UpToDate s ↔ w.UpToDate s ∧ ∀ r ∈ rounds, ¬ r.Overlooks s := by
  induction h with
  | nil => simp
  | unasked t hm _ ih =>
    rw [ih hs, systemMessage_workspace hm, Workspace.manifest_upToDate_iff]
  | @cons r rounds w t h _ ih =>
    obtain ⟨hslip, hslips⟩ := List.forall_mem_cons.mp hs
    rw [List.forall_mem_cons, List.forall_mem_cons, and_assoc, ih hslips, ← and_assoc, ← and_assoc]
    refine and_congr_left fun _ => and_congr_right fun hcur => h.upToDate_iff hcur hslip

/-- On an opened workspace that nobody else touches, every message to the model in the rounds of some tasks tells the
list of the files that are there then, as long as no failing tool has changed it and no command of the configuration
has. Such a command, however, leaves the list that was told before. -/
theorem told_upToDate {w₀ : Workspace} (hopen : w₀.open_ s = (w, .ok ())) :
    (∀ asked w', Tasks s w asked w' → Rounded s w asked w') ∧
      ∀ rounds w', Rounds s w rounds w' →
        (∀ r ∈ rounds, Tells r.system (r.asked.manifest s).2) ∧
          ((∀ r ∈ rounds, ¬ r.Slips s) →
            ((∀ r ∈ rounds, (r.asked.manifest s).2 = r.asked.listed s) ∧ (w'.manifest s).2 = w'.listed s ↔
              ∀ r ∈ rounds, ¬ r.Overlooks s)) := by
  refine ⟨fun _ _ => rounded_tasks, fun rounds w' h => ⟨h.tells, fun hs => ?_⟩⟩
  have hcur : w.UpToDate s := Workspace.upToDate_of_none (Workspace.open_listing hopen)
  exact (h.upToDate_iff hs).trans (and_iff_right hcur)

end

attribute [local instance] Host.usual

def testsDisk : Disk := ⟨[(["w"], .directory), (["w", "tests"], .directory)]⟩

def reportMade : Disk := testsDisk.put ["w", "report.txt"] (.file [])

def testsSetting : Setting where
  config := Config.default
  home := ⟨"/", ["h"]⟩
  directory := ⟨"/", ["w"]⟩
  shell := fun _ _ _ _ => ⟨reportMade, some 0, [], []⟩

def testsProject : Workspace := { disk := testsDisk, root := ⟨"/", ["w"]⟩, graph := { root := ⟨"/", ["w"]⟩ } }

theorem open_testsProject : testsProject.open_ testsSetting = (testsProject, .ok ()) := by cbv

/-- The report of a command that the agent runs itself is told in the next message. -/
theorem report_told : testsProject.open_ testsSetting = (testsProject, .ok ()) ∧
    ∃ r w', Rounds testsSetting testsProject [r] w' ∧ w'.disk = reportMade ∧
      (w'.manifest testsSetting).2 = w'.listed testsSetting := by
  obtain ⟨first, hfirst⟩ := systemMessage_ok (s := testsSetting)
      (t := ⟨"Run the tests.", [], none⟩) rfl ⟨testsProject, {}⟩
  let told : Bench := ⟨(testsProject.manifest testsSetting).1, {}⟩
  let left : Bench := ⟨{ testsProject with disk := reportMade }, { requests := [.finished (.decided true)] }⟩
  have hexecuted : ∃ observation, Alone (told.execute testsSetting (.valid (.runCommand "pytest")) none) [] left
      (some (.ok observation)) :=
    ⟨_, .tell (.awaitApproval { requests := [.finished (.decided true)] } (.tell (.run testsSetting.shell .done)))⟩
  obtain ⟨observation, hexecuted⟩ := hexecuted
  have hround := Round.Holds.acted testsSetting.shell hfirst rfl hexecuted
  have hrounds := Rounds.cons _ hround (.nil _)
  have hupToDate := ((told_upToDate open_testsProject).2 _ _ hrounds).2
  refine ⟨open_testsProject, _, _, hrounds, rfl, ((hupToDate ?_).mpr ?_).2⟩
  · rintro r hr ⟨i, v, hcall, -, hkind, -⟩
    obtain rfl := List.mem_singleton.mp hr
    cases hcall
    exact hkind rfl
  · rintro r hr ⟨i, v, hcall, hi, -⟩
    obtain rfl := List.mem_singleton.mp hr
    cases hcall
    cases hi

def runsTests : Course.Script
  | [], _ => .ok "\x7b\"tool\": \"run_tests\"\x7d"
  | _, _ => .ok "Done."

/-- Tests that write a report are not followed by a fresh list of files. -/
theorem report_overlooked :
    Workspace.make testsSetting testsDisk "/w" = .ok testsProject ∧
    testsProject.open_ testsSetting = (testsProject, .ok ()) ∧
    let r := ((⟨"Run the tests.", [], none⟩ : Task).run testsSetting ⟨testsProject, {}⟩).drive runsTests [] []
    ∃ first second, r.calls.map List.head? = [some first, some second] ∧
      Tells second (testsProject.listed testsSetting) ∧
      testsProject.listed testsSetting ≠ r.bench.workspace.listed testsSetting := by
  let t : Task := ⟨"Run the tests.", [], none⟩
  let told : Workspace := { testsProject with listing := some (testsProject.listed testsSetting) }
  let left : Workspace := { told with disk := reportMade }
  refine ⟨by cbv, open_testsProject, ?_⟩
  obtain ⟨first, hfirst⟩ := systemMessage_ok (s := testsSetting) (t := t) rfl ⟨testsProject, {}⟩
  obtain ⟨second, hsecond⟩ := systemMessage_ok (s := testsSetting) (t := t) rfl ⟨left, {}⟩
  have htells := tells_systemMessage hsecond
  change t.systemMessage testsSetting ⟨testsProject, {}⟩ = (⟨told, {}⟩, .ok first) at hfirst
  change t.systemMessage testsSetting ⟨left, {}⟩ = (⟨left, {}⟩, .ok second) at hsecond
  obtain ⟨n, hlimit⟩ : ∃ n, (testsSetting.config.int .agentMaxIterations).toNat = n + 1 + 1 := ⟨18, rfl⟩
  have hcall : Reply.toolCall? "\x7b\"tool\": \"run_tests\"\x7d" = .ok (some (.valid .runTests)) := by cbv
  have hdone : Reply.toolCall? "Done." = .ok none := by cbv
  have hrun : (⟨told, {}⟩ : Bench).execute testsSetting (.valid .runTests) (some 1) =
      .done ⟨left, {}⟩ (.ok "Tests passed.") := rfl
  have hreply : runsTests [] (first :: t.history ++ [user t.text]) = .ok "\x7b\"tool\": \"run_tests\"\x7d" := rfl
  obtain ⟨p, hbench, hcalls⟩ :=
    drive_acted (n := n + 1) (p := { turns := [user t.text] }) [] hfirst hreply hcall hrun
  have hcontent : runsTests ([] ++ [first :: t.history ++ [user t.text]]) (second :: t.history ++ p.turns) =
      .ok "Done." := rfl
  obtain ⟨hlast, hasked⟩ := drive_finished (n := n) [] hsecond hcontent hdone (by cbv)
  rw [hlast] at hbench
  rw [hasked] at hcalls
  refine ⟨first, second, ?_, htells, ?_⟩
  · rw [run, hlimit, hcalls]
    rfl
  · rw [run, hlimit, hbench]
    intro hsame
    have hshorter : (testsProject.listed testsSetting).length < (left.listed testsSetting).length := by cbv
    exact absurd (congrArg List.length hsame) hshorter.ne

/-- A file is made before its text turns out to have no bytes: the call fails, and the list without the file is kept. -/
theorem half_written_kept : ∃ r w', Rounds testsSetting testsProject [r] w' ∧ r.Slips testsSetting ∧
    (w'.manifest testsSetting).2 ≠ w'.listed testsSetting := by
  obtain ⟨first, hfirst⟩ := systemMessage_ok (s := testsSetting) (t := ⟨"Write.", [], none⟩) rfl ⟨testsProject, {}⟩
  let told : Workspace := { testsProject with listing := some (testsProject.listed testsSetting) }
  let made : Workspace := { told with disk := testsDisk.put ["w", "a.txt"] (.file []) }
  let i : Invocation := .writeFile "a.txt" [⟨0xD800, by decide⟩]
  have hlonger : (testsProject.listed testsSetting).length < (made.listed testsSetting).length := by cbv
  have hstale : testsProject.listed testsSetting ≠ made.listed testsSetting := fun hsame =>
    absurd (congrArg List.length hsame) hlonger.ne
  obtain ⟨fault, hperformed⟩ : ∃ fault, told.perform testsSetting i = (made, .error (.disk fault)) := ⟨_, rfl⟩
  have hexecuted : Alone ((⟨told, {}⟩ : Bench).execute testsSetting (.valid i) none) [] ⟨made, {}⟩
      (some (.ok (FileTool.failureMark i.kind ++ (ToolFault.disk fault).message))) := by
    rw [Bench.execute_performs (by decide), Bench.perform]
    dsimp only
    rw [hperformed, Workspace.conclude_fault fun f hf => by cases hf]
    exact .done
  have hround := Round.Holds.acted testsSetting.shell hfirst rfl hexecuted
  exact ⟨_, made, .cons _ hround (.nil _), ⟨i, _, rfl, rfl, by decide, ⟨_, rfl⟩, hstale.symm⟩, hstale⟩

end Task

end CodeAgent
