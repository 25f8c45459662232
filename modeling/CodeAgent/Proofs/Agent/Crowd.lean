import CodeAgent.Agent.Crowd
import CodeAgent.Proofs.Command.Gate

namespace CodeAgent

def Event.subject : Event → Nat
  | .told i _ | .asked i _ | .refused i | .withdrawn i | .ran i _ => i
  | .decided n _ _ => n

def Event.decides (n : Nat) : Event → Bool
  | .decided m _ _ => m = n
  | _ => false

def Event.runs (i : Nat) : Event → Bool
  | .ran j _ => j = i
  | _ => false

namespace Crowd

def seenOf (log : List Event) (i : Nat) : List Event := log.filter fun e => e.subject = i

theorem seenOf_append (log events : List Event) (i : Nat) :
    seenOf (log ++ events) i = seenOf log i ++ seenOf events i := List.filter_append _ _

theorem seenOf_all {events : List Event} {i : Nat} (h : ∀ e ∈ events, e.subject = i) :
    seenOf events i = events := List.filter_eq_self.mpr (by simpa using h)

theorem seenOf_none {events : List Event} {i : Nat} (h : ∀ e ∈ events, e.subject ≠ i) :
    seenOf events i = [] := List.filter_eq_nil_iff.mpr (by simpa using h)

def pastApproval (s : Setting) (command : Text) (iteration : Option Nat) (n : Nat) (b : Bench) :
    Course Observation :=
  Bench.afterVerdict s command iteration b b.gate.requests[n]?

/-- All that can ever be seen of one invocation. -/
inductive History (i : Nat) : List Event → Prop
  | asked (c : Text) (it : Option Nat) : History i [.told i (Bench.askingStep c it), .asked i i]
  | decided (c : Text) (it : Option Nat) (approved : Bool) :
      History i [.told i (Bench.askingStep c it), .asked i i, .decided i c approved]
  | withdrawn (c : Text) (it : Option Nat) :
      History i [.told i (Bench.askingStep c it), .asked i i, .withdrawn i]
  | refused (c : Text) (it : Option Nat) : History i [.told i (Bench.askingStep c it), .refused i]
  | ran (c : Text) (it : Option Nat) :
      History i [.told i (Bench.askingStep c it), .asked i i, .decided i c true,
        .told i (Bench.executingStep c it), .ran i c]

def Ended : Course Observation → Prop
  | .done _ _ | .cancelled _ => True
  | _ => False

/-- How the history of an invocation, its request and its stop belong together. -/
inductive Account (i : Nat) : List Event → Option Approval → Course Observation → Prop
  | waiting (s : Setting) (b : Bench) (c : Text) (it : Option Nat) :
      Account i [.told i (Bench.askingStep c it), .asked i i] (some (.waiting c))
        (.awaitApproval b i (pastApproval s c it i))
  | decided (s : Setting) (b : Bench) (c : Text) (it : Option Nat) (approved : Bool) :
      Account i [.told i (Bench.askingStep c it), .asked i i, .decided i c approved]
        (some (.settled c (.decided approved))) (.awaitApproval b i (pastApproval s c it i))
  | givenUp (s : Setting) (b : Bench) (c : Text) (it : Option Nat) {h : List Event} (seen : History i h) :
      Account i h (some (.settled c .cancelled)) (.awaitApproval b i (pastApproval s c it i))
  | running (s : Setting) (b : Bench) (c : Text) {h : List Event} {a : Option Approval}
      {next : Bench → Except ToolFault CommandResult → Course Observation} (seen : History i h)
      (free : ∀ c, a ≠ some (.waiting c)) (ends : ∀ b r, ∃ b' o, next b r = .done b' o ∧ b'.gate = b.gate) :
      Account i h a (.run s b c next)
  | ended {h : List Event} {a : Option Approval} {stop : Course Observation} (seen : History i h)
      (free : ∀ c, a ≠ some (.waiting c)) (ends : Ended stop) : Account i h a stop

theorem Account.history {i : Nat} {h : List Event} {a : Option Approval} {stop : Course Observation}
    (hacc : Account i h a stop) : History i h := by
  cases hacc with
  | waiting s b c it => exact .asked c it
  | decided s b c it approved => exact .decided c it approved
  | givenUp s b c it seen => exact seen
  | running s b c seen => exact seen
  | ended seen => exact seen

theorem Account.ended_arrival {i : Nat} {h : List Event} {a : Option Approval} {stop : Course Observation}
    (seen : History i h) (free : ∀ c, a ≠ some (.waiting c)) (ends : Ended stop) :
    Account i (h ++ (([] : List Step).map (.told i) ++ arrival i stop)) a stop := by
  have hnone : arrival i stop = [] := by
    cases stop with
    | done b o => rfl
    | cancelled b => rfl
    | tell _ _ => exact ends.elim
    | askModel _ _ _ => exact ends.elim
    | awaitApproval _ _ _ => exact ends.elim
    | run _ _ _ _ => exact ends.elim
  rw [hnone, List.map_nil, List.append_nil, List.append_nil]
  exact .ended seen free ends

/-- An invocation that waits is undecided, or it has a verdict that only an approval makes a run of. -/
theorem Account.of_await {i : Nat} {h : List Event} {a : Option Approval} {b : Bench} {n : Nat}
    {next : Bench → Course Observation} (hacc : Account i h a (.awaitApproval b n next)) :
    ∃ s c it, n = i ∧ next = pastApproval s c it i ∧
      (a = some (.waiting c) ∧ h = [.told i (Bench.askingStep c it), .asked i i] ∨
        ∃ v, a = some (.settled c v) ∧
          (h = [.told i (Bench.askingStep c it), .asked i i, .decided i c true] ∨
            History i h ∧ v ≠ .decided true)) := by
  cases hacc with
  | waiting s b c it => exact ⟨s, c, it, rfl, rfl, Or.inl ⟨rfl, rfl⟩⟩
  | decided s b c it approved =>
    refine ⟨s, c, it, rfl, rfl, Or.inr ⟨_, rfl, ?_⟩⟩
    cases approved with
    | true => exact Or.inl rfl
    | false => exact Or.inr ⟨.decided c it false, by simp⟩
  | givenUp s b c it seen => exact ⟨s, c, it, rfl, rfl, Or.inr ⟨_, rfl, Or.inr ⟨seen, by simp⟩⟩⟩
  | ended seen free ends => exact ends.elim

theorem Account.of_run {i : Nat} {h : List Event} {a : Option Approval} {s : Setting} {b : Bench} {c : Text}
    {next : Bench → Except ToolFault CommandResult → Course Observation}
    (hacc : Account i h a (.run s b c next)) :
    History i h ∧ (∀ c, a ≠ some (.waiting c)) ∧
      ∀ b r, ∃ b' o, next b r = .done b' o ∧ b'.gate = b.gate := by
  cases hacc with
  | running s b c seen free ends => exact ⟨seen, free, ends⟩
  | ended seen free ends => exact ends.elim

/-- Every invocation has its account, and its request has its number. -/
structure Orderly (m : Crowd) : Prop where
  manual : m.bench.gate.autoApprove = false
  numbers : m.bench.gate.requests.length = m.courses.length
  known : ∀ e ∈ m.log, e.subject < m.courses.length
  account : ∀ i stop, m.courses[i]? = some stop →
    Account i (seenOf m.log i) m.bench.gate.requests[i]? stop

variable {m m' : Crowd} {i : Nat} {stop : Course Observation} {events : List Event}

/-- A step of one invocation leaves the accounts of the others. -/
theorem Orderly.of_move (h : Orderly m) (hi : i < m.courses.length)
    (hmanual : m'.bench.gate.autoApprove = false)
    (hnumbers : m'.bench.gate.requests.length = m.bench.gate.requests.length)
    (hothers : ∀ j, j ≠ i → m'.bench.gate.requests[j]? = m.bench.gate.requests[j]?)
    (hcourses : m'.courses = m.courses.set i stop) (hlog : m'.log = m.log ++ events)
    (hsubject : ∀ e ∈ events, e.subject = i)
    (haccount : Account i (seenOf m.log i ++ events) m'.bench.gate.requests[i]? stop) : Orderly m' := by
  have hlength : m'.courses.length = m.courses.length := by rw [hcourses, List.length_set]
  refine ⟨hmanual, by rw [hnumbers, h.numbers, hlength], ?_, ?_⟩
  · intro e he
    rw [hlength]
    rw [hlog] at he
    rcases List.mem_append.mp he with he | he
    · exact h.known e he
    · rw [hsubject e he]
      exact hi
  · intro j course hj
    rw [hcourses, List.getElem?_set] at hj
    rw [hlog, seenOf_append]
    by_cases hij : i = j
    · subst hij
      rw [if_pos rfl, if_pos hi] at hj
      cases hj
      rw [seenOf_all hsubject]
      exact haccount
    · rw [if_neg hij] at hj
      have hnone : seenOf events j = [] := seenOf_none fun e he => by rw [hsubject e he]; exact hij
      rw [hnone, List.append_nil, hothers j (Ne.symm hij)]
      exact h.account j course hj

/-- The request of an invocation changes and nothing else does. -/
theorem set_getElem? {requests : List Approval} {a : Approval} (hi : i < requests.length) :
    (requests.set i a)[i]? = some a ∧ ∀ j, j ≠ i → (requests.set i a)[j]? = requests[j]? := by
  refine ⟨by simp [hi], fun j hj => ?_⟩
  rw [List.getElem?_set, if_neg (Ne.symm hj)]

theorem Orderly.lt_of_course (h : Orderly m) (hc : m.courses[i]? = some stop) :
    i < m.courses.length ∧ i < m.bench.gate.requests.length := by
  have hi := (List.getElem?_eq_some_iff.mp hc).1
  exact ⟨hi, h.numbers ▸ hi⟩

theorem set_self {courses : List (Course Observation)} (h : courses[i]? = some stop) :
    courses = courses.set i stop := by
  apply List.ext_getElem?
  intro j
  rw [List.getElem?_set]
  split
  · rename_i he
    subst he
    obtain ⟨hi, he⟩ := List.getElem?_eq_some_iff.mp h
    simp [hi, he]
  · rfl

/-- A decision at the gate keeps every invocation in order, whichever request it reaches. -/
theorem Orderly.resolve (h : Orderly m) (approved : Bool) : Orderly (m.resolve approved) := by
  cases hb : (m.bench.gate.resolve approved).2 with
  | false =>
    have hm : m.resolve approved = m := by
      have hg := Gate.resolve_false hb
      unfold Crowd.resolve
      split
      · rename_i he
        rw [he] at hb
        cases hb
      · rename_i he _
        rw [he] at hg
        dsimp only at hg
        rw [hg]
    rw [hm]
    exact h
  | true =>
    obtain ⟨n, c, hs, hw, hp, hr⟩ := Gate.resolve_true hb
    have hm : m.resolve approved =
        { m with
          bench := { m.bench with
            gate := { m.bench.gate with
              requests := m.bench.gate.requests.set n (.settled c (.decided approved)) } }
          log := m.log ++ [.decided n c approved] } := by
      simp only [Crowd.resolve, hs, hp, hr]
    have hn : n < m.bench.gate.requests.length := (List.getElem?_eq_some_iff.mp hw).1
    have hn' : n < m.courses.length := h.numbers ▸ hn
    have hcourse : m.courses[n]? = some m.courses[n] := List.getElem?_eq_getElem hn'
    obtain ⟨hself, hothers⟩ := set_getElem? (a := .settled c (.decided approved)) hn
    have hacc := h.account n _ hcourse
    rw [show m.bench.gate.requests[n]? = some (Approval.waiting c) from hw] at hacc
    rw [hm]
    refine h.of_move hn' h.manual (by simp) hothers (set_self hcourse) rfl (by simp [Event.subject]) ?_
    show Account n _ (m.bench.gate.requests.set n (.settled c (.decided approved)))[n]? _
    rw [hself]
    revert hacc
    generalize seenOf m.log n = seen
    generalize m.courses[n] = stop
    intro hacc
    cases hacc with
    | waiting s b c it => exact .decided s b c it approved
    | running s b c' seen free => exact absurd rfl (free c)
    | ended seen free => exact absurd rfl (free c)

theorem Orderly.settle (h : Orderly m) {a : Approval} (hc : m.courses[i]? = some stop)
    (hsubject : ∀ e ∈ events, e.subject = i)
    (hacc : Account i (seenOf m.log i ++ events) (some a) stop) :
    Orderly { m with
      bench := { m.bench with gate := { m.bench.gate with requests := m.bench.gate.requests.set i a } }
      log := m.log ++ events } := by
  obtain ⟨hi, hi'⟩ := h.lt_of_course hc
  obtain ⟨hself, hothers⟩ := set_getElem? (a := a) hi'
  refine h.of_move hi h.manual (by simp) hothers (set_self hc) rfl hsubject ?_
  show Account i _ (m.bench.gate.requests.set i a)[i]? stop
  rw [hself]
  exact hacc

/-- Giving up one invocation keeps every invocation in order. -/
theorem Orderly.cancel (h : Orderly m) (i : Nat) : Orderly (m.cancel i) := by
  unfold Crowd.cancel
  split
  · rename_i b n next hc
    obtain ⟨s, c, it, rfl, rfl, ⟨hr, hseen⟩ | ⟨v, hr, hseen⟩⟩ := (h.account i _ hc).of_await
    · rw [hr, Gate.cancel_waits hr]
      refine h.settle hc (by simp [Event.subject]) ?_
      rw [hseen]
      exact .givenUp s b c it (.withdrawn c it)
    · rw [hr, Gate.cancel_settled hr]
      refine h.settle hc (by simp) ?_
      rw [List.append_nil]
      exact .givenUp s b c it (h.account _ _ hc).history
  · rename_i s b c next hc
    obtain ⟨hs, free, -⟩ := (h.account i _ hc).of_run
    refine h.of_move (h.lt_of_course hc).1 h.manual rfl (fun _ _ => rfl) rfl (List.append_nil _).symm
      (by simp) ?_
    rw [List.append_nil]
    exact .ended hs free trivial
  · exact h

/-- What an invocation does with the verdict on its request. -/
theorem verdict_account {h : List Event} {s : Setting} {c : Text} {it : Option Nat} {v : Verdict} {b : Bench}
    (hb : b.gate.requests[i]? = some (.finished v))
    (hh : h = [.told i (Bench.askingStep c it), .asked i i, .decided i c true] ∨
      History i h ∧ v ≠ .decided true) :
    ∃ steps stop, (pastApproval s c it i b).advance = (steps, stop) ∧ stop.bench.gate = b.gate ∧
      Account i (h ++ (steps.map (.told i) ++ arrival i stop)) (some (.finished v)) stop := by
  have hfree : ∀ c, some (Approval.finished v) ≠ some (.waiting c) := by simp
  have hseen : History i h := by
    rcases hh with rfl | ⟨hs, -⟩
    · exact .decided c it true
    · exact hs
  simp only [pastApproval, hb]
  cases v with
  | cancelled =>
    exact ⟨[], .cancelled b, rfl, rfl, .ended_arrival hseen hfree trivial⟩
  | decided approved =>
    cases approved with
    | false =>
      exact ⟨[], .done _ _, rfl, rfl, .ended_arrival hseen hfree trivial⟩
    | true =>
      obtain rfl := hh.resolve_right fun hn => hn.2 rfl
      exact ⟨[Bench.executingStep c it], _, rfl, rfl,
        .running s b c (.ran c it) hfree fun b r => ⟨_, _, rfl, rfl⟩⟩

theorem subject_of_arrival {steps : List Step} (hstop : ∀ b n next, stop = .awaitApproval b n next → n = i) :
    ∀ e ∈ steps.map (.told i) ++ arrival i stop, e.subject = i := by
  intro e he
  rcases List.mem_append.mp he with he | he
  · obtain ⟨step, -, rfl⟩ := List.mem_map.mp he
    rfl
  · unfold arrival at he
    split at he
    · rw [List.mem_singleton.mp he]
      rfl
    · rw [List.mem_singleton.mp he]
      rfl
    · cases he

/-- An invocation that goes on up to its next stop keeps the crowd in order if it touches no request but its own. -/
theorem Orderly.goOn {course : Course Observation} {steps : List Step} {a : Option Approval}
    (h : Orderly m) (hi : i < m.courses.length) (hadvance : course.advance = (steps, stop))
    (hmanual : stop.bench.gate.autoApprove = false)
    (hnumbers : stop.bench.gate.requests.length = m.bench.gate.requests.length)
    (hothers : ∀ j, j ≠ i → stop.bench.gate.requests[j]? = m.bench.gate.requests[j]?)
    (hrequest : stop.bench.gate.requests[i]? = a)
    (hacc : Account i (seenOf m.log i ++ (steps.map (.told i) ++ arrival i stop)) a stop) :
    Orderly (m.goOn i course) := by
  have hgo : m.goOn i course = ⟨stop.bench, m.courses.set i stop,
      m.log ++ (steps.map (.told i) ++ arrival i stop)⟩ := by
    simp only [Crowd.goOn, hadvance]
  rw [hgo]
  refine h.of_move hi hmanual hnumbers hothers rfl rfl (subject_of_arrival ?_) ?_
  · rintro b n next rfl
    exact hacc.of_await.choose_spec.choose_spec.choose_spec.1
  · rw [← hrequest] at hacc
    exact hacc

/-- A settled request that resumes keeps the crowd in order: its invocation runs the command only if it was
approved. -/
theorem Orderly.wake (h : Orderly m) (i : Nat) : Orderly (m.wake i) := by
  unfold Crowd.wake
  split
  · rename_i b n next hc
    obtain ⟨s, c, it, rfl, rfl, ⟨hr, -⟩ | ⟨v, hr, hseen⟩⟩ := (h.account i _ hc).of_await
    · rw [hr]
      exact h
    · rw [hr]
      dsimp only
      have hgate := Gate.resume_settled hr
      obtain ⟨hself, hothers⟩ := set_getElem? (a := .finished v) (h.lt_of_course hc).2
      obtain ⟨steps, stop, hadvance, hb, hacc⟩ := verdict_account (s := s)
        (b := { m.bench with gate := m.bench.gate.resume n }) (by rw [hgate]; exact hself) hseen
      refine h.goOn (h.lt_of_course hc).1 hadvance ?_ ?_ ?_ ?_ hacc
      · rw [hb, hgate]
        exact h.manual
      · rw [hb, hgate]
        exact List.length_set
      · rw [hb, hgate]
        exact hothers
      · rw [hb, hgate]
        exact hself
  · exact h

/-- A command that ends keeps the crowd in order. -/
theorem Orderly.finish (h : Orderly m) (i : Nat) : Orderly (m.finish i) := by
  unfold Crowd.finish
  split
  · rename_i s b c next hc
    obtain ⟨hs, free, ends⟩ := (h.account i _ hc).of_run
    obtain ⟨b', o, hnext, hgate⟩ := ends (m.bench.runCommand s c).1 (m.bench.runCommand s c).2
    have hb : b'.gate = m.bench.gate := hgate
    dsimp only
    rw [hnext]
    have hadvance : (Course.done b' o).advance = ([], .done b' o) := rfl
    refine h.goOn (h.lt_of_course hc).1 hadvance ?_ ?_ ?_ rfl ?_
    · exact hb ▸ h.manual
    · exact congrArg (·.requests.length) hb
    · exact fun j _ => congrArg (·.requests[j]?) hb
    · refine .ended_arrival hs ?_ trivial
      show ∀ c, b'.gate.requests[i]? ≠ some (.waiting c)
      rw [hb]
      exact free
  · exact h

/-- A new invocation has the next number, and so has its request. -/
theorem Orderly.of_start {a : Approval} (h : Orderly m) (hmanual : m'.bench.gate.autoApprove = false)
    (hrequests : m'.bench.gate.requests = m.bench.gate.requests ++ [a])
    (hcourses : m'.courses = m.courses ++ [stop]) (hlog : m'.log = m.log ++ events)
    (hsubject : ∀ e ∈ events, e.subject = m.courses.length)
    (hacc : Account m.courses.length events (some a) stop) : Orderly m' := by
  refine ⟨hmanual, by simp [hrequests, hcourses, h.numbers], ?_, ?_⟩
  · intro e he
    rw [hcourses, List.length_append, List.length_singleton]
    rw [hlog] at he
    rcases List.mem_append.mp he with he | he
    · exact Nat.lt_succ_of_lt (h.known e he)
    · rw [hsubject e he]
      exact Nat.lt_succ_self _
  · intro j course hj
    rw [hcourses] at hj
    rw [hlog, seenOf_append, hrequests]
    by_cases hlt : j < m.courses.length
    · rw [List.getElem?_append_left hlt] at hj
      have hnone : seenOf events j = [] :=
        seenOf_none fun e he => by rw [hsubject e he]; exact (Nat.ne_of_lt hlt).symm
      rw [hnone, List.append_nil, List.getElem?_append_left (h.numbers ▸ hlt)]
      exact h.account j course hj
    · have hle := (List.getElem?_eq_some_iff.mp hj).1
      rw [List.length_append, List.length_singleton] at hle
      obtain rfl : j = m.courses.length := by omega
      have hnone : seenOf m.log m.courses.length = [] :=
        seenOf_none fun e he => Nat.ne_of_lt (h.known e he)
      rw [List.getElem?_concat_length] at hj
      cases hj
      rw [hnone, seenOf_all hsubject, ← h.numbers, List.getElem?_concat_length, h.numbers]
      exact hacc

theorem Orderly.change (h : Orderly m) (w : Workspace) :
    Orderly { m with bench := { m.bench with workspace := w } } :=
  ⟨h.manual, h.numbers, h.known, h.account⟩

theorem Orderly.history (h : Orderly m) (i : Nat) : seenOf m.log i = [] ∨ History i (seenOf m.log i) := by
  by_cases hi : i < m.courses.length
  · exact Or.inr (h.account i _ (List.getElem?_eq_getElem hi)).history
  · left
    refine seenOf_none fun e he => ?_
    have := h.known e he
    omega

theorem mem_seenOf {log : List Event} {e : Event} (h : e ∈ log) : e ∈ seenOf log e.subject :=
  List.mem_filter.mpr ⟨h, by simp⟩

/-- An invocation of which something is seen has one of the histories. -/
theorem Orderly.history_of_mem {e : Event} (h : Orderly m) (he : e ∈ m.log) :
    e ∈ seenOf m.log e.subject ∧ History e.subject (seenOf m.log e.subject) := by
  have hm := mem_seenOf he
  refine ⟨hm, (h.history e.subject).resolve_left ?_⟩
  intro hn
  rw [hn] at hm
  cases hm

theorem countP_seenOf {p : Event → Bool} (log : List Event) (hp : ∀ e, p e = true → e.subject = i) :
    log.countP p = (seenOf log i).countP p := by
  rw [seenOf, List.countP_filter]
  refine List.countP_congr fun e _ => ?_
  simpa using hp e

/-- An event that is new stands only where it was appended. -/
theorem split_last {x : Event} {l before after : List Event} (hx : x ∉ l)
    (h : l ++ [x] = before ++ x :: after) : before = l := by
  induction l generalizing before with
  | nil =>
    cases before with
    | nil => rfl
    | cons y before => simp at h
  | cons y l ih =>
    cases before with
    | nil =>
      simp only [List.cons_append, List.nil_append, List.cons.injEq] at h
      exact absurd (by simp [h.1]) hx
    | cons z before =>
      simp only [List.cons_append, List.cons.injEq] at h
      rw [h.1, ih (fun hm => hx (List.mem_cons_of_mem _ hm)) h.2]

/-- What a log says of approvals and runs. -/
structure Approved (log : List Event) : Prop where
  /-- Before a run, the same invocation told that this command waits, and made a request that was approved
  while it was the pending one and the gate showed this command. -/
  preceded : ∀ before i c after, log = before ++ .ran i c :: after →
    ∃ it n, [.told i (Bench.askingStep c it), .asked i n, .decided n c true].Sublist before
  /-- A request belongs to one invocation, it is decided once, and the invocation runs once. -/
  own : ∀ i j n, .asked i n ∈ log → .asked j n ∈ log → i = j
  decided : ∀ n, log.countP (Event.decides n) ≤ 1
  once : ∀ i, log.countP (Event.runs i) ≤ 1
  denied : ∀ i n shown c, .asked i n ∈ log → .decided n shown false ∈ log → .ran i c ∉ log
  withdrawn : ∀ i c, .withdrawn i ∈ log → .ran i c ∉ log
  refused : ∀ i c, .refused i ∈ log → .ran i c ∉ log

theorem History.asked_self {l : List Event} {n : Nat} (h : History i l) (hm : .asked i n ∈ l) : n = i := by
  cases h <;> simp_all

theorem History.of_ran {l : List Event} {c : Text} (h : History i l) (hm : .ran i c ∈ l) :
    ∃ it, l = [.told i (Bench.askingStep c it), .asked i i, .decided i c true,
      .told i (Bench.executingStep c it)] ++ [.ran i c] := by
  cases h with
  | ran c' it =>
    obtain rfl : c = c' := by simpa using hm
    exact ⟨it, rfl⟩
  | asked c' it => simp at hm
  | decided c' it approved => simp at hm
  | withdrawn c' it => simp at hm
  | refused c' it => simp at hm

theorem Orderly.ran {c : Text} (h : Orderly m) (hm : .ran i c ∈ m.log) :
    ∃ it, seenOf m.log i = [.told i (Bench.askingStep c it), .asked i i, .decided i c true,
      .told i (Bench.executingStep c it)] ++ [.ran i c] := by
  obtain ⟨hs, hh⟩ := h.history_of_mem hm
  exact hh.of_ran hs

theorem Orderly.asked {n : Nat} (h : Orderly m) (hm : .asked i n ∈ m.log) : n = i := by
  obtain ⟨hs, hh⟩ := h.history_of_mem hm
  exact hh.asked_self hs

/-- In a crowd in order every command that ran was approved for its own request. -/
theorem Orderly.approved (h : Orderly m) : Approved m.log := by
  refine ⟨?_, ?_, ?_, ?_, ?_, ?_, ?_⟩
  · intro before i c after hlog
    have hran : .ran i c ∈ m.log := by
      rw [hlog]
      simp
    obtain ⟨it, hseen⟩ := h.ran hran
    have hself : seenOf [.ran i c] i = [.ran i c] := by simp [seenOf, Event.subject]
    rw [hlog, seenOf_append, ← List.singleton_append, seenOf_append, hself, List.singleton_append] at hseen
    have hbefore := split_last (by simp) hseen.symm
    have hsub : (seenOf before i).Sublist before := List.filter_sublist
    rw [hbefore] at hsub
    exact ⟨it, i, List.Sublist.trans (by simp) hsub⟩
  · intro i j n hi hj
    rw [← h.asked hi, ← h.asked hj]
  · intro n
    rw [countP_seenOf (i := n) m.log]
    · rcases h.history n with hn | hh
      · simp [hn]
      · generalize seenOf m.log n = l at hh
        cases hh <;> simp [Event.decides]
    · intro e he
      cases e <;> simp_all [Event.decides, Event.subject]
  · intro i
    rw [countP_seenOf (i := i) m.log]
    · rcases h.history i with hn | hh
      · simp [hn]
      · generalize seenOf m.log i = l at hh
        cases hh <;> simp [Event.runs]
    · intro e he
      cases e <;> simp_all [Event.runs, Event.subject]
  · intro i n shown c hasked hdenied hran
    obtain rfl := h.asked hasked
    obtain ⟨it, hseen⟩ := h.ran hran
    have hm := mem_seenOf hdenied
    simp [Event.subject, hseen] at hm
  · intro i c hwithdrawn hran
    obtain ⟨it, hseen⟩ := h.ran hran
    have hm := mem_seenOf hwithdrawn
    simp [Event.subject, hseen] at hm
  · intro i c hrefused hran
    obtain ⟨it, hseen⟩ := h.ran hran
    have hm := mem_seenOf hrefused
    simp [Event.subject, hseen] at hm

variable [Host]

/-- How a command begins at a gate where it needs approval: it waits, or it is refused and over. -/
theorem execute_advance (s : Setting) (b : Bench) (c : Text) (it : Option Nat)
    (ha : b.gate.autoApprove = false) :
    ∃ request stop, (b.execute s (.valid (.runCommand c)) it).advance = ([Bench.askingStep c it], stop) ∧
      stop.bench.gate.autoApprove = false ∧ stop.bench.gate.requests = b.gate.requests ++ [request] ∧
      (request = .waiting c ∧ (∃ b', stop = .awaitApproval b' b.gate.requests.length
          (pastApproval s c it b.gate.requests.length)) ∨
        (∃ other, request = .busy other) ∧ ∃ b' o, stop = .done b' o) := by
  cases hp : b.gate.pending with
  | some other =>
    have hg : b.gate.request c = { b.gate with requests := b.gate.requests ++ [.busy other] } := by
      simp only [Gate.request, ha, hp, Bool.false_eq_true, ↓reduceIte]
    have hr : (b.gate.request c).requests[b.gate.requests.length]? = some (.busy other) := by
      rw [hg]
      exact List.getElem?_concat_length
    obtain ⟨o, hadvance⟩ : ∃ o, (b.execute s (.valid (.runCommand c)) it).advance =
        ([Bench.askingStep c it], .done { b with gate := b.gate.request c } o) := by
      simp only [Bench.execute, Bench.command, hr, Bench.afterVerdict, Course.advance]
      exact ⟨_, rfl⟩
    refine ⟨.busy other, _, hadvance, ?_, ?_, Or.inr ⟨⟨other, rfl⟩, _, _, rfl⟩⟩
    · show (b.gate.request c).autoApprove = false
      rw [hg]
      exact ha
    · show (b.gate.request c).requests = _
      rw [hg]
  | none =>
    have hg : b.gate.request c = { b.gate with
        slot := some b.gate.requests.length, requests := b.gate.requests ++ [.waiting c] } := by
      simp only [Gate.request, ha, hp, Bool.false_eq_true, ↓reduceIte]
    have hr : (b.gate.request c).requests[b.gate.requests.length]? = some (.waiting c) := by
      rw [hg]
      exact List.getElem?_concat_length
    refine ⟨.waiting c, .awaitApproval { b with gate := b.gate.request c } b.gate.requests.length
      (pastApproval s c it b.gate.requests.length), ?_, ?_, ?_, Or.inl ⟨rfl, _, rfl⟩⟩
    · simp only [Bench.execute, Bench.command, hr, Course.advance]
      rfl
    · show (b.gate.request c).autoApprove = false
      rw [hg]
      exact ha
    · show (b.gate.request c).requests = _
      rw [hg]

/-- A new invocation keeps the crowd in order: it asks before it runs anything. -/
theorem Orderly.start (h : Orderly m) (s : Setting) (command : Text) (iteration : Option Nat) :
    Orderly (m.start s command iteration) := by
  obtain ⟨request, stop, hadvance, hmanual, hrequests, hcase⟩ :=
    execute_advance s m.bench command iteration h.manual
  have hlast : stop.bench.gate.requests[m.bench.gate.requests.length]? = some request := by
    rw [hrequests]
    exact List.getElem?_concat_length
  have hset : (m.courses ++ [m.bench.execute s (.valid (.runCommand command)) iteration]).set
      m.courses.length stop = m.courses ++ [stop] := by simp
  rcases hcase with ⟨rfl, b', rfl⟩ | ⟨⟨other, rfl⟩, b', o, rfl⟩
  · simp only [Crowd.start, Crowd.goOn, hadvance, hlast, hset]
    rw [h.numbers]
    refine h.of_start hmanual hrequests rfl rfl (by simp [arrival, Event.subject]) ?_
    exact .waiting s b' command iteration
  · simp only [Crowd.start, Crowd.goOn, hadvance, hlast, hset, List.append_assoc]
    refine h.of_start hmanual hrequests rfl rfl (by simp [arrival, Event.subject]) ?_
    exact .ended (.refused command iteration) (by simp) trivial

theorem Orderly.step (h : Orderly m) (move : Move) : Orderly (m.step move) := by
  cases move with
  | start s command iteration => exact h.start s command iteration
  | resolve approved => exact h.resolve approved
  | cancel i => exact h.cancel i
  | wake i => exact h.wake i
  | finish i => exact h.finish i
  | change w => exact h.change w

theorem run_orderly (w : Workspace) (moves : List Move) : Orderly (run w moves) := by
  have go (m : Crowd) (h : Orderly m) : Orderly (moves.foldl Crowd.step m) := by
    induction moves generalizing m with
    | nil => exact h
    | cons move rest ih => exact ih _ (h.step move)
  refine go _ ⟨rfl, rfl, by simp, ?_⟩
  intro i stop hi
  cases hi

/-- A decision that a gate accepts reaches one request: the pending one, whose command is shown. -/
def Directed (g : Gate) : Prop :=
  ∀ approved, (g.resolve approved).2 = true → ∃ n c, g.slot = some n ∧ g.Waits n c ∧ g.pending = some c ∧
    (g.resolve approved).1 = { g with requests := g.requests.set n (.settled c (.decided approved)) }

/-- In whatever order commands, decisions and cancellations come, no command runs unapproved, and every
decision reaches one request. -/
theorem no_unapproved_run (w : Workspace) (moves : List Move) :
    Approved (run w moves).log ∧ Directed (run w moves).bench.gate := by
  refine ⟨(run_orderly w moves).approved, ?_⟩
  intro approved h
  obtain ⟨n, c, hs, hw, hp, hr⟩ := Gate.resolve_true h
  exact ⟨n, c, hs, hw, hp, by rw [hr]⟩

/-- An approved command does run. -/
theorem approved_runs (w : Workspace) (s : Setting) (c : Text) (it : Option Nat) :
    (run w [.start s c it, .resolve true, .wake 0]).log =
      [.told 0 (Bench.askingStep c it), .asked 0 0, .decided 0 c true,
        .told 0 (Bench.executingStep c it), .ran 0 c] := rfl

end Crowd

end CodeAgent
