import CodeAgent.Command.Schedule

namespace CodeAgent.Gate

/-- What can happen at a gate. A settled request may resume at any later time. -/
inductive Step where
  | request (command : Text)
  | resolve (approved : Bool)
  | cancel (number : Nat)
  | resume (number : Nat)

def step (g : Gate) : Step → Gate
  | .request command => g.request command
  | .resolve approved => (g.resolve approved).1
  | .cancel n => (g.cancel n).1
  | .resume n => g.resume n

def run (steps : List Step) : Gate := steps.foldl step {}

theorem run_concat (steps : List Step) (s : Step) : run (steps ++ [s]) = (run steps).step s := by
  simp [run]

abbrev Waits (g : Gate) (n : Nat) (command : Text) : Prop :=
  g.requests[n]? = some (Approval.waiting command)

/-- A request was decided or given up, and has not resumed. -/
abbrev Settled (g : Gate) (n : Nat) (command : Text) (verdict : Verdict) : Prop :=
  g.requests[n]? = some (Approval.settled command verdict)

/-- At most one request waits, its command is shown, and a decision reaches it. -/
structure Attended (g : Gate) : Prop where
  one : ∀ m n c c', g.Waits m c → g.Waits n c' → m = n
  shown : ∀ n c, g.Waits n c → g.pending = some c
  delivered : ∀ n c approved, g.Waits n c →
    (g.resolve approved).2 = true ∧
      (g.resolve approved).1.Settled n c (.decided approved)

/-- A settled request is about to resume while another one waits. -/
def Lapse (g : Gate) (n : Nat) : Prop :=
  (∃ c verdict, g.Settled n c verdict) ∧ ∃ m c, g.Waits m c

/-- A request was given a decision, and it has resumed with it or will. -/
def Told (g : Gate) (n : Nat) (approved : Bool) : Prop :=
  (∃ c, g.Settled n c (.decided approved)) ∨ g.requests[n]? = some (.finished (.decided approved))

/-- Whatever is decided while a request waits is what that request is told from then on. -/
def Delivered (steps : List Step) : Prop :=
  ∀ k n c approved, steps[k]? = some (.resolve approved) → (run (steps.take k)).Waits n c →
    ∀ j, k < j → j ≤ steps.length → Told (run (steps.take j)) n approved

/-- A decided request is about to be given up before it resumes. -/
def Overruled (g : Gate) (n : Nat) : Prop := ∃ c approved, g.Settled n c (.decided approved)

def Holds (g : Gate) : Prop := ∀ n c, g.Waits n c → g.slot = some n

variable {g : Gate} {n m : Nat} {c : Text}

theorem pending_of_waits (hs : g.slot = some n) (hw : g.Waits n c) : g.pending = some c := by
  simp only [pending, hs, Option.bind_some, show g.requests[n]? = some (Approval.waiting c) from hw]

theorem Holds.pending (h : Holds g) (hn : g.Waits n c) : g.pending = some c :=
  pending_of_waits (h n c hn) hn

theorem resolve_waits {approved : Bool} (hs : g.slot = some n) (hn : g.Waits n c) :
    g.resolve approved =
      ({ g with requests := g.requests.set n (.settled c (.decided approved)) }, true) := by
  simp only [resolve, hs, show g.requests[n]? = some (Approval.waiting c) from hn]

/-- A decision that is accepted settles the request that holds the slot, and no other. -/
theorem resolve_true {approved : Bool} (h : (g.resolve approved).2 = true) :
    ∃ n c, g.slot = some n ∧ g.Waits n c ∧ g.pending = some c ∧
      g.resolve approved =
        ({ g with requests := g.requests.set n (.settled c (.decided approved)) }, true) := by
  cases hs : g.slot with
  | none => simp [resolve, hs] at h
  | some n =>
    cases hr : g.requests[n]? with
    | none => simp [resolve, hs, hr] at h
    | some a =>
      cases a with
      | waiting c =>
        exact ⟨n, c, rfl, hr, pending_of_waits hs hr, by rw [resolve_waits hs hr, hs]⟩
      | settled c v => simp [resolve, hs, hr] at h
      | finished v => simp [resolve, hs, hr] at h
      | busy other => simp [resolve, hs, hr] at h

theorem cancel_waits (hw : g.Waits n c) :
    (g.cancel n).1 = { g with requests := g.requests.set n (.settled c .cancelled) } := by
  simp only [cancel, show g.requests[n]? = some (Approval.waiting c) from hw]

theorem cancel_settled {v : Verdict} (hs : g.Settled n c v) :
    (g.cancel n).1 = { g with requests := g.requests.set n (.settled c .cancelled) } := by
  simp only [cancel, show g.requests[n]? = some (Approval.settled c v) from hs]

theorem resume_settled {v : Verdict} (hs : g.Settled n c v) :
    g.resume n = { g with slot := none, requests := g.requests.set n (.finished v) } := by
  simp only [resume, show g.requests[n]? = some (Approval.settled c v) from hs]

theorem resolve_false {approved : Bool} (h : (g.resolve approved).2 = false) :
    (g.resolve approved).1 = g := by
  unfold resolve at h ⊢
  split
  · rfl
  · split
    · simp_all
    · rfl

theorem Holds.attended (h : Holds g) : Attended g := by
  refine ⟨?_, fun n c hn => h.pending hn, ?_⟩
  · intro m n c c' hm hn
    exact Option.some.inj ((h m c hm).symm.trans (h n c' hn))
  · intro n c approved hn
    have hlt : n < g.requests.length := (List.getElem?_eq_some_iff.mp hn).1
    rw [resolve_waits (h n c hn) hn]
    exact ⟨rfl, by simp [Settled, hlt]⟩

theorem waits_of_append {a : Approval} {requests : List Approval}
    (h : (requests ++ [a])[n]? = some (Approval.waiting c)) :
    requests[n]? = some (Approval.waiting c) ∨ n = requests.length ∧ a = .waiting c := by
  rw [List.getElem?_append] at h
  split at h
  · exact Or.inl h
  · rw [List.getElem?_singleton] at h
    split at h
    · exact Or.inr ⟨by omega, Option.some.inj h⟩
    · cases h

theorem Holds.request (h : Holds g) (ha : g.autoApprove = false) (command : Text) :
    Holds (g.request command) := by
  intro n c hn
  simp only [Gate.request, ha, Bool.false_eq_true, ↓reduceIte] at hn ⊢
  split at hn
  · rcases waits_of_append hn with hn | ⟨-, he⟩
    · exact h n c hn
    · cases he
  · rename_i hp
    rcases waits_of_append hn with hn | ⟨rfl, -⟩
    · rw [h.pending hn] at hp
      cases hp
    · rfl

/-- Setting a request to something else than waiting leaves the others. -/
theorem waiting_of_set {a : Approval} (ha : ∀ c, a ≠ .waiting c)
    (h : (g.requests.set m a)[n]? = some (Approval.waiting c)) : m ≠ n ∧ g.Waits n c := by
  rw [List.getElem?_set] at h
  split at h
  · split at h
    · exact absurd (Option.some.inj h) (ha c)
    · cases h
  · rename_i hne
    exact ⟨hne, h⟩

theorem settled_of_set {a : Approval} {v : Verdict}
    (h : (g.requests.set m a)[n]? = some (Approval.settled c v)) :
    g.Settled n c v ∨ m = n ∧ a = .settled c v := by
  rw [List.getElem?_set] at h
  split at h
  · rename_i he
    split at h
    · exact Or.inr ⟨he, Option.some.inj h⟩
    · cases h
  · exact Or.inl h

theorem settled_of_append {a : Approval} {v : Verdict}
    (h : (g.requests ++ [a])[n]? = some (Approval.settled c v)) (ha : a ≠ .settled c v) : g.Settled n c v := by
  rw [List.getElem?_append] at h
  split at h
  · exact h
  · rw [List.getElem?_singleton] at h
    split at h
    · exact absurd (Option.some.inj h) ha
    · cases h

theorem Holds.set {a : Approval} (h : Holds g) (ha : ∀ c, a ≠ .waiting c) :
    Holds { g with requests := g.requests.set m a } :=
  fun n c hn => h n c (waiting_of_set ha hn).2

theorem Holds.resolve (h : Holds g) (approved : Bool) : Holds (g.resolve approved).1 := by
  unfold Gate.resolve
  split
  · exact h
  · split
    · exact h.set (by simp)
    · exact h

theorem Holds.cancel (h : Holds g) (n : Nat) : Holds (g.cancel n).1 := by
  unfold Gate.cancel
  split
  · exact h.set (by simp)
  · exact h.set (by simp)
  · exact h

theorem Holds.resume (h : Holds g) (hn : ¬ Lapse g n) : Holds (g.resume n) := by
  unfold Gate.resume
  split
  · rename_i command verdict hs
    intro m c hm
    obtain ⟨-, hw⟩ := waiting_of_set (by simp) hm
    exact absurd ⟨⟨_, _, hs⟩, m, c, hw⟩ hn
  · exact h

/-- No step switches the approval of commands off. -/
theorem step_autoApprove (g : Gate) (s : Step) : (g.step s).autoApprove = g.autoApprove := by
  cases s with
  | request command =>
    simp only [step, Gate.request]
    split
    · rfl
    · split <;> rfl
  | resolve approved =>
    simp only [step, Gate.resolve]
    split
    · rfl
    · split <;> rfl
  | cancel n =>
    simp only [step, Gate.cancel]
    split <;> rfl
  | resume n =>
    simp only [step, Gate.resume]
    split <;> rfl

theorem Holds.step {s : Step} (h : Holds g) (ha : g.autoApprove = false)
    (hs : ∀ n, s = .resume n → ¬ Lapse g n) : Holds (g.step s) := by
  cases s with
  | request command => exact h.request ha command
  | resolve approved => exact h.resolve approved
  | cancel n => exact h.cancel n
  | resume n => exact h.resume (hs n rfl)

/-- After a lapse the request that waits is out of reach: nothing is shown, and no decision arrives. -/
theorem Lapse.unattended (h : Lapse g n) : ¬ Attended (g.resume n) := by
  obtain ⟨⟨c, verdict, hs⟩, m, c', hm⟩ := h
  intro ha
  have hne : n ≠ m := by
    rintro rfl
    exact absurd (hs.symm.trans hm) (by simp)
  have hresume := resume_settled hs
  have hwaits : (g.resume n).Waits m c' := by
    rw [hresume]
    simpa [Waits, List.getElem?_set, hne] using hm
  have hshown := ha.shown m c' hwaits
  rw [hresume] at hshown
  simp [Gate.pending] at hshown

theorem run_autoApprove (steps : List Step) : (run steps).autoApprove = false := by
  have go (g : Gate) : (steps.foldl step g).autoApprove = g.autoApprove := by
    induction steps generalizing g with
    | nil => rfl
    | cons s rest ih => rw [List.foldl_cons, ih, step_autoApprove]
  exact go {}

theorem run_take_succ {steps : List Step} {k : Nat} {s : Step} (hk : steps[k]? = some s) :
    run (steps.take (k + 1)) = (run (steps.take k)).step s := by
  rw [← run_concat, List.take_add_one, hk, Option.toList_some]

/-- Over every run, a request that waits is attended to just if none that is settled resumes while another waits. -/
theorem attended_iff (steps : List Step) :
    (∀ k ≤ steps.length, Attended (run (steps.take k))) ↔
      ∀ k n, steps[k]? = some (.resume n) → ¬ Lapse (run (steps.take k)) n := by
  constructor
  · intro h k n hk hl
    apply hl.unattended
    have hlt : k < steps.length := (List.getElem?_eq_some_iff.mp hk).1
    have hnext := h (k + 1) hlt
    rw [run_take_succ hk] at hnext
    exact hnext
  · intro h k hk
    have hholds : Holds (run (steps.take k)) := by
      induction k with
      | zero =>
        intro n c hn
        cases hn
      | succ k ih =>
        have hs : steps[k]? = some steps[k] := List.getElem?_eq_getElem hk
        rw [run_take_succ hs]
        refine (ih (Nat.le_of_succ_le hk)).step (run_autoApprove _) ?_
        intro n he
        exact h k n (by rw [hs, he])
    exact hholds.attended

theorem Told.lt {approved : Bool} (h : Told g n approved) : n < g.requests.length := by
  rcases h with ⟨c, h⟩ | h <;> exact (List.getElem?_eq_some_iff.mp h).1

/-- A request keeps what it is told where it is left as it is. -/
theorem Told.of_eq {g' : Gate} {approved : Bool} (h : Told g n approved)
    (he : g'.requests[n]? = g.requests[n]?) : Told g' n approved := by
  unfold Told Settled at h ⊢
  rw [he]
  exact h

theorem Told.not_waits {approved : Bool} (h : Told g n approved) (hw : g.Waits n c) : False := by
  rcases h with ⟨c', h⟩ | h
  · cases hw.symm.trans h
  · cases hw.symm.trans h

/-- A decision is kept by every step but one that gives the request up before it resumes. -/
theorem Told.step {approved : Bool} {s : Step} (h : Told g n approved)
    (hs : s = .cancel n → ¬ Overruled g n) : Told (g.step s) n approved := by
  cases s with
  | request command =>
    refine h.of_eq ?_
    simp only [Gate.step, Gate.request]
    split
    · exact List.getElem?_append_left h.lt
    · split <;> exact List.getElem?_append_left h.lt
  | resolve decision =>
    refine h.of_eq ?_
    cases hd : (g.resolve decision).2 with
    | false => rw [Gate.step, resolve_false hd]
    | true =>
      obtain ⟨m, c, -, hm, -, he⟩ := resolve_true hd
      have hne : m ≠ n := by
        rintro rfl
        exact h.not_waits hm
      rw [Gate.step, he]
      exact List.getElem?_set_ne hne
  | cancel m =>
    by_cases hm : m = n
    · subst hm
      rcases h with ⟨c, h⟩ | h
      · exact absurd ⟨c, approved, h⟩ (hs rfl)
      · right
        simp only [Gate.step, Gate.cancel, h]
    · refine h.of_eq ?_
      simp only [Gate.step, Gate.cancel]
      split
      · exact List.getElem?_set_ne hm
      · exact List.getElem?_set_ne hm
      · rfl
  | resume m =>
    by_cases hm : m = n
    · subst hm
      have hlt := h.lt
      right
      rcases h with ⟨c, h⟩ | h
      · simp only [Gate.step, resume_settled h]
        exact List.getElem?_set_self hlt
      · simp only [Gate.step, Gate.resume, h]
    · refine h.of_eq ?_
      simp only [Gate.step, Gate.resume]
      split
      · exact List.getElem?_set_ne hm
      · rfl

/-- A step after which a request is decided that was not decided before is the decision on it. -/
theorem decided_step {approved : Bool} {s : Step} (h : (g.step s).Settled n c (.decided approved)) :
    g.Settled n c (.decided approved) ∨ s = .resolve approved ∧ g.Waits n c := by
  cases s with
  | request command =>
    refine Or.inl ?_
    simp only [Gate.step, Gate.request] at h
    split at h
    · exact settled_of_append h (by simp)
    · split at h
      · exact settled_of_append h (by simp)
      · exact settled_of_append h (by simp)
  | resolve decision =>
    cases hd : (g.resolve decision).2 with
    | false =>
      rw [Gate.step, resolve_false hd] at h
      exact Or.inl h
    | true =>
      obtain ⟨m, c', -, hm, -, he⟩ := resolve_true hd
      rw [Gate.step, he] at h
      have hset : (g.requests.set m (.settled c' (.decided decision)))[n]? = some (.settled c (.decided approved)) := h
      rcases settled_of_set hset with hs | ⟨rfl, hs⟩
      · exact Or.inl hs
      · cases hs
        exact Or.inr ⟨rfl, hm⟩
  | cancel m =>
    refine Or.inl ?_
    simp only [Gate.step, Gate.cancel] at h
    split at h
    · rcases settled_of_set h with h | ⟨-, h⟩
      · exact h
      · cases h
    · rcases settled_of_set h with h | ⟨-, h⟩
      · exact h
      · cases h
    · exact h
  | resume m =>
    refine Or.inl ?_
    simp only [Gate.step, Gate.resume] at h
    split at h
    · rcases settled_of_set h with h | ⟨-, h⟩
      · exact h
      · cases h
    · exact h

/-- A decided request was decided while it waited. -/
theorem decided_from {steps : List Step} {approved : Bool} {j : Nat} (hj : j ≤ steps.length)
    (h : (run (steps.take j)).Settled n c (.decided approved)) :
    ∃ k < j, steps[k]? = some (.resolve approved) ∧ (run (steps.take k)).Waits n c := by
  induction j with
  | zero => cases h
  | succ j ih =>
    have hs : steps[j]? = some steps[j] := List.getElem?_eq_getElem hj
    rw [run_take_succ hs] at h
    rcases decided_step h with h | ⟨he, hw⟩
    · obtain ⟨k, hk, hstep, hw⟩ := ih (Nat.le_of_succ_le hj) h
      exact ⟨k, Nat.lt_succ_of_lt hk, hstep, hw⟩
    · exact ⟨j, Nat.lt_succ_self j, by rw [hs, he], hw⟩

/-- A request that is given up before it resumes is no longer told its decision. -/
theorem Overruled.not_told {approved : Bool} (h : Overruled g n) : ¬ Told (g.step (.cancel n)) n approved := by
  obtain ⟨c, decision, h⟩ := h
  have hlt : n < g.requests.length := (List.getElem?_eq_some_iff.mp h).1
  have hset : (g.step (.cancel n)).requests[n]? = some (.settled c .cancelled) := by
    rw [Gate.step, cancel_settled h]
    exact List.getElem?_set_self hlt
  rintro (⟨c', ht⟩ | ht)
  · cases hset.symm.trans ht
  · cases hset.symm.trans ht

/-- Over every run, every request that waits is attended to and told what is decided on it, just if none that is settled
resumes while another waits, and none that is decided is given up before it resumes. -/
theorem delivered_iff (steps : List Step) :
    (∀ k ≤ steps.length, Attended (run (steps.take k))) ∧ Delivered steps ↔
      (∀ k n, steps[k]? = some (.resume n) → ¬ Lapse (run (steps.take k)) n) ∧
        ∀ k n, steps[k]? = some (.cancel n) → ¬ Overruled (run (steps.take k)) n := by
  constructor
  · rintro ⟨hattended, hdelivered⟩
    refine ⟨(attended_iff steps).mp hattended, fun j n hj ho => ?_⟩
    have hlt : j < steps.length := (List.getElem?_eq_some_iff.mp hj).1
    obtain ⟨c, approved, hs⟩ := ho
    obtain ⟨k, hk, hstep, hw⟩ := decided_from (Nat.le_of_lt hlt) hs
    have htold := hdelivered k n c approved hstep hw (j + 1) (Nat.lt_succ_of_lt hk) hlt
    rw [run_take_succ hj] at htold
    exact Overruled.not_told ⟨c, approved, hs⟩ htold
  · rintro ⟨hlapse, hoverruled⟩
    have hattended := (attended_iff steps).mpr hlapse
    refine ⟨hattended, fun k n c approved hstep hw j hkj hj => ?_⟩
    induction j with
    | zero => cases hkj
    | succ j ih =>
      have hs : steps[j]? = some steps[j] := List.getElem?_eq_getElem hj
      rw [run_take_succ hs]
      rcases Nat.lt_succ_iff_lt_or_eq.mp hkj with hlt | rfl
      · refine (ih hlt (Nat.le_of_succ_le hj)).step fun he => ?_
        exact hoverruled j n (by rw [hs, he])
      · have hdecided := ((hattended k (Nat.le_of_succ_le hj)).delivered n c approved hw).2
        rw [Option.some.inj (hs.symm.trans hstep)]
        exact Or.inl ⟨c, hdecided⟩

/-- A second request that comes between the decision on the first and its resuming is lost; and a decision is lost when
its request is given up before it resumes. -/
theorem requests_lost :
    ¬ Attended (run [.request "ls", .resolve true, .request "rm", .resume 0]) ∧
      ¬ Delivered [.request "ls", .resolve true, .cancel 0, .resume 0] := by
  constructor
  · intro h
    have hshown := h.shown 1 "rm" (by decide)
    exact absurd hshown (by decide)
  · intro h
    have htold := h 1 0 "ls" true rfl (by decide) 4 (by decide) (by decide)
    have hfinished : (run [.request "ls", .resolve true, .cancel 0, .resume 0]).requests[0]? =
        some (.finished .cancelled) := by decide
    rcases htold with ⟨c, hs⟩ | hs
    · cases hfinished.symm.trans hs
    · cases hfinished.symm.trans hs

/-- The same on an event loop: the second task is ready to start when the first is decided. -/
example : ¬ Attended (((({} : Schedule).spawn "ls").settle.spawn "rm").resolve true).1.settle.gate :=
  fun h => absurd (h.shown 1 "rm" (by decide)) (by decide)

example : (((({} : Schedule).spawn "ls").settle.resolve true).1.cancel 0).1.settle.approval? 0 =
    some (.finished .cancelled) := by decide

end CodeAgent.Gate
