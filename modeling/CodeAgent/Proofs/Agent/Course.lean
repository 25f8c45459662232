import CodeAgent.Agent.Execute

namespace CodeAgent

/-- What is seen on a way through a course. -/
inductive Seen where
  | told (step : Step)
  | asked (before : Bench) (messages : List Message) (reply : Except BackendFault Text) (after : Bench)
  | waited (before : Bench) (request : Nat) (after : Bench)
  | ran (setting : Setting) (before : Bench) (command : Text) (result : Except ToolFault CommandResult) (after : Bench)

def Seen.call? : Seen → Option (List Message × Except BackendFault Text)
  | .asked _ messages reply _ => some (messages, reply)
  | _ => none

def Seen.step? : Seen → Option Step
  | .told step => some step
  | _ => none

def calls (seen : List Seen) : List (List Message × Except BackendFault Text) := seen.filterMap Seen.call?

def told (seen : List Seen) : List Step := seen.filterMap Seen.step?

theorem calls_append (l m : List Seen) : calls (l ++ m) = calls l ++ calls m := List.filterMap_append

theorem told_append (l m : List Seen) : told (l ++ m) = told l ++ told m := List.filterMap_append

theorem told_cons (e : Seen) (l : List Seen) : told (e :: l) = e.step?.toList ++ told l := by
  cases e <;> rfl

theorem calls_cons (e : Seen) (l : List Seen) : calls (e :: l) = e.call?.toList ++ calls l := by
  cases e <;> rfl

namespace Course

variable {α β : Type}

/-- A way through a course: what is seen on it, what the tools work on in the end, and the value, which a course
that is given up does not have. -/
inductive Way : Course α → List Seen → Bench → Option α → Prop
  | done {b : Bench} {a : α} : Way (.done b a) [] b (some a)
  | tell {step : Step} {next : Course α} {seen : List Seen} {e : Bench} {v : Option α} (h : Way next seen e v) :
      Way (.tell step next) (.told step :: seen) e v
  | askModel {b b' : Bench} {messages : List Message} {next : Bench → Except BackendFault Text → Course α}
      {reply : Except BackendFault Text} {seen : List Seen} {e : Bench} {v : Option α}
      (h : Way (next b' reply) seen e v) : Way (.askModel b messages next) (.asked b messages reply b' :: seen) e v
  | awaitApproval {b b' : Bench} {n : Nat} {next : Bench → Course α} {seen : List Seen} {e : Bench} {v : Option α}
      (h : Way (next b') seen e v) : Way (.awaitApproval b n next) (.waited b n b' :: seen) e v
  | run {s : Setting} {b b' : Bench} {command : Text} {next : Bench → Except ToolFault CommandResult → Course α}
      {result : Except ToolFault CommandResult} {seen : List Seen} {e : Bench} {v : Option α}
      (h : Way (next b' result) seen e v) : Way (.run s b command next) (.ran s b command result b' :: seen) e v
  | givenUp {c : Course α} {e : Bench} : Way c [] e none

variable {seen : List Seen} {e : Bench}

/-- A way through two courses in a row goes through the first to its value, or is given up in it. -/
theorem Way.of_bind {c : Course α} {f : Bench → α → Course β} {v : Option β} (h : Way (c.bind f) seen e v) :
    (∃ first b a rest, Way c first b (some a) ∧ Way (f b a) rest e v ∧ seen = first ++ rest) ∨
      v = none ∧ Way c seen e none := by
  induction c generalizing seen with
  | done b a => exact Or.inl ⟨[], b, a, seen, .done, h, rfl⟩
  | tell step next ih =>
    cases h with
    | tell h =>
      rcases ih h with ⟨first, b, a, rest, hfirst, hrest, rfl⟩ | ⟨hv, hnext⟩
      · exact Or.inl ⟨_, b, a, rest, .tell hfirst, hrest, rfl⟩
      · exact Or.inr ⟨hv, .tell hnext⟩
    | givenUp => exact Or.inr ⟨rfl, .givenUp⟩
  | askModel b messages next ih =>
    cases h with
    | askModel h =>
      rcases ih _ _ h with ⟨first, b, a, rest, hfirst, hrest, rfl⟩ | ⟨hv, hnext⟩
      · exact Or.inl ⟨_, b, a, rest, .askModel hfirst, hrest, rfl⟩
      · exact Or.inr ⟨hv, .askModel hnext⟩
    | givenUp => exact Or.inr ⟨rfl, .givenUp⟩
  | awaitApproval b n next ih =>
    cases h with
    | awaitApproval h =>
      rcases ih _ h with ⟨first, b, a, rest, hfirst, hrest, rfl⟩ | ⟨hv, hnext⟩
      · exact Or.inl ⟨_, b, a, rest, .awaitApproval hfirst, hrest, rfl⟩
      · exact Or.inr ⟨hv, .awaitApproval hnext⟩
    | givenUp => exact Or.inr ⟨rfl, .givenUp⟩
  | run s b command next ih =>
    cases h with
    | run h =>
      rcases ih _ _ h with ⟨first, b, a, rest, hfirst, hrest, rfl⟩ | ⟨hv, hnext⟩
      · exact Or.inl ⟨_, b, a, rest, .run hfirst, hrest, rfl⟩
      · exact Or.inr ⟨hv, .run hnext⟩
    | givenUp => exact Or.inr ⟨rfl, .givenUp⟩
  | cancelled b =>
    cases h with
    | givenUp => exact Or.inr ⟨rfl, .givenUp⟩

/-- A script with decisions goes one of the ways. -/
theorem way_drive (c : Course α) (script : Script) (asked : List (List Message)) (decisions : List Bool) :
    ∃ seen, Way c seen (c.drive script asked decisions).bench (c.drive script asked decisions).value ∧
      (c.drive script asked decisions).steps = told seen ∧
      (c.drive script asked decisions).calls = asked ++ (calls seen).map (·.1) := by
  induction c generalizing asked decisions with
  | done b a => exact ⟨[], .done, rfl, (List.append_nil asked).symm⟩
  | tell step next ih =>
    obtain ⟨seen, hway, hsteps, hcalls⟩ := ih asked decisions
    exact ⟨_, .tell hway, congrArg (step :: ·) hsteps, hcalls⟩
  | askModel b messages next ih =>
    obtain ⟨seen, hway, hsteps, hcalls⟩ := ih b (script asked messages) (asked ++ [messages]) decisions
    refine ⟨_, .askModel hway, hsteps, hcalls.trans ?_⟩
    rw [List.append_assoc]
    rfl
  | awaitApproval b n next ih =>
    obtain ⟨seen, hway, hsteps, hcalls⟩ := ih _ asked decisions.tail
    exact ⟨_, .awaitApproval hway, hsteps, hcalls⟩
  | run s b command next ih =>
    obtain ⟨seen, hway, hsteps, hcalls⟩ := ih _ _ asked decisions
    exact ⟨_, .run hway, hsteps, hcalls⟩
  | cancelled b => exact ⟨[], .givenUp, rfl, (List.append_nil asked).symm⟩

/-- A guide goes one of the ways. -/
theorem way_guided {σ : Type} (c : Course α) (g : Guide σ) (state : σ) :
    ∃ seen, Way c seen (c.guided g state).bench (c.guided g state).value ∧ (c.guided g state).steps = told seen := by
  induction c generalizing state with
  | done b a => exact ⟨[], .done, rfl⟩
  | tell step next ih =>
    obtain ⟨seen, hway, hsteps⟩ := ih state
    exact ⟨_, .tell hway, congrArg (step :: ·) hsteps⟩
  | askModel b messages next ih =>
    obtain ⟨seen, hway, hsteps⟩ := ih b (g.answer state messages).2 (g.answer state messages).1
    exact ⟨_, .askModel hway, hsteps⟩
  | awaitApproval b n next ih =>
    obtain ⟨seen, hway, hsteps⟩ := ih (g.settle state b).2 (g.settle state b).1
    exact ⟨_, .awaitApproval hway, hsteps⟩
  | run s b command next ih =>
    obtain ⟨seen, hway, hsteps⟩ := ih (b.runCommand s command).1 (b.runCommand s command).2 state
    exact ⟨_, .run hway, hsteps⟩
  | cancelled b => exact ⟨[], .givenUp, rfl⟩

def Quiet (c : Course α) : Prop := ∀ seen e v, Way c seen e v → calls seen = []

theorem quiet_done (b : Bench) (a : α) : Quiet (.done b a) := by
  intro seen e v h
  cases h <;> rfl

theorem quiet_cancelled (b : Bench) : Quiet (.cancelled b : Course α) := by
  intro seen e v h
  cases h
  rfl

theorem quiet_tell {step : Step} {next : Course α} (hn : Quiet next) : Quiet (.tell step next) := by
  intro seen e v h
  cases h with
  | tell h =>
    have hrest := hn _ _ _ h
    exact hrest
  | givenUp => rfl

theorem quiet_awaitApproval {b : Bench} {n : Nat} {next : Bench → Course α} (hn : ∀ b, Quiet (next b)) :
    Quiet (.awaitApproval b n next) := by
  intro seen e v h
  cases h with
  | awaitApproval h =>
    have hrest := hn _ _ _ _ h
    exact hrest
  | givenUp => rfl

theorem quiet_run {s : Setting} {b : Bench} {command : Text} {next : Bench → Except ToolFault CommandResult → Course α}
    (hn : ∀ b result, Quiet (next b result)) : Quiet (.run s b command next) := by
  intro seen e v h
  cases h with
  | run h =>
    have hrest := hn _ _ _ _ _ h
    exact hrest
  | givenUp => rfl

end Course

namespace Bench

open Course

theorem quiet_afterVerdict (s : Setting) (command : Text) (iteration : Option Nat) (b : Bench)
    (verdict : Option Approval) :
    Quiet (b.afterVerdict s command iteration verdict) := by
  unfold afterVerdict
  split
  · exact quiet_tell (quiet_run fun b result => quiet_done _ _)
  · exact quiet_done _ _
  · exact quiet_done _ _
  · exact quiet_cancelled b

variable [Host]

/-- Executing a call never asks the model. -/
theorem quiet_execute (s : Setting) (b : Bench) (call : ToolCall) (iteration : Option Nat) :
    Quiet (b.execute s call iteration) := by
  unfold execute
  split
  · exact quiet_done _ _
  · unfold command
    refine quiet_tell ?_
    dsimp only
    split
    · exact quiet_awaitApproval fun b => quiet_afterVerdict _ _ _ _ _
    · exact quiet_afterVerdict _ _ _ _ _
  · exact quiet_done _ _

end Bench
end CodeAgent
