import CodeAgent.Text.Basic

namespace CodeAgent

inductive Verdict where
  | decided (approved : Bool)
  | cancelled
deriving DecidableEq

/-- How far a request for approval has come. -/
inductive Approval where
  /-- No decision yet. -/
  | waiting (command : Text)
  /-- Settled, but the one who asked has not resumed. -/
  | settled (command : Text) (verdict : Verdict)
  /-- The one who asked has resumed with this verdict. -/
  | finished (verdict : Verdict)
  /-- Refused because another command was waiting. -/
  | busy (other : Text)
deriving DecidableEq

/-- Every request so far by its number, and the number of the one that holds the slot. -/
structure Gate where
  autoApprove : Bool := false
  slot : Option Nat := none
  requests : List Approval := []
deriving DecidableEq

namespace Gate

def busyMessage (other : Text) : Text := "Another command is already awaiting approval: " ++ other

def pending (g : Gate) : Option Text :=
  match g.slot.bind (g.requests[·]?) with
  | some (.waiting command) => some command
  | _ => none

def request (g : Gate) (command : Text) : Gate :=
  if g.autoApprove then { g with requests := g.requests ++ [.finished (.decided true)] }
  else
    match g.pending with
    | some other => { g with requests := g.requests ++ [.busy other] }
    | none => { g with slot := some g.requests.length, requests := g.requests ++ [.waiting command] }

/-- Delivers a decision to the command that waits, if there is one. -/
def resolve (g : Gate) (approved : Bool) : Gate × Bool :=
  match g.slot with
  | none => (g, false)
  | some n =>
    match g.requests[n]? with
    | some (.waiting command) =>
      ({ g with requests := g.requests.set n (.settled command (.decided approved)) }, true)
    | _ => (g, false)

/-- Gives a request up. One that was decided but has not resumed is given up too. -/
def cancel (g : Gate) (n : Nat) : Gate × Bool :=
  match g.requests[n]? with
  | some (.waiting command) | some (.settled command _) =>
    ({ g with requests := g.requests.set n (.settled command .cancelled) }, true)
  | _ => (g, false)

def resume (g : Gate) (n : Nat) : Gate :=
  match g.requests[n]? with
  | some (.settled _ verdict) =>
    { g with slot := none, requests := g.requests.set n (.finished verdict) }
  | _ => g

def resumeAll (g : Gate) : Gate := (List.range g.requests.length).foldl resume g

end Gate
end CodeAgent
