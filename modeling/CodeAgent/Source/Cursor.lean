import CodeAgent.Source.Syntax

namespace CodeAgent.Source

/-- The tokens that are left, and the last line of the token before them. -/
structure Cursor where
  tokens : List Token
  lastLine : Nat

def TokenKind.isLayout : TokenKind → Bool
  | .newline | .indent | .dedent | .stop => true
  | _ => false

def Token.lastLine (t : Token) (before : Nat) : Nat := if t.kind.isLayout then before else t.endLine

namespace Cursor

/-- Where taking tokens can lead. -/
inductive Leads : Cursor → Cursor → Prop where
  | refl (c : Cursor) : Leads c c
  | take {t : Token} {rest : List Token} {before : Nat} {c : Cursor} :
      Leads ⟨rest, t.lastLine before⟩ c → Leads ⟨t :: rest, before⟩ c

theorem Leads.trans {a b c : Cursor} (h : Leads a b) (h' : Leads b c) : Leads a c := by
  induction h with
  | refl _ => exact h'
  | take _ ih => exact .take (ih h')

end Cursor

structure Reader (α : Type) where
  read : Cursor → Option (α × Cursor)
  forward : ∀ {c c' : Cursor} {a : α}, read c = some (a, c') → c.Leads c'

namespace Reader

def look {α : Type} (f : Cursor → Option α) : Reader α where
  read c := (f c).map fun a => (a, c)
  forward h := by
    obtain ⟨_, _, he⟩ := Option.map_eq_some_iff.mp h
    obtain ⟨-, rfl⟩ := Prod.mk.inj he
    exact .refl _

def andThen {α β : Type} (p : Reader α) (f : α → Reader β) : Reader β where
  read c :=
    match p.read c with
    | some (a, c') => (f a).read c'
    | none => none
  forward h := by
    split at h
    · rename_i hp
      exact (p.forward hp).trans ((f _).forward h)
    · cases h

instance : Monad Reader where
  pure a := look fun _ => some a
  bind := andThen

def fail {α : Type} : Reader α := look fun _ => none

def peek : Reader TokenKind := look fun c => some ((c.tokens.head?.map Token.kind).getD .stop)

def peekSecond : Reader TokenKind :=
  look fun c => some ((c.tokens.tail.head?.map Token.kind).getD .stop)

def line : Reader Nat := look fun c => some ((c.tokens.head?.map Token.line).getD 0)

def lastLine : Reader Nat := look fun c => some c.lastLine

def takeIf (test : TokenKind → Bool) : Reader Bool where
  read c :=
    match c.tokens with
    | t :: rest => if test t.kind then some (true, ⟨rest, t.lastLine c.lastLine⟩) else some (false, c)
    | [] => some (false, c)
  forward h := by
    rename_i c _ _
    obtain ⟨tokens, before⟩ := c
    cases tokens with
    | nil =>
      cases h
      exact .refl _
    | cons t rest =>
      dsimp only at h
      split at h
      · cases h
        exact .take (.refl _)
      · cases h
        exact .refl _

def accept (kind : TokenKind) : Reader Bool := takeIf (· = kind)

def advance : Reader Unit := do
  if ← takeIf fun _ => true then pure () else fail

def expect (kind : TokenKind) : Reader Unit := do
  if ← accept kind then pure () else fail

def atMark (s : String) : Reader Bool := do
  pure ((← peek) == .mark s)

def acceptMark (s : String) : Reader Bool := accept (.mark s)

def mark (s : String) : Reader Unit := expect (.mark s)

def spelling : Reader (List Char) := do
  match ← peek with
  | .name cs => advance; pure cs
  | _ => fail

variable [Host]

def name : Reader Text := do pure (Identifier.text (← spelling))

def softWord (w : String) : Reader Unit := expect (.name w.toList)

def ahead {α : Type} (p : Reader α) : Reader α := look fun c => (p.read c).map (·.1)

def wouldFail {α : Type} (p : Reader α) : Reader Bool := look fun c => some (p.read c).isNone

def either {α : Type} (p q : Reader α) : Reader α where
  read c :=
    match p.read c with
    | some r => some r
    | none => q.read c
  forward h := by
    split at h
    · rename_i hp
      exact p.forward (hp.trans h)
    · exact q.forward h

def optional {α : Type} (p : Reader α) : Reader (Option α) :=
  either (do pure (some (← p))) (pure none)

def remaining : Reader Nat := look fun c => some c.tokens.length

def whileTrue {α : Type} (test : Reader Bool) (item : Reader α) : Nat → Reader (List α)
  | 0 => pure []
  | n + 1 => do
    if ← test then
      let a ← item
      let r ← whileTrue test item n
      pure (a :: r)
    else pure []

def repeatWhile {α : Type} (test : Reader Bool) (item : Reader α) : Reader (List α) := do
  whileTrue test item (← remaining)

def separated {α : Type} (sep : String) (item : Reader α) : Reader (List α) := do
  let a ← item
  let r ← repeatWhile (acceptMark sep) item
  pure (a :: r)

/-- Items with commas between them, at least one; a comma may close the list unless `stop` holds, and
the flag says whether there is a comma. -/
def commaList {α : Type} (stop : Reader Bool) (item : Reader α) : Reader (List α × Bool) := do
  let a ← item
  let r ← repeatWhile (do if (← atMark ",") then (do pure (!(← afterComma))) else pure false)
    (do mark ","; item)
  let closed ← acceptMark ","
  pure (a :: r, closed || !r.isEmpty)
where
  afterComma : Reader Bool := ahead do mark ","; stop

end Reader
end CodeAgent.Source
