import CodeAgent.Json.Value

namespace CodeAgent

/-- One entry of a conversation. -/
structure Message where
  role : Text
  content : Text
deriving DecidableEq

inductive Request where
  | post (url : Text) (bearer : Option Text) (body : Json)
  | chat (model : Text) (messages : List Message) (temperature : Json)
  | embed (model : Text) (texts : List Text)
  | listModels

/-- What a local client hands out: plain data, an object that dumps to data, or an object with
attributes. -/
inductive ClientValue where
  | plain (v : Json)
  | dumped (v : Json)
  | attributes (fields : List (Text × Json))

inductive Reply where
  | http (status : Int) (body : Text)
  | transportError (reason : Text)
  | client (value : ClientValue)
  /-- The client's own failure, with the reason that it gives. -/
  | refused (reason : Text) (status : Int)
  | unreachable (reason : Text)

/-- A conversation with a provider that ends in a value. Waits are counted in tenths of a second. -/
inductive Dialogue (α : Type) where
  | done (value : α)
  | ask (request : Request) (next : Reply → Dialogue α)
  | wait (tenths : Nat) (next : Dialogue α)

namespace Dialogue

def bind {α β : Type} : Dialogue α → (α → Dialogue β) → Dialogue β
  | done a, f => f a
  | ask r next, f => ask r fun reply => (next reply).bind f
  | wait t next, f => wait t (next.bind f)

/-- What came of a run: the requests and the waits in order, and the value, none when the replies ran
out before the end. -/
structure Outcome (α : Type) where
  requests : List Request := []
  waits : List Nat := []
  value : Option α

def run {α : Type} : Dialogue α → List Reply → Outcome α
  | done a, _ => { value := some a }
  | wait t next, replies =>
    let rest := next.run replies
    { rest with waits := t :: rest.waits }
  | ask r _, [] => { requests := [r], value := none }
  | ask r next, reply :: replies =>
    let rest := (next reply).run replies
    { rest with requests := r :: rest.requests }

end Dialogue
end CodeAgent
