import CodeAgent.Disk.Access
import CodeAgent.Table

namespace CodeAgent.Shell

/-- Why a shell stops before its script ends. -/
inductive Halt where
  | exited (code : Nat)
  | killed (signal : Nat)
  | outOfTime
deriving DecidableEq

structure State where
  disk : Disk
  directory : Path
  bindings : Table Text Text := []
  status : Nat := 0
  /-- Milliseconds since the start, and how many there are. -/
  elapsed : Nat := 0
  limit : Option Nat := none
  halt : Option Halt := none

abbrev Output := List (Nat × Bytes)

def Output.on (o : Output) (descriptor : Nat) : Bytes :=
  (o.filterMap fun (n, bytes) => if n = descriptor then some bytes else none).flatten

def say (descriptor : Nat) (t : Text) : Output := [(descriptor, Utf8.encodeAny t)]

def complain (t : Text) : Output := say 2 ("/bin/sh: 1: " ++ t ++ "\n")

def State.at_ (s : State) (name : Text) : Path := s.directory.join (Path.ofText name)

def State.sleep (s : State) (milliseconds : Nat) : State :=
  let elapsed := s.elapsed + milliseconds
  match s.limit with
  | some limit =>
    if limit < elapsed then { s with elapsed := limit, halt := some .outOfTime }
    else { s with elapsed }
  | none => { s with elapsed }

end CodeAgent.Shell
