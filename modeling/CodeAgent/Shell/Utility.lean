import CodeAgent.Shell.Format
import CodeAgent.Shell.State

namespace CodeAgent.Shell

abbrev Utility := List Text → Bytes → State → State × Output

def finish (s : State) (status : Nat) (o : Output := []) : State × Output := ({ s with status }, o)

def echo : Utility := fun arguments _ s =>
  let (newline, arguments) := match arguments with
    | "-n" :: r => (false, r)
    | r => (true, r)
  let t := Text.joinWith " " arguments
  let (bytes, goesOn) := unescape true (t.length + 1) t
  finish s 0 [(1, bytes ++ (if newline && goesOn then [10] else []))]

def printf : Utility := fun arguments _ s =>
  match arguments with
  | [] => finish s 2 (complain "printf: usage: printf format [arg ...]")
  | pattern :: arguments => finish s 0 [(1, format (arguments.length + 1) pattern arguments)]

def workingDirectory : Utility := fun _ _ s => finish s 0 (say 1 (s.directory.text ++ "\n"))

def exitShell : Utility := fun arguments _ s =>
  match arguments with
  | [] => ({ s with halt := some (.exited s.status) }, [])
  | t :: _ =>
    match Decimal.readInt? t with
    | some (.ofNat n) => ({ s with halt := some (.exited (n % 256)) }, [])
    | _ => ({ s with status := 2, halt := some (.exited 2) }, complain ("exit: Illegal number: " ++ t))

def tidy (p : Path) : Path :=
  { p with parts := p.parts.foldl (fun ps n => if n = (".." : Text) then ps.dropLast else ps ++ [n]) [] }

def changeDirectory : Utility := fun arguments _ s =>
  let target := match arguments with
    | t :: _ => t
    | [] => (s.bindings.get? ("HOME" : Text)).getD []
  let p := tidy (s.at_ target)
  match s.disk.isDirectory p with
  | .ok true => finish { s with directory := p } 0
  | _ => finish s 2 (complain ("cd: can't cd to " ++ target))

def reasonOf (fault : DiskFault) : Text :=
  match fault with
  | .system errno _ => errno.reason
  | fault => fault.message

def options (arguments : List Text) : Text × List Text :=
  let flags := arguments.filter fun a => a.startsWith '-' && 1 < a.length
  ((flags.map (·.drop 1)).flatten, arguments.filter fun a => !(a.startsWith '-' && 1 < a.length))

/-- Does something with every operand in turn; one failure is enough for a failing status. -/
def forEach (failing : Nat) (step : State → Text → State × Output × Bool) (operands : List Text)
    (s : State) : State × Output :=
  let (s, o, ok) := operands.foldl (fun (s, o, ok) operand =>
    let (s, o', ok') := step s operand
    (s, o ++ o', ok && ok')) (s, [], true)
  finish s (if ok then 0 else failing) o

def concatenate : Utility := fun arguments input s =>
  if arguments.isEmpty then finish s 0 [(1, input)]
  else forEach 1 (fun s name =>
    if name = ("-" : Text) then (s, [(1, input)], true)
    else match s.disk.readBytes (s.at_ name) with
      | .ok bytes => (s, [(1, bytes)], true)
      | .error fault => (s, say 2 ("cat: " ++ name ++ ": " ++ reasonOf fault ++ "\n"), false)) arguments s

def listDirectory : Utility := fun arguments _ s =>
  let (flags, operands) := options arguments
  let hidden := flags.any (·.is 'a') || flags.any (·.is 'A')
  forEach 2 (fun s name =>
    match s.disk.isDirectory (s.at_ name) with
    | .ok true =>
      let names := (s.disk.listing (s.at_ name)).toOption.getD []
      let shown := names.filter fun n => hidden || !n.startsWith '.'
      (s, say 1 (shown.flatMap (· ++ "\n")), true)
    | _ =>
      match s.disk.stat (s.at_ name) with
      | .ok _ => (s, say 1 (name ++ "\n"), true)
      | .error fault =>
        (s, say 2 ("ls: cannot access '" ++ name ++ "': " ++ reasonOf fault ++ "\n"), false))
    (if operands.isEmpty then ["."] else operands) s

def touch : Utility := fun arguments _ s =>
  forEach 1 (fun s name =>
    match s.disk.stat (s.at_ name) with
    | .ok _ => (s, [], true)
    | .error _ =>
      match s.disk.openForWriting (s.at_ name) with
      | .ok (_, disk) => ({ s with disk }, [], true)
      | .error fault => (s, say 2 ("touch: cannot touch '" ++ name ++ "': " ++ reasonOf fault ++ "\n"), false))
    (options arguments).2 s

def makeDirectories : Utility := fun arguments _ s =>
  let (flags, operands) := options arguments
  forEach 1 (fun s name =>
    let failed (s : State) (fault : DiskFault) : State × Output × Bool :=
      (s, say 2 ("mkdir: cannot create directory '" ++ name ++ "': " ++ reasonOf fault ++ "\n"), false)
    if flags.any (·.is 'p') then
      match s.disk.ensureDirectories (s.at_ name) with
      | (disk, .ok _) => ({ s with disk }, [], true)
      | (disk, .error fault) => failed { s with disk } fault
    else
      match s.disk.makeDirectory (s.at_ name) with
      | .ok disk => ({ s with disk }, [], true)
      | .error fault => failed s fault) operands s

def removeFiles : Utility := fun arguments _ s =>
  let (flags, operands) := options arguments
  let forced := flags.any (·.is 'f')
  forEach 1 (fun s name =>
    let failed (reason : Text) : State × Output × Bool :=
      (s, say 2 ("rm: cannot remove '" ++ name ++ "': " ++ reason ++ "\n"), false)
    match s.disk.remove (s.at_ name) with
    | .ok disk => ({ s with disk }, [], true)
    | .error (.system .isDirectory _) =>
      if flags.any (·.is 'r') || flags.any (·.is 'R') then
        match s.disk.locate false (s.at_ name) with
        | .ok place => ({ s with disk := s.disk.eraseBelow place }, [], true)
        | .error fault => failed (reasonOf fault)
      else failed "Is a directory"
    | .error (.system .noEntry p) => if forced then (s, [], true) else failed (reasonOf (.system .noEntry p))
    | .error fault => failed (reasonOf fault)) operands s

def milliseconds (t : Text) : Nat :=
  match Decimal.readFloat? t with
  | some x =>
    let (n, d) := x.ratio
    n * 1000 / d
  | none => 0

def sleep : Utility := fun arguments _ s =>
  finish (s.sleep ((arguments.map milliseconds).foldl (· + ·) 0)) 0

def sequence : Utility := fun arguments _ s =>
  let numbers := arguments.filterMap Decimal.readInt?
  let (first, last) := match numbers with
    | [last] => (1, last)
    | [first, last] => (first, last)
    | [first, _, last] => (first, last)
    | _ => (1, 0)
  let count := (last - first + 1).toNat
  finish s 0 (say 1 ((List.range count).flatMap fun (i : Nat) => Text.ofInt (first + i) ++ "\n"))

def ownProcess : Text := "4242"

def signal (t : Text) : Nat :=
  match (Decimal.readInt? t), (t.toString?.getD "") with
  | some n, _ => n.natAbs
  | none, "KILL" => 9
  | none, "INT" => 2
  | none, _ => 15

def killProcess : Utility := fun arguments _ s =>
  let (flags, operands) := options arguments
  if operands = [ownProcess] then
    ({ s with halt := some (.killed (if flags.isEmpty then 15 else signal flags)) }, [])
  else finish s 1 (complain "kill: No such process")

def condition (s : State) : List Text → Bool
  | [t] => !t.isEmpty
  | ["!", t] => t.isEmpty
  | [op, t] =>
    match op.toString?.getD "" with
    | "-n" => !t.isEmpty
    | "-z" => t.isEmpty
    | "-e" => (s.disk.stat (s.at_ t)).toOption.isSome
    | "-f" => (s.disk.isFile (s.at_ t)).toOption = some true
    | "-d" => (s.disk.isDirectory (s.at_ t)).toOption = some true
    | _ => false
  | ["!", op, t] => !condition s [op, t]
  | [a, op, b] =>
    let number (t : Text) : Int := (Decimal.readInt? t).getD 0
    match op.toString?.getD "" with
    | "=" => a = b
    | "!=" => a ≠ b
    | "-eq" => number a = number b
    | "-ne" => number a ≠ number b
    | "-lt" => number a < number b
    | "-gt" => number b < number a
    | _ => false
  | _ => false

def test : Utility := fun arguments _ s => finish s (if condition s arguments then 0 else 1)

def inputLines (input : Bytes) : List Bytes :=
  let (lines, last) := input.foldr (fun b (lines, line) =>
    if b = 10 then (if lines.isEmpty && line.isEmpty then ([], [10]) else (line :: lines, [10]))
    else (lines, b :: line)) (([] : List Bytes), ([] : Bytes))
  if last.isEmpty then lines else last :: lines

def lineCount (arguments : List Text) : Nat :=
  ((arguments.filterMap fun a =>
    Decimal.readInt? (a.dropWhile fun c => c.is '-' || c.is 'n')).head?.map Int.natAbs).getD 10

def head : Utility := fun arguments input s =>
  finish s 0 [(1, ((inputLines input).take (lineCount arguments)).flatten)]

def tail : Utility := fun arguments input s =>
  let lines := inputLines input
  finish s 0 [(1, (lines.drop (lines.length - lineCount arguments)).flatten)]

def wordCount : Utility := fun arguments input s =>
  let count := if arguments = [("-c" : Text)] then input.length else (input.filter (· = 10)).length
  finish s 0 (say 1 (Text.ofNat count ++ "\n"))

def succeed : Utility := fun _ _ s => finish s 0
def failQuietly : Utility := fun _ _ s => finish s 1

def utilities : Table Text Utility :=
  [("true", succeed), (":", succeed), ("false", failQuietly), ("echo", echo), ("printf", printf),
   ("pwd", workingDirectory), ("exit", exitShell), ("cd", changeDirectory), ("cat", concatenate),
   ("ls", listDirectory), ("touch", touch), ("mkdir", makeDirectories), ("rm", removeFiles),
   ("sleep", sleep), ("seq", sequence), ("kill", killProcess), ("test", test),
   ("[", fun arguments => test arguments.dropLast), ("head", head), ("tail", tail), ("wc", wordCount)]

end CodeAgent.Shell
