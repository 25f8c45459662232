import CodeAgent.Command.Runner
import CodeAgent.Shell.Token
import CodeAgent.Shell.Utility
import CodeAgent.Text.Glob

namespace CodeAgent.Shell

/-- How a pipeline hangs on the status of the one before it. -/
inductive Connector where
  | always | ifOk | ifFailed
deriving DecidableEq

/-- A single command, or a group in parentheses, with its redirections. -/
structure Step where
  words : List (List Piece) := []
  group : Option (List Token) := none
  redirects : List (Nat × RedirectMode × List Piece) := []

/-- The tokens up to the parenthesis that closes a group, and those after it. -/
def groupTokens : (depth : Nat) → List Token → Option (List Token × List Token)
  | _, [] => none
  | depth, token :: r =>
    let keep (depth : Nat) : Option (List Token × List Token) :=
      (groupTokens depth r).map fun (s, r) => (token :: s, r)
    if token = .operator "(" then keep (depth + 1)
    else if token = .operator ")" then
      match depth with
      | 0 => some ([], r)
      | n + 1 => keep n
    else keep depth

def readStep : (fuel : Nat) → Step → List Token → Except SyntaxFault (Step × List Token)
  | 0, step, r => .ok (step, r)
  | _, step, [] => .ok (step, [])
  | n + 1, step, .word pieces :: r => readStep n { step with words := step.words ++ [pieces] } r
  | n + 1, step, .redirect fd mode :: .word target :: r =>
    readStep n { step with redirects := step.redirects ++ [(fd, mode, target)] } r
  | _, _, .redirect _ _ :: [] => .error (.unexpected "end of file")
  | _, _, .redirect _ _ :: _ => .error (.unexpected "redirection")
  | n + 1, step, .operator t :: r =>
    if t = ("(" : Text) && step.words.isEmpty && step.group.isNone then
      match groupTokens 0 r with
      | some (inside, rest) => readStep n { step with group := some inside } rest
      | none => .error .openSubstitution
    else .ok (step, .operator t :: r)

def Step.isEmpty (s : Step) : Bool := s.words.isEmpty && s.group.isNone && s.redirects.isEmpty

def readPipeline : (fuel : Nat) → List Token → Except SyntaxFault (List Step × List Token)
  | 0, r => .ok ([], r)
  | n + 1, r => do
    let (step, rest) ← readStep (r.length + 1) {} r
    match rest with
    | .operator t :: later =>
      if t = ("|" : Text) then
        if step.isEmpty then .error (.unexpected "\"|\"")
        else
          let (steps, rest) ← readPipeline n later
          .ok (step :: steps, rest)
      else .ok ([step], rest)
    | _ => .ok ([step], rest)

def readList : (fuel : Nat) → Connector → List Token →
    Except SyntaxFault (List (Connector × List Step))
  | 0, _, _ | _, _, [] => .ok []
  | n + 1, connector, r => do
    let (steps, rest) ← readPipeline (r.length + 1) r
    let empty := steps.all Step.isEmpty
    match rest with
    | [] =>
      if empty && connector ≠ .always then .error (.unexpected "end of file")
      else .ok (if empty then [] else [(connector, steps)])
    | .operator t :: later =>
      if empty || t = (")" : Text) || t = (";;" : Text) then .error (.unexpected ("\"" ++ t ++ "\""))
      else
        let next := if t = ("&&" : Text) then Connector.ifOk
          else if t = ("||" : Text) then .ifFailed else .always
        return (connector, steps) :: (← readList n next later)
    | _ => .error (.unexpected "word")

/-- A character of an expanded word: it may be quoted; a gap is where unquoted blanks were. -/
inductive Mark where
  | point (c : CodePoint) (quoted : Bool)
  | gap
  /-- Quotes around nothing still make a word. -/
  | present

def unquotedMarks (t : Text) : List Mark :=
  t.map fun c => if isBlankPoint c || c = '\n' then .gap else .point c false

def words : (current : Option (List (CodePoint × Bool))) → List Mark → List (List (CodePoint × Bool))
  | none, [] => []
  | some w, [] => [w.reverse]
  | none, .gap :: r => words none r
  | some w, .gap :: r => w.reverse :: words none r
  | current, .present :: r => words (some (current.getD [])) r
  | current, .point c quoted :: r => words (some ((c, quoted) :: current.getD [])) r

/-- File names that a word with unquoted stars or question marks stands for, else the word. -/
def spread (s : State) (word : List (CodePoint × Bool)) : List Text :=
  let t := word.map (·.1)
  let isPattern := word.any fun (c, quoted) => !quoted && (c.is '*' || c.is '?' || c.is '[')
  if isPattern && !t.any (·.is '/') then
    let names := ((s.disk.listing s.directory).toOption.getD []).filter fun name =>
      Glob.isMatch t name && (Text.startsWith t '.' || !name.startsWith '.')
    if names.isEmpty then [t] else names
  else [t]

abbrev RunText := Text → State → State × Output

def parameterValue (s : State) (name : Text) : Text :=
  match name.toString?.getD "" with
  | "?" => Text.ofNat s.status
  | "$" => ownProcess
  | "#" => "0"
  | "0" => "/bin/sh"
  | _ => (s.bindings.get? name).getD []

/-- The output of a command without the line ends that close it. -/
def outputText (bytes : Bytes) : Text :=
  Text.dropEndWhile (· = Text.newline) (Utf8.decodeLossy bytes)

/-- Runs in a shell of its own: only the disk, the time and a kill come back. -/
def inner (run : State → State × Output) (s : State) : State × Output :=
  let (t, o) := run s
  let status := match t.halt with
    | some (.exited code) => code
    | _ => t.status
  let halt := match t.halt with
    | some (.exited _) => none
    | halt => halt
  ({ s with disk := t.disk, elapsed := t.elapsed, status, halt }, o)

def expandPiece (run : RunText) (s : State) : Piece → State × List Mark × Output
  | .literal t quoted =>
    (s, (if quoted then .present :: t.map (.point · true) else t.map (.point · false)), [])
  | .parameter name quoted =>
    let t := parameterValue s name
    (s, (if quoted then .present :: t.map (.point · true) else unquotedMarks t), [])
  | .output script quoted =>
    let (s, o) := inner (run script) s
    let t := outputText (o.on 1)
    (s, (if quoted then .present :: t.map (.point · true) else unquotedMarks t),
      o.filter fun (n, _) => n ≠ 1)

def expandWord (run : RunText) (s : State) (pieces : List Piece) : State × List Text × Output :=
  let (s, marks, o) := pieces.foldl (fun (s, marks, o) piece =>
    let (s, marks', o') := expandPiece run s piece
    (s, marks ++ marks', o ++ o')) (s, [], [])
  (s, (words none marks).flatMap (spread s), o)

def expandWords (run : RunText) (s : State) (ws : List (List Piece)) : State × List Text × Output :=
  ws.foldl (fun (s, ts, o) w =>
    let (s, ts', o') := expandWord run s w
    (s, ts ++ ts', o ++ o')) (s, [], [])

def assignment? (t : Text) : Option (Text × Text) :=
  let name := t.takeWhile isNamePoint
  if !name.isEmpty && isNameStart (name.headD default) && Text.startsWith (t.drop name.length) '=' then
    some (name, t.drop (name.length + 1))
  else none

def runWords (input : Bytes) (s : State) : List Text → State × Output
  | [] => (s, [])
  | name :: arguments =>
    match assignment? name, arguments with
    | some (name, value), [] => finish { s with bindings := s.bindings.set name value } 0
    | _, _ =>
      match utilities.get? name with
      | some utility => utility arguments input s
      | none =>
        if name = ("exec" : Text) then
          match arguments with
          | [] => finish s 0
          | inner :: rest =>
            match utilities.get? inner with
            | some utility =>
              let (s, o) := utility rest input s
              ({ s with halt := some (s.halt.getD (.exited s.status)) }, o)
            | none =>
              ({ s with halt := some (.exited 127) }, complain ("exec: " ++ inner ++ ": not found"))
        else finish s 127 (complain (name ++ ": not found"))

/-- Where the output of a command goes: to a descriptor of the shell, or to a file. -/
inductive Target where
  | descriptor (n : Nat)
  | file (place : Place)
  | nowhere

structure Plumbing where
  out : Target := .descriptor 1
  err : Target := .descriptor 2
  input : Bytes

def connect (run : RunText) (s : State) (p : Plumbing) :
    List (Nat × RedirectMode × List Piece) → State × Except Text Plumbing
  | [] => (s, .ok p)
  | (fd, mode, pieces) :: r =>
    let (s, names, _) := expandWord run s pieces
    let name := Text.joinWith " " names
    let set (s : State) (t : Target) : State × Except Text Plumbing :=
      connect run s (if fd = 2 then { p with err := t } else { p with out := t }) r
    match mode with
    | .copy => set s (if name = ("2" : Text) then p.err else p.out)
    | .read =>
      match s.disk.readBytes (s.at_ name) with
      | .ok bytes => connect run s { p with input := bytes } r
      | .error _ => (s, .error ("cannot open " ++ name ++ ": No such file"))
    | .write | .append =>
      if name = ("/dev/null" : Text) then set s .nowhere
      else
        match s.disk.openForWriting (s.at_ name) with
        | .error (.system .noEntry _) =>
          (s, .error ("cannot create " ++ name ++ ": Directory nonexistent"))
        | .error fault => (s, .error ("cannot create " ++ name ++ ": " ++ reasonOf fault))
        | .ok (place, disk) =>
          let old := match s.disk.lookup? place with
            | some (.file bytes) => bytes
            | _ => []
          set { s with disk := if mode = .append then disk.put place (.file old) else disk } (.file place)

def deliver (p : Plumbing) (s : State) (o : Output) : State × Output :=
  o.foldl (fun (s, kept) (n, bytes) =>
    match if n = 2 then p.err else p.out with
    | .descriptor m => (s, kept ++ [(m, bytes)])
    | .nowhere => (s, kept)
    | .file place =>
      let old := match s.disk.lookup? place with
        | some (.file old) => old
        | _ => []
      ({ s with disk := s.disk.put place (.file (old ++ bytes)) }, kept)) (s, [])

/-- How tokens run: the tokens of a group and the input they share. -/
abbrev RunTokens := List Token → Bytes → State → State × Output

def runStep (runText : RunText) (runTokens : RunTokens) (input : Bytes) (s : State) (step : Step) :
    State × Output :=
  let (s, ws, early) := expandWords runText s step.words
  match connect runText s { input } step.redirects with
  | (s, .error reason) =>
    let (s, o) := finish s 2 (complain reason)
    (s, early ++ o)
  | (s, .ok plumbing) =>
    let (s, o) := match step.group with
      | some tokens => inner (runTokens tokens plumbing.input) s
      | none => runWords plumbing.input s ws
    let (s, o) := deliver plumbing s o
    (s, early ++ o)

/-- Runs commands joined by pipes. All but a command alone run in shells of their own. -/
def runPipeline (runText : RunText) (runTokens : RunTokens) (input : Bytes) (s : State) :
    List Step → State × Output
  | [] => (s, [])
  | [step] => runStep runText runTokens input s step
  | step :: r =>
    let (s, o) := inner (fun s => runStep runText runTokens input s step) s
    if s.halt.isSome then (s, o)
    else
      let (s, o') := inner (fun s => runPipeline runText runTokens (o.on 1) s r) s
      (s, o.filter (fun (n, _) => n ≠ 1) ++ o')

/-- An exclamation mark in front turns the status of a pipeline round. -/
def runNegated (runText : RunText) (runTokens : RunTokens) (input : Bytes) (s : State)
    (steps : List Step) : State × Output :=
  match steps with
  | { words := [.literal "!" false] :: ws, group, redirects } :: r =>
    let (s, o) := runPipeline runText runTokens input s ({ words := ws, group, redirects } :: r)
    ({ s with status := if s.status = 0 then 1 else 0 }, o)
  | steps => runPipeline runText runTokens input s steps

def runList (runText : RunText) (runTokens : RunTokens) (input : Bytes) (s : State)
    (pipelines : List (Connector × List Step)) : State × Output :=
  pipelines.foldl (fun (s, o) (connector, steps) =>
    let skip := s.halt.isSome ||
      (connector = .ifOk && s.status ≠ 0) || (connector = .ifFailed && s.status = 0)
    if skip then (s, o)
    else
      let (s, o') := runNegated runText runTokens input s steps
      (s, o ++ o')) (s, [])

/-- Runs tokens; a script that is malformed does nothing but say so. -/
def runTokens : (fuel : Nat) → RunTokens
  | 0, _, _, s => (s, [])
  | n + 1, ts, input, s =>
    let runText : RunText := fun script s =>
      match tokens (script.length + 1) script with
      | .ok inner => runTokens n inner input s
      | .error fault => ({ s with halt := some (.exited 2) }, complain fault.message)
    match readList (ts.length + 1) .always ts with
    | .error fault => ({ s with halt := some (.exited 2) }, complain fault.message)
    | .ok pipelines => runList runText (runTokens n) input s pipelines

def runScript (script : Text) (s : State) : State × Output :=
  match tokens (script.length + 1) script with
  | .ok ts => runTokens (script.length + 1) ts [] s
  | .error fault => ({ s with halt := some (.exited 2) }, complain fault.message)

/-- A shell with a home directory: from a command to what it leaves. -/
def interpret (home : Path) : Shell := fun disk directory command limit =>
  let (s, o) := runScript command
    { disk, directory, limit, bindings := [("HOME", home.text), ("PWD", directory.text)] }
  let exitCode : Option Int :=
    match s.halt with
    | none => some s.status
    | some (.exited code) => some code
    | some (.killed signal) => some (-(signal : Int))
    | some .outOfTime => none
  { disk := s.disk, exitCode, stdout := o.on 1, stderr := o.on 2 }

end CodeAgent.Shell
