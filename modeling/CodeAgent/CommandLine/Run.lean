import CodeAgent.Agent.Task
import CodeAgent.CommandLine.Program
import CodeAgent.Config.Load
import CodeAgent.Model.Provider

namespace CodeAgent.CommandLine

/-- What a call finds around it. -/
structure Surroundings where
  home : Path
  directory : Path
  environment : Text → Option Text
  shell : Shell
  embedder : Embedder
  /-- The model of a provider, with settings for its calls. -/
  model : Option Text → CallSettings → Course.Script
  /-- The standard input. -/
  input : Text := []

/-- What calls leave for later ones: the disk, and what the model was asked. -/
structure Machine where
  disk : Disk
  asked : List (List Message) := []

/-- Failures that no command tells by itself. -/
inductive Fault where
  | config (fault : Config.LoadFault)
  | workspace (fault : WorkspaceFault)
  | reply (fault : Reply.Fault)

structure Finished where
  machine : Machine
  output : Output
  /-- The configuration that a service is to be started with. -/
  serving : Option Config := none

def printed (t : Text) : Text := t ++ [Text.newline]

def refusal (m : Machine) (message : Text) (exit : Nat) : Finished :=
  ⟨m, { stderr := printed message, exit := some exit }, none⟩

def success (m : Machine) (stdout : Text) : Finished := ⟨m, { stdout, exit := some 0 }, none⟩

namespace Surroundings

def setting (a : Surroundings) (c : Config) (withIndex : Bool) : Setting where
  config := c
  home := a.home
  directory := a.directory
  shell := a.shell
  embedder := if withIndex then some a.embedder else none

variable [Host]

/-- Reads the configuration from the file that a call names, or from its usual place. -/
def loadConfig (a : Surroundings) (d : Disk) (named : Option Text) : Disk × Except Config.LoadFault Config :=
  Config.load d a.home a.environment <| named.map fun t =>
    if t.isEmpty then t else (a.directory.join (Path.ofText t)).text

def openLog (a : Surroundings) (d : Disk) : Except DiskFault Disk := do
  let place := a.directory.child "log"
  let file := place.child "codewright.log"
  match d.ensureDirectories place with
  | (_, .error fault) => .error fault
  | (d, .ok _) =>
    let at_ ← d.locate true file
    match d.lookup? at_ with
    | some .directory => .error (.system .isDirectory file)
    | some _ => return d
    | none => return d.put at_ (.file [])

end Surroundings

variable [Host]

def openWorkspace (s : Setting) (d : Disk) (given : Text) : Except Fault Workspace :=
  match Workspace.make s d given with
  | .error fault => .error (.workspace fault)
  | .ok w =>
    match w.open_ s with
    | (w, .ok _) => .ok w
    | (_, .error fault) => .error (.workspace fault)

def closeWorkspace (w : Workspace) : Except Fault Disk :=
  match w.close with
  | (w, .ok _) => .ok w.disk
  | (_, .error fault) => .error (.workspace (.disk fault))

def ServeOptions.configure (o : ServeOptions) (c : Config) : Config :=
  let given : List (Text × Option Json) :=
    [(ConfigKey.host.name, o.host.map .str), (ConfigKey.port.name, o.port.map .int),
     (ConfigKey.workspacePath.name, o.workspace.map .str)]
  c.override (given.filterMap fun (k, v) => v.map (k, ·))

def stepText (s : Step) : Text :=
  match s.state, s.result with
  | .awaitingPermission, _ => "  Allow command \x60" ++ s.command.getD [] ++ "\x60? [y/N] "
  | .running, _ => printed ("[" ++ Text.ofNat (s.iteration.getD 0) ++ "] " ++ s.summary)
  | .done, some (c :: r) => printed ("    -> " ++ ((Text.proseLines (c :: r)).headD []).take 120)
  | .done, _ => []

def approves (line : Text) : Bool :=
  let answer := line.trim.lower
  answer = ("y" : Text) || answer = ("yes" : Text)

def resultOutput (steps : Text) (r : TaskResult) : Output where
  stdout := steps ++ "\n" ++ printed r.finalResponse
  stderr := if r.completed then [] else
    "\n(stopped after " ++ Text.ofInt r.iterations ++ " iterations without a final answer)\n"
  exit := some (if r.completed then 0 else 1)

/-- Runs one task. Each request for approval takes one line of the input. -/
def runTask (a : Surroundings) (c : Config) (m : Machine) (o : RunOptions) : Except Fault Finished := do
  let s := a.setting c true
  let w ← openWorkspace s m.disk o.workspace
  let task : Task := ⟨o.task, [], o.activeFile⟩
  let bench : Bench := ⟨w, { autoApprove := o.approveAll }⟩
  let done := (task.run s bench).drive
    (a.model o.provider ⟨o.apiKey, o.model⟩) m.asked (a.input.lines.map approves)
  let disk ← closeWorkspace done.bench.workspace
  let m : Machine := ⟨disk, done.calls⟩
  let steps := (done.steps.map stepText).flatten
  match done.value with
  | some (.ok r) => return ⟨m, resultOutput steps r, none⟩
  | some (.error (.backend fault)) =>
    let end_ := refusal m ("Model backend error: " ++ fault.message) 2
    return { end_ with output := { end_.output with stdout := steps } }
  | some (.error (.reply fault)) => .error (.reply fault)
  | some (.error (.disk fault)) => .error (.workspace (.disk fault))
  | none => return success m steps

def disabled (m : Machine) : Finished :=
  refusal m "Embeddings are disabled (embedding_enabled = false)." 1

def embeddingFailed (m : Machine) (fault : BackendFault) : Finished :=
  refusal m ("Embedding backend error: " ++ fault.message) 2

def reportText (r : IndexReport) (ix : SemanticIndex) : Text :=
  let count (n : Nat) (what : Text) : Text := Text.ofNat n ++ what
  printed ("Indexed " ++ count r.files " files: " ++ count r.unchanged " unchanged, " ++
    count r.embedded " chunks embedded, " ++ count r.deleted " removed") ++
  (r.errors.map fun p => printed ("  syntax error, skipped: " ++ p)).flatten ++
  printed (count ix.store.size " chunks stored at " ++ ix.file.text)

def runIndex (a : Surroundings) (c : Config) (m : Machine) (o : IndexOptions) : Except Fault Finished := do
  if !c.flag .embeddingEnabled then return disabled m
  let w ← (Workspace.make (a.setting c true) m.disk o.workspace).mapError .workspace
  match w.loadIndex with
  | (_, .error fault) => .error (.workspace (.document fault))
  | (w, .ok _) =>
    match w.index with
    | none => return disabled m
    | some ix =>
      match ix.indexWorkspace a.embedder w.disk with
      | ⟨disk, ix, .ok report⟩ => return success { m with disk } (reportText report ix)
      | ⟨disk, _, .error (.backend fault)⟩ => return embeddingFailed { m with disk } fault
      | ⟨_, _, .error fault⟩ => .error (.workspace (.index fault))

def runBlastRadius (a : Surroundings) (c : Config) (m : Machine) (o : BlastOptions) :
    Except Fault Finished := do
  let s := a.setting c false
  let w ← openWorkspace s m.disk o.workspace
  let m := { m with disk := w.disk }
  let found : Except DiskFault (Option (List Text)) := do
    let p ← w.resolve s o.path
    if (w.graph.node? (← w.graph.resolve w.disk p)).isNone then return none
    return some (← w.affectedBy s p (o.depth.getD (c.int .blastRadiusDepth)))
  match found with
  | .error fault => .error (.workspace (.disk fault))
  | .ok none => return refusal m ("Not a tracked source file: " ++ o.path) 1
  | .ok (some []) => return success m (printed ("No files depend on " ++ o.path ++ "."))
  | .ok (some affected) => return success m (affected.map printed).flatten

def runSearch (a : Surroundings) (c : Config) (m : Machine) (o : SearchOptions) :
    Except Fault Finished := do
  if !c.flag .embeddingEnabled then return disabled m
  let w ← openWorkspace (a.setting c true) m.disk o.workspace
  match w.index with
  | none => return disabled m
  | some ix =>
    let limit := match o.limit with
      | none | some 0 => c.int .semanticSearchLimit
      | some n => n
    let (ix, found) := ix.search a.embedder o.query limit
    let m := { m with disk := ← closeWorkspace { w with index := some ix } }
    match found with
    | .ok results => return success m (printed (Report.searchResults results))
    | .error (.backend fault) => return embeddingFailed m fault
    | .error fault => .error (.workspace (.index fault))

def Subcommand.execute (a : Surroundings) (c : Config) (m : Machine) : Subcommand → Except Fault Finished
  | .serve o => .ok ⟨m, {}, some (o.configure c)⟩
  | .run o => runTask a c m o
  | .index o => runIndex a c m o
  | .blastRadius o => runBlastRadius a c m o
  | .search o => runSearch a c m o

/-- Runs a call. A workspace that is not there is told; without a command the help is. -/
def Call.run (a : Surroundings) (m : Machine) (call : Call) : Except Fault Finished :=
  match a.loadConfig m.disk call.configFile with
  | (_, .error fault) => .error (.config fault)
  | (d, .ok c) =>
    match a.openLog d with
    | .error fault => .error (.workspace (.disk fault))
    | .ok disk =>
      let m := { m with disk }
      match call.subcommand with
      | none => .ok ⟨m, { stdout := openingGrammar.help }, none⟩
      | some command =>
        match command.execute a c m with
        | .error (.workspace (.rootNotFound given)) => .ok (refusal m (WorkspaceFault.rootText given) 1)
        | end_ => end_

def run (a : Surroundings) (m : Machine) (arguments : List Text) : Except Fault Finished :=
  match Call.read arguments with
  | .error output => .ok ⟨m, output, none⟩
  | .ok call => call.run a m

end CodeAgent.CommandLine
