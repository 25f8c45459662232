import CodeAgent.Agent.Course
import CodeAgent.Edit.Blocks
import CodeAgent.Tool.Files
import CodeAgent.Tool.Search
import CodeAgent.Workspace.Report

namespace CodeAgent

namespace Workspace

variable [Host]

/-- Tells the index and the graph of a file that a tool has written or taken away. A file outside the
root is passed over. -/
def refreshOne (s : Setting) (w : Workspace) (p : Path) : Workspace × Except DiskFault Unit :=
  match w.disk.resolve p with
  | .error fault => (w, .error fault)
  | .ok q =>
    if (Path.below? w.root q).isNone then (w, .ok ())
    else
      match w.disk.exists? p with
      | .error fault => (w, .error fault)
      | .ok true => w.fileChanged s p
      | .ok false => w.fileRemoved p

def refresh (s : Setting) (w : Workspace) : List Path → Workspace × Except DiskFault Unit
  | [] => (w, .ok ())
  | p :: rest =>
    match refreshOne s w p with
    | (w, .ok _) => refresh s w rest
    | (w, .error fault) => (w, .error fault)

/-- Runs a file tool on the path that a text means, and then tells the workspace of it. -/
def onFile (s : Setting) (w : Workspace) (path : Text)
    (tool : Disk → Path → Disk × Except ToolFault Text) : Workspace × Except ToolFault Text :=
  match w.resolve s path with
  | .error fault => (w, .error (.disk fault))
  | .ok p =>
    match tool w.disk p with
    | (disk, .error fault) => ({ w with disk }, .error fault)
    | (disk, .ok answer) =>
      match refresh s { w with disk } [p] with
      | (w, .ok _) => (w, .ok answer)
      | (w, .error fault) => (w, .error (.disk fault))

def askFile (s : Setting) (w : Workspace) (path : Text)
    (tool : Disk → Path → Except ToolFault Text) : Workspace × Except ToolFault Text :=
  match w.resolve s path with
  | .error fault => (w, .error (.disk fault))
  | .ok p => (w, tool w.disk p)

/-- Runs a command from the configuration, unless the file is missing that marks projects which have one. -/
def runConfigured (s : Setting) (w : Workspace) (marker command label heading : Text) :
    Workspace × Except ToolFault Text :=
  let wanted : Except DiskFault Bool :=
    if marker.isEmpty then .ok true else w.disk.exists? (w.root.join (Path.ofText marker))
  match wanted with
  | .error fault => (w, .error (.disk fault))
  | .ok false => (w, .ok ("No " ++ marker ++ " found. Skipping " ++ label ++ "."))
  | .ok true =>
    match w.runCommand s command with
    | (w, .error fault) => (w, .error fault)
    | (w, .ok result) =>
      (w, .ok (if result.success then (heading ++ " passed.\n" ++ result.stdout).trim
        else heading ++ " failed:\n" ++ result.render))

/-- The blocks of every changed file, and the files whose diff text is malformed. -/
def readChanges (s : Setting) (w : Workspace) :
    List DiffChange → Except DiskFault (List Transaction.FileChange × List (Text × Nat × Nat))
  | [] => .ok ([], [])
  | change :: rest => do
    let blocks := Blocks.parse change.diff
    let attempted := Blocks.attempts change.diff
    let path ← w.resolve s change.path
    let (changes, malformed) ← readChanges s w rest
    let bad := blocks.isEmpty || blocks.length ≠ attempted
    return (⟨path, blocks⟩ :: changes,
      if bad then (change.path, blocks.length, attempted) :: malformed else malformed)

/-- Applies diffs to several files. One malformed block keeps every file from being touched. -/
def applyDiffs (s : Setting) (w : Workspace) (changes : List DiffChange) :
    Workspace × Except ToolFault Text :=
  match w.readChanges s changes with
  | .error fault => (w, .error (.disk fault))
  | .ok (_, m :: malformed) => (w, .error (.malformedBlocks (m :: malformed)))
  | .ok (changes, []) =>
    match Transaction.apply w.disk changes with
    | (disk, .error fault) => ({ w with disk }, .error (.ofTransaction fault))
    | (disk, .ok count) =>
      match refresh s { w with disk } (changes.map (·.path)).eraseDups with
      | (w, .ok _) => (w, .ok ("Successfully applied diffs to " ++ Text.ofNat count ++ " files."))
      | (w, .error fault) => (w, .error (.disk fault))

def affectedBy (s : Setting) (w : Workspace) (p : Path) (depth : Int) : Except DiskFault (List Text) := do
  let start ← w.graph.resolve w.disk p
  (w.graph.blastRadius start depth).mapM (w.relative s)

def blastRadius (s : Setting) (w : Workspace) (path : Text) (depth : Int) : Except DiskFault Text := do
  let p ← w.resolve s path
  let there ←
    if (w.graph.node? (← w.graph.resolve w.disk p)).isSome then .ok true else w.disk.exists? p
  if there then return Report.affectedFiles path (← w.affectedBy s p depth)
  return "ERROR (get_blast_radius): File not found: " ++ path

def searchByMeaning (s : Setting) (w : Workspace) (query : Text) (limit : Int) :
    Workspace × Except ToolFault Text :=
  match w.index, embedder? s with
  | some ix, some e =>
    let (ix, found) := ix.search e query limit
    ({ w with index := some ix }, (found.mapError .index).map Report.searchResults)
  | _, _ => (w, .ok "ERROR (semantic_search): Semantic index is not enabled for this workspace.")

def perform (s : Setting) (w : Workspace) : Invocation → Workspace × Except ToolFault Text
  | .showFile path => w.askFile s path fun d p => FileTool.show_ d p path
  | .writeFile path content => w.onFile s path fun d p => FileTool.write d p content path
  | .editFile path edits => w.onFile s path fun d p => FileTool.edit d p edits path
  | .replaceLines path first last content =>
    w.onFile s path fun d p => FileTool.replaceLines d p first last content path
  | .insertCode path line content =>
    w.onFile s path fun d p => FileTool.insertCode d p line content path
  | .listDirectory path =>
    w.askFile s path fun d p => FileTool.list d p (if path.isEmpty then "project root" else path)
  | .searchFiles pattern include? =>
    (w, FileTool.searchFiles w.disk w.root
      ⟨s.config.int .searchMaxResults, s.config.int .searchMaxFileSize⟩ pattern include?)
  | .deleteFile path => w.onFile s path fun d p => FileTool.delete d p path
  | .createDirectory path =>
    match w.resolve s path with
    | .error fault => (w, .error (.disk fault))
    | .ok p =>
      let (disk, answer) := FileTool.createDirectory w.disk p path
      ({ w with disk }, answer)
  | .runCommand command =>
    match w.runCommand s command with
    | (w, answer) => (w, answer.map CommandResult.render)
  | .validateProject =>
    w.runConfigured s (s.config.text .validateMarker) (s.config.text .validateCommand) "validation"
      "Validation"
  | .runTests =>
    w.runConfigured s (s.config.text .testMarker) (s.config.text .testCommand) "tests" "Tests"
  | .applyDiffs changes => w.applyDiffs s changes
  | .getBlastRadius path depth? =>
    (w, (w.blastRadius s path ((depth?.map Int.ofNat).getD (s.config.int .blastRadiusDepth))).mapError
      .disk)
  | .semanticSearch query limit? =>
    w.searchByMeaning s query ((limit?.map Int.ofNat).getD (s.config.int .semanticSearchLimit))

/-- What the model is told of a call, and the workspace after it. Only the failure of a provider is no
observation. -/
def conclude (w : Workspace) (kind : ToolKind) :
    Except ToolFault Text → Workspace × Except BackendFault Text
  | .ok answer => (if kind.mutates then w.markDirty else w, .ok answer)
  | .error (.index (.backend fault)) => (w, .error fault)
  | .error fault => (w, .ok ("ERROR (" ++ kind.name ++ "): " ++ fault.message))

end Workspace

namespace Bench

variable [Host]

def perform (s : Setting) (b : Bench) (call : Invocation) : Bench × Except BackendFault Text :=
  let (w, answer) := b.workspace.perform s call
  let (w, observation) := w.conclude call.kind answer
  ({ b with workspace := w }, observation)

/-- What is told while a command waits for approval, and when it starts. -/
def askingStep (command : Text) (iteration : Option Nat) : Step :=
  { tool := ToolKind.runCommand.name, state := .awaitingPermission, summary := "Execute: " ++ command,
    iteration, command := some command }

def executingStep (command : Text) (iteration : Option Nat) : Step :=
  { tool := ToolKind.runCommand.name, state := .running, summary := "Executing: " ++ command, iteration }

def afterVerdict (s : Setting) (command : Text) (iteration : Option Nat) (b : Bench) :
    Option Approval → Course (Except BackendFault Text)
  | some (.finished (.decided true)) =>
    .tell (executingStep command iteration) <|
      .run s b command fun b result =>
        let (w, observation) := b.workspace.conclude .runCommand (result.map CommandResult.render)
        .done { b with workspace := w } observation
  | some (.finished (.decided false)) =>
    let (w, observation) := b.workspace.conclude .runCommand (.ok "Command denied by user.")
    .done { b with workspace := w } observation
  | some (.busy other) =>
    let (w, observation) := b.workspace.conclude .runCommand (.error (.busy other))
    .done { b with workspace := w } observation
  | _ => .cancelled b

/-- Asks for approval of a command and runs it if that is given. -/
def command (s : Setting) (b : Bench) (command : Text) (iteration : Option Nat) :
    Course (Except BackendFault Text) :=
  .tell (askingStep command iteration) <|
    let number := b.gate.requests.length
    let b := { b with gate := b.gate.request command }
    match b.gate.requests[number]? with
    | some (Approval.waiting _) =>
      .awaitApproval b number fun b => afterVerdict s command iteration b b.gate.requests[number]?
    | verdict => afterVerdict s command iteration b verdict

def execute (s : Setting) (b : Bench) (call : ToolCall) (iteration : Option Nat) :
    Course (Except BackendFault Text) :=
  match call with
  | .invalid c => .done b (.ok ("ERROR (" ++ c.tool ++ "): " ++ c.error))
  | .valid (.runCommand c) => b.command s c iteration
  | .valid invocation =>
    let (b, observation) := b.perform s invocation
    .done b observation

end Bench
end CodeAgent
