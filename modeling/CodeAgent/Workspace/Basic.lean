import CodeAgent.Command.Runner
import CodeAgent.Graph.Update
import CodeAgent.Index.Reconcile
import CodeAgent.Store.Place

namespace CodeAgent

/-- What a workspace is given from outside. -/
structure Setting where
  config : Config
  home : Path
  /-- The directory from which relative paths of the user count. -/
  directory : Path
  shell : Shell
  embedder : Option Embedder := none

inductive IndexState where
  | disabled
  | pending
  | indexing
  | ready
  | error
deriving DecidableEq

def IndexState.name : IndexState → Text
  | disabled => "disabled"
  | pending => "pending"
  | indexing => "indexing"
  | ready => "ready"
  | error => "error"

structure Workspace where
  disk : Disk
  root : Path
  graph : Graph
  index : Option SemanticIndex := none
  indexState : IndexState := .disabled
  /-- The list of files as it was last told; nothing once it may be out of date. -/
  listing : Option Text := none

inductive WorkspaceFault where
  | rootNotFound (given : Text)
  | disk (fault : DiskFault)
  | document (fault : Store.DocumentFault)
  | index (fault : IndexFault)
deriving DecidableEq

def WorkspaceFault.rootText (given : Text) : Text := "Workspace directory not found: " ++ given

/-- A path whose first component stands for the user's home, written out. Other users are not known. -/
def Path.expandHome (home p : Path) : Except DiskFault Path :=
  match p.isAbsolute, p.parts with
  | false, name :: rest =>
    if name = ("~" : Text) then .ok (home.join ⟨[], rest⟩)
    else if name.startsWith '~' then .error .noHome
    else .ok p
  | _, _ => .ok p

namespace Workspace

def embedder? (s : Setting) : Option Embedder :=
  if s.config.flag .embeddingEnabled then s.embedder else none

/-- A workspace on a root before anything is read. `asked` is what its embedding service was asked for
earlier. -/
def make (s : Setting) (d : Disk) (given : Text) (asked : List (List Text) := []) :
    Except WorkspaceFault Workspace :=
  let checked : Except DiskFault (Path × Bool) := do
    let root ← d.resolve (s.directory.join (← Path.expandHome s.home (Path.ofText given)))
    return (root, ← d.isDirectory root)
  match checked with
  | .error fault => .error (.disk fault)
  | .ok (_, false) => .error (.rootNotFound given)
  | .ok (root, true) =>
    let w : Workspace := { disk := d, root, graph := { root } }
    match embedder? s with
    | none => .ok w
    | some _ =>
      let file := (Store.directoryFor s.home root).child Store.fileName
      .ok { w with index := some { root, file, asked }, indexState := .pending }

def markDirty (w : Workspace) : Workspace := { w with listing := none }

variable [Host]

def reindex (s : Setting) (w : Workspace) : Workspace × Except IndexFault Unit :=
  match w.index, embedder? s with
  | some ix, some e =>
    match ix.indexWorkspace e w.disk with
    | ⟨disk, ix, .ok _⟩ => ({ w with disk, index := some ix, indexState := .ready }, .ok ())
    | ⟨disk, ix, .error (.backend _)⟩ =>
      ({ w with disk, index := some ix, indexState := .error }, .ok ())
    | ⟨disk, ix, .error fault⟩ =>
      ({ w with disk, index := some ix, indexState := .indexing }, .error fault)
  | _, _ => (w, .ok ())

def loadIndex (w : Workspace) : Workspace × Except Store.DocumentFault Unit :=
  match w.index with
  | none => (w, .ok ())
  | some ix =>
    let (store, result) := ix.store.load w.disk ix.file
    ({ w with index := some { ix with store } }, result)

/-- Builds the graph and loads the index, whose files are not looked at yet. -/
def start (w : Workspace) : Workspace × Except WorkspaceFault Unit :=
  match w.graph.rebuild w.disk with
  | .error fault => (w, .error (.disk fault))
  | .ok graph =>
    match loadIndex (markDirty { w with graph }) with
    | (w, .ok _) => (w, .ok ())
    | (w, .error fault) => (w, .error (.document fault))

def open_ (s : Setting) (w : Workspace) : Workspace × Except WorkspaceFault Unit :=
  match w.start with
  | (w, .error fault) => (w, .error fault)
  | (w, .ok _) =>
    match w.reindex s with
    | (w, .ok _) => (w, .ok ())
    | (w, .error fault) => (w, .error (.index fault))

def close (w : Workspace) : Workspace × Except DiskFault Unit :=
  match w.index with
  | none => (w, .ok ())
  | some ix =>
    let (disk, result) := ix.store.save w.disk ix.file
    ({ w with disk }, result)

/-- The path that a text means: nothing means the root, and a relative path counts from there. -/
def resolve (s : Setting) (w : Workspace) (t : Text) : Except DiskFault Path :=
  if t.isEmpty then .ok w.root
  else (Path.expandHome s.home (Path.ofText t)).map w.root.join

def relative (s : Setting) (w : Workspace) (p : Path) : Except DiskFault Text :=
  match w.disk.resolve (s.directory.join p) with
  | .ok q => .ok (((Path.below? w.root q).map Path.relativeText).getD p.text)
  | .error fault => if fault.refusesText then .ok p.text else .error fault

def tracks (w : Workspace) (p : Path) : Except DiskFault Bool :=
  if p.suffix ∈ Graph.extensions then (w.disk.isExcluded w.root p).map (!·) else .ok false

/-- Runs a step of the index on one file. A failure of the embedding service is passed over. -/
def indexOne (w : Workspace) (step : Disk → SemanticIndex → IndexStep IndexOutcome) :
    Workspace × Except DiskFault Unit :=
  match w.index with
  | none => (w, .ok ())
  | some ix =>
    match step w.disk ix with
    | ⟨disk, ix, .error (.disk fault)⟩ => ({ w with disk, index := some ix }, .error fault)
    | ⟨disk, ix, _⟩ => ({ w with disk, index := some ix }, .ok ())

/-- Changes the graph and then counts the list of files as out of date. -/
def changeGraph (w : Workspace) (change : Disk → Graph → Except DiskFault Graph) :
    Workspace × Except DiskFault Unit :=
  match change w.disk w.graph with
  | .ok graph => (markDirty { w with graph }, .ok ())
  | .error fault => (w, .error fault)

def fileChanged (s : Setting) (w : Workspace) (p : Path) : Workspace × Except DiskFault Unit :=
  match w.tracks p with
  | .error fault => (w, .error fault)
  | .ok false => (w.markDirty, .ok ())
  | .ok true =>
    match w.indexOne fun d ix => ix.indexFile ((embedder? s).getD fun _ _ => .ok []) d p true with
    | (w, .error fault) => (w, .error fault)
    | (w, .ok _) => w.changeGraph fun d g => g.updateFile d p

def fileRemoved (w : Workspace) (p : Path) : Workspace × Except DiskFault Unit :=
  match w.indexOne fun d ix => ix.removeFile d p true with
  | (w, .error fault) => (w, .error fault)
  | (w, .ok _) => w.changeGraph fun d g => g.removeFile d p

end Workspace
end CodeAgent
