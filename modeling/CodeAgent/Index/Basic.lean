import CodeAgent.Disk.Access
import CodeAgent.Json.Value
import CodeAgent.Model.Fault
import CodeAgent.Store.Document
import CodeAgent.Store.Similarity

namespace CodeAgent

/-- An embedding service: from the batches that it was asked for before and the texts of this one to one
vector a text. -/
abbrev Embedder := List (List Text) → List Text → Except BackendFault (List Vector64)

structure SemanticIndex where
  root : Path
  /-- Where the store is kept. -/
  file : Path
  store : Store := {}
  /-- The batches that the embedding service was asked for so far. -/
  asked : List (List Text) := []
deriving DecidableEq

inductive IndexStatus where
  | unchanged
  | indexed
  | error
  | removed
deriving DecidableEq

namespace IndexStatus

def name : IndexStatus → Text
  | unchanged => "unchanged"
  | indexed => "indexed"
  | error => "error"
  | removed => "removed"

end IndexStatus

/-- What became of one file, with the numbers of its chunks. -/
structure IndexOutcome where
  path : Text
  status : IndexStatus
  embedded : Nat := 0
  deleted : Nat := 0
  kept : Nat := 0
deriving DecidableEq

inductive IndexFault where
  | backend (fault : BackendFault)
  | disk (fault : DiskFault)
  /-- The embedding service gave no vector for a query. -/
  | noVector
deriving DecidableEq

/-- A step of the index on the disk. What it changed stays when it fails. -/
structure IndexStep (α : Type) where
  disk : Disk
  index : SemanticIndex
  result : Except IndexFault α

namespace SemanticIndex

/-- The name of a file in the store: its path from the root, or the path as given when it lies outside. -/
def relative (d : Disk) (ix : SemanticIndex) (p : Path) : Except DiskFault Text :=
  let p := ix.root.join p
  match d.resolve p with
  | .ok q => .ok (((Path.below? ix.root q).map Path.relativeText).getD p.text)
  | .error fault => if fault.refusesText then .ok p.text else .error fault

def embed (e : Embedder) (ix : SemanticIndex) (texts : List Text) :
    SemanticIndex × Except BackendFault (List Vector64) :=
  if texts.isEmpty then (ix, .ok [])
  else ({ ix with asked := ix.asked ++ [texts] }, e ix.asked texts)

def holds (records : List StoredChunk) (c : Source.Chunk) : Bool :=
  records.any fun r => r.chunk.id = c.id && r.chunk.hash = c.hash

def freshChunks (existing : List StoredChunk) (chunks : List Source.Chunk) : List Source.Chunk :=
  chunks.filter fun c => !holds existing c

def vanishedIds (existing : List StoredChunk) (chunks : List Source.Chunk) : List Text :=
  (existing.map (·.chunk.id)).filter (· ∉ chunks.map (·.id))

def replaceChunks (s : Store) (path source : Text) (fresh : List Source.Chunk) (vectors : List Vector64)
    (vanished : List Text) : Store :=
  ((s.upsert ((fresh.zip vectors).map fun (c, v) => ⟨c, v⟩)).delete vanished).setHash path
    (Source.hashText source)

variable [Host]

/-- Brings one file of the store to a text. Text that does not parse leaves the earlier chunks. -/
def update (e : Embedder) (ix : SemanticIndex) (path source : Text) :
    SemanticIndex × Except IndexFault IndexOutcome :=
  let existing := ix.store.recordsFor path
  if ix.store.hash? path = some (Source.hashText source) then
    (ix, .ok { path, status := .unchanged, kept := existing.length })
  else
    match Source.parse .loop source with
    | .error (.overNested reason) => (ix, .error (.disk (.overNested reason)))
    | .error _ => (ix, .ok { path, status := .error })
    | .ok statements =>
      let chunks := Source.chunks path source statements
      let fresh := freshChunks existing chunks
      let vanished := vanishedIds existing chunks
      match ix.embed e (fresh.map (·.text)) with
      | (ix, .error fault) => (ix, .error (.backend fault))
      | (ix, .ok vectors) =>
        ({ ix with store := replaceChunks ix.store path source fresh vectors vanished },
          .ok {
            path, status := .indexed, embedded := fresh.length, deleted := vanished.length,
            kept := chunks.length - fresh.length })

def forget (ix : SemanticIndex) (path : Text) : SemanticIndex × IndexOutcome :=
  let ids := (ix.store.recordsFor path).map (·.chunk.id)
  ({ ix with store := (ix.store.delete ids).eraseHash path },
    { path, status := .removed, deleted := ids.length })

/-- Saves the store if that is asked for, and then gives the outcome. -/
def settle {α : Type} (d : Disk) (ix : SemanticIndex) (persist : Bool) (outcome : α) : IndexStep α :=
  if persist then
    match ix.store.save d ix.file with
    | (d, .ok _) => ⟨d, ix, .ok outcome⟩
    | (d, .error fault) => ⟨d, ix, .error (.disk fault)⟩
  else ⟨d, ix, .ok outcome⟩

/-- Takes a file out of the store by the name that it has there. -/
def removeNamed (d : Disk) (ix : SemanticIndex) (path : Text) (persist : Bool) :
    IndexStep IndexOutcome :=
  let (ix, outcome) := ix.forget path
  ix.settle d persist outcome

def removeFile (d : Disk) (ix : SemanticIndex) (p : Path) (persist : Bool) : IndexStep IndexOutcome :=
  match ix.relative d p with
  | .error fault => ⟨d, ix, .error (.disk fault)⟩
  | .ok path => ix.removeNamed d path persist

/-- What reading a file for the index gives. -/
inductive SourceRead where
  | text (t : Text)
  | missing
  | unreadable
  | refused (fault : DiskFault)

def readSource (d : Disk) (p : Path) : SourceRead :=
  match d.readText p with
  | .ok t => .text t
  | .error (.system .noEntry _) => .missing
  | .error fault => if fault.refusesText then .refused fault else .unreadable

/-- Brings one file of the store to its text on the disk, or takes it out when the file is gone. -/
def indexFile (e : Embedder) (d : Disk) (ix : SemanticIndex) (p : Path) (persist : Bool) :
    IndexStep IndexOutcome :=
  match ix.relative d p with
  | .error fault => ⟨d, ix, .error (.disk fault)⟩
  | .ok path =>
    match readSource d (ix.root.join (Path.ofText path)) with
    | .missing => ix.removeFile d (Path.ofText path) persist
    | .unreadable => ⟨d, ix, .ok { path, status := .error }⟩
    | .refused fault => ⟨d, ix, .error (.disk fault)⟩
    | .text source =>
      match ix.update e path source with
      | (ix, .error fault) => ⟨d, ix, .error fault⟩
      | (ix, .ok outcome) => ix.settle d (persist && outcome.status = .indexed) outcome

/-- The best chunks for a query. A blank query finds nothing and is not embedded. -/
def search (e : Embedder) (ix : SemanticIndex) (query : Text) (limit : Int) :
    SemanticIndex × Except IndexFault (List ScoredChunk) :=
  if Text.isBlank query || ix.store.size = 0 then (ix, .ok [])
  else
    match ix.embed e [query] with
    | (ix, .error fault) => (ix, .error (.backend fault))
    | (ix, .ok []) => (ix, .error .noVector)
    | (ix, .ok (v :: _)) => (ix, .ok (ix.store.search v limit))

end SemanticIndex
end CodeAgent
