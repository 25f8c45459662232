import CodeAgent.Disk.Scan
import CodeAgent.Graph.Update
import CodeAgent.Index.Basic

namespace CodeAgent

structure IndexReport where
  files : Nat := 0
  unchanged : Nat := 0
  errors : List Text := []
  embedded : Nat := 0
  deleted : Nat := 0
deriving DecidableEq

namespace IndexReport

def add (r : IndexReport) (o : IndexOutcome) : IndexReport where
  files := r.files + 1
  unchanged := r.unchanged + if o.status = .unchanged then 1 else 0
  errors := r.errors ++ if o.status = .error then [o.path] else []
  embedded := r.embedded + o.embedded
  deleted := r.deleted + o.deleted

def toJson (r : IndexReport) : Json :=
  .obj [("files", .int r.files), ("unchanged", .int r.unchanged), ("errors", .arr (r.errors.map .str)),
    ("embedded", .int r.embedded), ("deleted", .int r.deleted)]

end IndexReport

namespace SemanticIndex

variable [Host]

/-- Indexes files in order, with the names that they have in the store. -/
def indexAll (e : Embedder) (d : Disk) (ix : SemanticIndex) (seen : List Text) (r : IndexReport) :
    List Path → IndexStep (List Text × IndexReport)
  | [] => ⟨d, ix, .ok (seen, r)⟩
  | p :: rest =>
    match ix.indexFile e d p false with
    | ⟨d, ix, .error fault⟩ => ⟨d, ix, .error fault⟩
    | ⟨d, ix, .ok outcome⟩ => indexAll e d ix (seen ++ [outcome.path]) (r.add outcome) rest

def removeAll (d : Disk) (ix : SemanticIndex) (r : IndexReport) : List Text → IndexStep IndexReport
  | [] => ⟨d, ix, .ok r⟩
  | path :: rest =>
    match ix.removeFile d (Path.ofText path) false with
    | ⟨d, ix, .error fault⟩ => ⟨d, ix, .error fault⟩
    | ⟨d, ix, .ok outcome⟩ => removeAll d ix { r with deleted := r.deleted + outcome.deleted } rest

/-- The files with a digest that were not seen on the disk, in order. -/
def stale (ix : SemanticIndex) (seen : List Text) : List Text :=
  (ix.store.fileHashes.keys.filter (· ∉ seen)).mergeSort Text.ble

/-- Brings the store to the source files on the disk and saves it. -/
def indexWorkspace (e : Embedder) (d : Disk) (ix : SemanticIndex) : IndexStep IndexReport :=
  let files := d.sourceFiles { extensions := some Graph.extensions } ix.root
  match ix.indexAll e d [] {} files with
  | ⟨d, ix, .error fault⟩ => ⟨d, ix, .error fault⟩
  | ⟨d, ix, .ok (seen, r)⟩ =>
    match ix.removeAll d r (ix.stale seen) with
    | ⟨d, ix, .error fault⟩ => ⟨d, ix, .error fault⟩
    | ⟨d, ix, .ok r⟩ => ix.settle d true r

end SemanticIndex
end CodeAgent
