import CodeAgent.Json.Subscript
import CodeAgent.Store.Document

namespace CodeAgent

/-- What a value is as a key. Equal numbers are one key, however they are written. -/
inductive KeyForm where
  | nothing
  | whole (i : Int)
  | broken (x : Binary64)
  | text (t : Text)
deriving DecidableEq

def Json.keyForm? : Json → Option KeyForm
  | .null => some .nothing
  | .bool b => some (.whole (if b then 1 else 0))
  | .int i => some (.whole i)
  | .float x => some ((x.toInt?).elim (.broken x) .whole)
  | .str t => some (.text t)
  | .arr _ => none
  | .obj _ => none

abbrev RawTable (ν : Type) := List (Json × ν)

namespace RawTable

variable {ν : Type}

/-- Sets a key where it stands, as it is written there, or appends it. -/
def set (key : Json) (value : ν) : RawTable ν → RawTable ν
  | [] => [(key, value)]
  | (k, v) :: r => if k.keyForm? = key.keyForm? then (k, value) :: r else (k, v) :: set key value r

def ofPairs (pairs : List (Json × ν)) : RawTable ν := pairs.foldl (fun t x => set x.1 x.2 t) []

end RawTable

/-- The values of the fields of a record, in their order. -/
structure RawRecord where
  values : List Json

structure RawStore where
  records : RawTable RawRecord := []
  fileHashes : RawTable Json := []

namespace Store

variable [Host]

/-- What the file of a store holds. A file that is not there, that the system does not read or that is not JSON is
passed over. -/
def document (d : Disk) (file : Path) : Except DocumentFault (Option Json) :=
  match d.exists? file with
  | .error fault => .error (.disk fault)
  | .ok false => .ok none
  | .ok true =>
    match d.readText file with
    | .error fault => if fault.isSystem then .ok none else .error (.disk fault)
    | .ok t =>
      match Json.read t with
      | .ok v => .ok (some v)
      | .error (.longInteger digits) => .error (.longInteger digits)
      | .error .tooDeep => .error .tooDeep
      | .error _ => .ok none

end Store

namespace RawStore
open Store (DocumentFault)

def fieldNames : List Text := ["id", "vector", "path", "kind", "name", "text", "start_line", "end_line", "hash"]

/-- A record has these fields and no others, and its id is a key. The id is looked for before the rest. -/
def readRecord : Json → Except DocumentFault (Json × RawRecord)
  | .obj fields =>
    match Json.lookup "id" fields with
    | none => .error .noId
    | some id =>
      match fieldNames.mapM (Json.lookup · fields) with
      | none => .error .illTyped
      | some values =>
        if fields.length = fieldNames.length ∧ id.keyForm?.isSome then .ok (id, ⟨values⟩) else .error .illTyped
  | _ => .error .illTyped

def readRecords (v : Json) : Except DocumentFault (RawTable RawRecord) :=
  match v.items? with
  | none => .error .illTyped
  | some items => (items.mapM readRecord).map RawTable.ofPairs

/-- A pair is whatever has two items, of which the first can be a key. -/
def readPair (v : Json) : Except DocumentFault (Json × Json) :=
  match v.items? with
  | none => .error .illTyped
  | some [key, value] => if key.keyForm?.isSome then .ok (key, value) else .error .illTyped
  | some _ => .error .notAPair

def readHashes : Json → Except DocumentFault (RawTable Json)
  | .obj fields => .ok (fields.map fun (path, v) => (.str path, v))
  | v =>
    match v.items? with
    | none => .error .illTyped
    | some items => (items.mapM readPair).map RawTable.ofPairs

def recordsOf (fields : List (Text × Json)) : Except DocumentFault (RawTable RawRecord) :=
  readRecords ((Json.lookup "records" fields).getD (.arr []))

def hashesOf (fields : List (Text × Json)) : Except DocumentFault (RawTable Json) :=
  readHashes ((Json.lookup "file_hashes" fields).getD (.obj []))

/-- Takes over a document: its records first, then its file digests. -/
def readDocument (s : RawStore) : Json → RawStore × Except DocumentFault Unit
  | .obj fields =>
    match recordsOf fields with
    | .error fault => (s, .error fault)
    | .ok records =>
      let s := { s with records }
      match hashesOf fields with
      | .error fault => (s, .error fault)
      | .ok fileHashes => ({ s with fileHashes }, .ok ())
  | _ => (s, .error .notAnObject)

variable [Host]

def load (s : RawStore) (d : Disk) (file : Path) : RawStore × Except DocumentFault Unit :=
  match Store.document d file with
  | .error fault => (s, .error fault)
  | .ok none => (s, .ok ())
  | .ok (some v) => s.readDocument v

def ofRecord (r : StoredChunk) : Json × RawRecord :=
  (.str r.chunk.id, ⟨[.str r.chunk.id, .arr (r.vector.map .float), .str r.chunk.path, .str r.chunk.kind,
    .str r.chunk.name, .str r.chunk.text, .int r.chunk.startLine, .int r.chunk.endLine, .str r.chunk.hash]⟩)

def ofStore (s : Store) : RawStore where
  records := s.records.map ofRecord
  fileHashes := s.fileHashes.map fun (path, hash) => (.str path, .str hash)

def chunk? (r : RawRecord) : Option StoredChunk :=
  (Store.readRecord (.obj (fieldNames.zip r.values))).toOption

def digest? : Json × Json → Option (Text × Text)
  | (.str path, .str hash) => some (path, hash)
  | _ => none

/-- The store that this is, if everything in it is of its type. -/
def store? (s : RawStore) : Option Store := do
  let records ← s.records.mapM fun x => chunk? x.2
  let fileHashes ← s.fileHashes.mapM digest?
  return ⟨records, fileHashes⟩

end RawStore
end CodeAgent
