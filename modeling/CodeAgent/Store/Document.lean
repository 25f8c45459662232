import CodeAgent.Disk.Volume
import CodeAgent.Json.Printer
import CodeAgent.Json.Reader
import CodeAgent.Store.Basic

namespace CodeAgent.Store

def recordJson (r : StoredChunk) : Json :=
  .obj [("id", .str r.chunk.id), ("vector", .arr (r.vector.map .float)), ("path", .str r.chunk.path),
    ("kind", .str r.chunk.kind), ("name", .str r.chunk.name), ("text", .str r.chunk.text),
    ("start_line", .int r.chunk.startLine), ("end_line", .int r.chunk.endLine),
    ("hash", .str r.chunk.hash)]

def toJson (s : Store) : Json :=
  .obj [("records", .arr (s.records.map recordJson)),
    ("file_hashes", .obj (s.fileHashes.map fun (path, hash) => (path, .str hash)))]

/-- Why a document is no store. -/
inductive DocumentFault where
  | disk (fault : DiskFault)
  | longInteger (digits : Nat)
  | tooDeep
  | notAnObject
  | illTyped
  | noId
  | notAPair
deriving DecidableEq

def readNumber : Json → Except DocumentFault Binary64
  | .float x => .ok x
  | .int i => .ok (Binary64.ofInt i)
  | _ => .error .illTyped

def readTextField (fields : List (Text × Json)) (key : Text) : Except DocumentFault Text :=
  match Json.lookup key fields with
  | some (.str t) => .ok t
  | _ => .error .illTyped

def readLineField (fields : List (Text × Json)) (key : Text) : Except DocumentFault Nat :=
  match Json.lookup key fields with
  | some (.int (.ofNat n)) => .ok n
  | _ => .error .illTyped

/-- A record has these fields and no others. The id is looked for before the rest. -/
def readRecord : Json → Except DocumentFault StoredChunk
  | .obj fields =>
    match Json.lookup "id" fields with
    | some (.str id) => do
      if fields.length ≠ 9 then throw .illTyped
      let vector ← match Json.lookup "vector" fields with
        | some (.arr items) => items.mapM readNumber
        | _ => .error .illTyped
      let path ← readTextField fields "path"
      let kind ← readTextField fields "kind"
      let name ← readTextField fields "name"
      let text ← readTextField fields "text"
      let start ← readLineField fields "start_line"
      let stop ← readLineField fields "end_line"
      let hash ← readTextField fields "hash"
      return ⟨⟨id, path, kind, name, text, start, stop, hash⟩, vector⟩
    | some _ => .error .illTyped
    | none => .error .noId
  | _ => .error .illTyped

/-- Records under their ids; a repeated id keeps its place and takes the later record. -/
def readRecords : Json → Except DocumentFault (List StoredChunk)
  | .arr items => do
    let rs ← items.mapM readRecord
    return (Table.ofPairs (rs.map fun r => (r.chunk.id, r))).map (·.2)
  | .obj [] | .str [] => .ok []
  | _ => .error .illTyped

/-- A pair of texts may be written as a list of two or as a text of two characters. -/
def readPair : Json → Except DocumentFault (Text × Text)
  | .arr [.str a, .str b] => .ok (a, b)
  | .arr [_, _] => .error .illTyped
  | .arr _ => .error .notAPair
  | .str [a, b] => .ok ([a], [b])
  | .str _ => .error .notAPair
  | .obj [(a, _), (b, _)] => .ok (a, b)
  | .obj _ => .error .notAPair
  | _ => .error .illTyped

def readHashes : Json → Except DocumentFault (Table Text Text)
  | .obj fields => fields.mapM fun (path, v) =>
    match v with
    | .str hash => .ok (path, hash)
    | _ => .error .illTyped
  | .arr items => (items.mapM readPair).map Table.ofPairs
  | .str [] => .ok []
  | .str _ => .error .notAPair
  | _ => .error .illTyped

/-- Takes over a document: its records first, then its file digests. -/
def readDocument (s : Store) : Json → Store × Except DocumentFault Unit
  | .obj fields =>
    match readRecords ((Json.lookup "records" fields).getD (.arr [])) with
    | .error fault => (s, .error fault)
    | .ok records =>
      let s := { s with records }
      match readHashes ((Json.lookup "file_hashes" fields).getD (.obj [])) with
      | .error fault => (s, .error fault)
      | .ok fileHashes => ({ s with fileHashes }, .ok ())
  | _ => (s, .error .notAnObject)

variable [Host]

/-- Loads the document at a path. Without one, or when it cannot be read as JSON, nothing changes. -/
def load (s : Store) (d : Disk) (file : Path) : Store × Except DocumentFault Unit :=
  match d.exists? file with
  | .error fault => (s, .error (.disk fault))
  | .ok false => (s, .ok ())
  | .ok true =>
    match d.readText file with
    | .error fault => if fault.isSystem then (s, .ok ()) else (s, .error (.disk fault))
    | .ok t =>
      match Json.read t with
      | .ok v => s.readDocument v
      | .error (.longInteger digits) => (s, .error (.longInteger digits))
      | .error .tooDeep => (s, .error .tooDeep)
      | .error _ => (s, .ok ())

def temporaryName (n : Nat) : Text := ".chunks-" ++ Text.ofNat n ++ ".tmp"

def temporaryPath (d : Disk) (directory : Path) : Path :=
  let free (n : Nat) : Bool := !d.stands (directory.child (temporaryName n))
  directory.child (temporaryName (((List.range (d.entries.length + 1)).find? free).getD 0))

/-- Saves the document at a path of a volume, with the directories above it. When the system does not move the
temporary file to the path, the file is taken away. -/
def saveOn (s : Store) (v : Volume) (file : Path) : Volume × Except DiskFault Unit :=
  match v.ensureDirectories file.parent with
  | (v, .error fault) => (v, .error fault)
  | (v, .ok _) =>
    let temporary := temporaryPath v.disk file.parent
    match v.writeText temporary (Json.write s.toJson) with
    | (v, .error fault) => (v, .error fault)
    | (v, .ok _) =>
      match v.rename temporary file with
      | (v, .ok _) => (v, .ok ())
      | (v, .error fault) =>
        if fault.isSystem then
          match v.removeIfPresent temporary with
          | (v, .ok _) => (v, .error fault)
          | (v, .error fault) => (v, .error fault)
        else (v, .error fault)

def save (s : Store) (d : Disk) (file : Path) : Disk × Except DiskFault Unit :=
  let (v, result) := s.saveOn ⟨d, []⟩ file
  (v.disk, result)

end CodeAgent.Store
