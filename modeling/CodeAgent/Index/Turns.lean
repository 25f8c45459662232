import CodeAgent.Index.Basic

namespace CodeAgent

inductive Turn where
  /-- The disk has changed. -/
  | disk (d : Disk)
  /-- A call that indexes the file begins and reads it. -/
  | look (call : Nat)
  /-- A call that has read the file has the lock. -/
  | commit (call : Nat)
  /-- A call that removes the file has the lock. -/
  | remove

/-- What the calls about one file share. -/
structure Contest where
  disk : Disk
  index : SemanticIndex
  /-- The calls that wait for the lock, with the name of the file in the store and what they have read. -/
  looked : Table Nat (Text × SemanticIndex.SourceRead) := []

namespace SemanticIndex

def look (d : Disk) (ix : SemanticIndex) (p : Path) : Except DiskFault (Text × SourceRead) :=
  (ix.relative d p).map fun name => (name, readSource d (ix.root.join (Path.ofText name)))

variable [Host]

def commit (e : Embedder) (d : Disk) (ix : SemanticIndex) (name : Text) : SourceRead → SemanticIndex
  | .text source => (ix.update e name source).1
  | .missing => (ix.removeFile d (Path.ofText name) false).index
  | .unreadable => ix
  | .refused _ => ix

end SemanticIndex

namespace Contest

variable [Host]

def turn (e : Embedder) (p : Path) (c : Contest) : Turn → Contest
  | .disk d => { c with disk := d }
  | .look call =>
    match c.index.look c.disk p with
    | .ok seen => { c with looked := c.looked.set call seen }
    | .error _ => c
  | .commit call =>
    match c.looked.get? call with
    | some (name, read) =>
      { c with index := c.index.commit e c.disk name read, looked := c.looked.erase call }
    | none => c
  | .remove => { c with index := (c.index.removeFile c.disk p false).index }

def run (e : Embedder) (p : Path) (c : Contest) (turns : List Turn) : Contest := turns.foldl (turn e p) c

def disks (c : Contest) (turns : List Turn) : List Disk :=
  c.disk :: turns.filterMap fun
    | .disk d => some d
    | _ => none

end Contest
end CodeAgent
