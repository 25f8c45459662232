import CodeAgent.Number.Binary64
import CodeAgent.Source.Definitions
import CodeAgent.Table

namespace CodeAgent

abbrev Vector64 := List Binary64

structure StoredChunk where
  chunk : Source.Chunk
  vector : Vector64
deriving DecidableEq

/-- Records in the order in which they were last written, and file digests by path. -/
structure Store where
  records : List StoredChunk := []
  fileHashes : Table Text Text := []
deriving DecidableEq

namespace Store

def size (s : Store) : Nat := s.records.length

def recordsFor (s : Store) (path : Text) : List StoredChunk :=
  s.records.filter (·.chunk.path = path)

def upsertOne (s : Store) (r : StoredChunk) : Store :=
  { s with records := s.records.filter (·.chunk.id ≠ r.chunk.id) ++ [r] }

def upsert (s : Store) (rs : List StoredChunk) : Store := rs.foldl upsertOne s

def delete (s : Store) (ids : List Text) : Store :=
  { s with records := s.records.filter (·.chunk.id ∉ ids) }

def setHash (s : Store) (path hash : Text) : Store :=
  { s with fileHashes := s.fileHashes.set path hash }

def eraseHash (s : Store) (path : Text) : Store :=
  { s with fileHashes := s.fileHashes.erase path }

def hash? (s : Store) (path : Text) : Option Text := s.fileHashes.get? path

end Store
end CodeAgent
