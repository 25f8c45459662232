import CodeAgent.Index.Reconcile

namespace CodeAgent

inductive IndexCall where
  | indexFile (path : Text) (persist : Bool)
  | removeFile (path : Text) (persist : Bool)
  | indexWorkspace
deriving DecidableEq

def IndexCall.path? : IndexCall → Option Text
  | indexFile path _ => some path
  | removeFile path _ => some path
  | indexWorkspace => none

structure Visit where
  disk : Disk
  call : IndexCall

namespace SemanticIndex

variable [Host]

/-- The index after one call, whether the call succeeds or not. -/
def visit (e : Embedder) (ix : SemanticIndex) (v : Visit) : SemanticIndex :=
  match v.call with
  | .indexFile path persist => (ix.indexFile e v.disk (Path.ofText path) persist).index
  | .removeFile path persist => (ix.removeFile v.disk (Path.ofText path) persist).index
  | .indexWorkspace => (ix.indexWorkspace e v.disk).index

def after (e : Embedder) (ix : SemanticIndex) (visits : List Visit) : SemanticIndex :=
  visits.foldl (visit e) ix

end SemanticIndex
end CodeAgent
