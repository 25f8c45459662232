import CodeAgent.Graph.Update

namespace CodeAgent

inductive GraphCall where
  | rebuild
  | updateFile (path : Text)
  | removeFile (path : Text)
deriving DecidableEq

structure GraphVisit where
  disk : Disk
  call : GraphCall

namespace Graph

variable [Host]

def answer (g : Graph) (v : GraphVisit) : Except DiskFault Graph :=
  match v.call with
  | .rebuild => rebuild v.disk g
  | .updateFile path => updateFile v.disk g (Path.ofText path)
  | .removeFile path => removeFile v.disk g (Path.ofText path)

/-- The graph after one call. A call that fails leaves it as it was. -/
def visit (g : Graph) (v : GraphVisit) : Graph := ((g.answer v).toOption).getD g

def after (g : Graph) (visits : List GraphVisit) : Graph := visits.foldl visit g

end Graph
end CodeAgent
