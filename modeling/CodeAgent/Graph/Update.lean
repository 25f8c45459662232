import CodeAgent.Disk.Scan
import CodeAgent.Graph.Imports

namespace CodeAgent.Graph

def extensions : List Text := [".py"]

variable [Host]

/-- The statements of a file, none when it cannot be read or parsed. -/
def statements? (d : Disk) (p : Path) : Except DiskFault (Option (List Source.Stmt)) :=
  match d.readText p with
  | .error _ => .ok none
  | .ok t =>
    match Source.parse .thread t with
    | .ok file => .ok (some file)
    | .error (.overNested reason) => .error (.overNested reason)
    | .error _ => .ok none

def importsOf (d : Disk) (root p : Path) (file : List Source.Stmt) : Except DiskFault (List Path) := do
  let targets ← (Source.imports file).mapM (importTargets d root p)
  return (targets.flatten.filter (· ≠ p)).eraseDups

/-- The node of a file as it is on the disk, and whether the file could be parsed. -/
def buildNode (d : Disk) (root p : Path) : Except DiskFault (GraphNode × Bool) :=
  match statements? d p with
  | .error fault => .error fault
  | .ok none => .ok (⟨p, [], []⟩, false)
  | .ok (some file) => do
    let imports ← importsOf d root p file
    return (⟨p, imports, []⟩, true)

def setNode (g : Graph) (n : GraphNode) (parsed : Bool) : Graph :=
  { g with
    nodes := g.nodes.set n.path n
    broken :=
      if parsed then g.broken.filter (· ≠ n.path)
      else if n.path ∈ g.broken then g.broken else g.broken ++ [n.path] }

/-- Adds the nodes of files one after the other. A link counts as the file it leads to. -/
def addFiles (d : Disk) (g : Graph) : List Path → Except DiskFault Graph
  | [] => .ok g
  | p :: rest => do
    let (n, parsed) ← buildNode d g.root (← d.resolve p)
    addFiles d { g with
      nodes := g.nodes.set n.path n
      broken := if parsed || n.path ∈ g.broken then g.broken else g.broken ++ [n.path] } rest

def rebuild (d : Disk) (g : Graph) : Except DiskFault Graph := do
  let files := d.sourceFiles { extensions := some extensions } g.root
  return (← addFiles d ⟨g.root, [], []⟩ files).linkBack

def resolve (d : Disk) (g : Graph) (p : Path) : Except DiskFault Path := d.resolve (g.root.join p)

def removeNode (g : Graph) (p : Path) : Graph :=
  if (g.node? p).isSome then
    linkBack { g with nodes := g.nodes.erase p, broken := g.broken.filter (· ≠ p) }
  else g

def removeFile (d : Disk) (g : Graph) (p : Path) : Except DiskFault Graph := do
  return g.removeNode (← g.resolve d p)

/-- Brings the node of one file up to date, or drops it when the file is gone. -/
def updateFile (d : Disk) (g : Graph) (p : Path) : Except DiskFault Graph := do
  let p ← g.resolve d p
  if !(← d.isFile p) then return g.removeNode (← g.resolve d p)
  if p.suffix ∉ extensions then return g
  if ← d.isExcluded g.root p then return g
  let (n, parsed) ← buildNode d g.root p
  return (g.setNode n parsed).linkBack

end CodeAgent.Graph
