import CodeAgent.Disk.Path
import CodeAgent.Table

namespace CodeAgent

structure GraphNode where
  path : Path
  imports : List Path := []
  dependents : List Path := []
deriving DecidableEq

structure Graph where
  root : Path
  nodes : Table Path GraphNode := []
  /-- Files whose text could not be read or parsed. -/
  broken : List Path := []
deriving DecidableEq

namespace Graph

def node? (g : Graph) (p : Path) : Option GraphNode := g.nodes.get? p

def importersOf (nodes : Table Path GraphNode) (p : Path) : List Path :=
  (nodes.filter fun (_, n) => p ∈ n.imports).map fun (_, n) => n.path

/-- Finds the dependents of every node from the imports of all. -/
def linkBack (g : Graph) : Graph :=
  { g with nodes := g.nodes.map fun (p, n) => (p, { n with dependents := importersOf g.nodes p }) }

/-- A path as it is told: from the root, or whole when it lies outside. -/
def relative (g : Graph) (p : Path) : Text :=
  match Path.below? g.root p with
  | some parts => Path.relativeText parts
  | none => p.text

def sortedPaths (ps : List Path) : List Path := ps.mergeSort Path.ble

/-- The dependents of a file that have not been seen, in the order of their paths. -/
def newDependents (g : Graph) (seen : List Path) (p : Path) : List Path :=
  match g.node? p with
  | some n => (sortedPaths n.dependents).filter (· ∉ seen)
  | none => []

/-- The dependents of all files of one ring that have not been seen before. -/
def nextRing (g : Graph) (seen : List Path) : List Path → List Path
  | [] => []
  | p :: rest =>
    let new := g.newDependents seen p
    new ++ nextRing g (seen ++ new) rest

/-- The files found in at most `depth` further steps from one ring. -/
def rings (g : Graph) : (depth : Nat) → (seen ring : List Path) → List Path
  | 0, _, _ => []
  | n + 1, seen, ring =>
    match g.nextRing seen ring with
    | [] => []
    | new => new ++ rings g n (seen ++ new) new

/-- The files that depend on a file in at most so many steps, nearer ones first. The file itself is one
of them only if a circle of imports leads back to it. -/
def blastRadius (g : Graph) (start : Path) (depth : Int) : List Path :=
  if (g.node? start).isSome then g.rings depth.toNat [] [start] else []

end Graph
end CodeAgent
