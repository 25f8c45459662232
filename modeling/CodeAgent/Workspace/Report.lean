import CodeAgent.Agent.Report
import CodeAgent.Graph.Report
import CodeAgent.Workspace.Basic

namespace CodeAgent.Workspace

def filesListed (d : Disk) (root : Path) (most : Int) : Text :=
  let files := d.sourceFiles {} root
  let shown := files.take most.toNat
  "## PROJECT MANIFEST\n\n### Root: " ++ root.text ++ "\n\n#### Directory Structure (File List):\n" ++
    Text.unlines (shown.map fun p => "- " ++ Path.relativeText ((Path.below? root p).getD [])) ++
    (if shown.length < files.length then
      "\n(listing capped at " ++ Text.ofInt most ++ " files)" else ([] : Text)) ++
    "\n\n(Use read_file to access full contents)\n"

def manifest (s : Setting) (w : Workspace) : Workspace × Text :=
  match w.listing with
  | some t => (w, t)
  | none =>
    let t := filesListed w.disk w.root (s.config.int .manifestMaxFiles)
    ({ w with listing := some t }, t)

def chunkCount (w : Workspace) : Nat := (w.index.map (·.store.size)).getD 0

def statusJson (w : Workspace) : Json :=
  .obj [("root", .str w.root.text), ("graph", w.graph.summaryJson),
    ("index", .obj [("status", .str w.indexState.name), ("chunks", .int w.chunkCount)])]

/-- The file that the user has open, cut if it is long. One that cannot be read is empty. -/
def activeFile (s : Setting) (w : Workspace) (t : Text) : Except DiskFault Text := do
  let p ← w.resolve s t
  let content ← match w.disk.readText p with
    | .ok content => .ok content
    | .error fault => if fault.refusesText then .error fault else .ok []
  return "### ACTIVE FILE (CURRENTLY OPEN IN EDITOR):\nPath: " ++ (← w.relative s p) ++
    "\nContent:\n" ++ Report.truncate (s.config.int .toolResultMaxChars) content

def projectStatus (s : Setting) (w : Workspace) (active : Option Text) :
    Workspace × Except DiskFault Text :=
  let (w, listing) := w.manifest s
  let count := ((Text.proseLines listing).filter fun line => ("- " : Text).isPrefixOf line).length
  let parts : List Text :=
    ["Project Indexed. Files found: " ++ Text.ofNat count,
     listing,
     "Dependency graph: " ++ Text.ofNat w.graph.nodes.length ++ " files, " ++
       Text.ofNat w.graph.edgeCount ++ " import edges.",
     "Semantic index: " ++ w.indexState.name ++ "."]
  match active with
  | some (c :: r) =>
    match w.activeFile s (c :: r) with
    | .ok file => (w, .ok (Text.joinWith "\n\n" (parts ++ [file])))
    | .error fault => (w, .error fault)
  | _ => (w, .ok (Text.joinWith "\n\n" parts))

end CodeAgent.Workspace
