import CodeAgent.Disk.Access

namespace CodeAgent.Disk

def skippedDirectories : List Text :=
  ["node_modules", ".git", "dist", "dist-electron", ".next", "__pycache__",
   ".venv", "venv", ".cache", "coverage", ".idea", ".vscode", "build", "out",
   "bin", "obj", ".mypy_cache", ".pytest_cache", ".tox", "site-packages"]

def binaryExtensions : List Text :=
  [".png", ".jpg", ".jpeg", ".gif", ".ico", ".webp", ".svg", ".woff", ".woff2",
   ".ttf", ".eot", ".mp3", ".mp4", ".zip", ".tar", ".gz", ".exe", ".dll", ".so",
   ".dylib", ".lock", ".pdf", ".bin", ".pyc", ".node", ".whl"]

/-- Which files a scan yields and which directories it enters. -/
structure ScanRule where
  /-- The extensions wanted; without them every file whose extension is not known to be binary. -/
  extensions : Option (List Text) := none
  hidden : Bool := false

namespace ScanRule

def enters (rule : ScanRule) (directory : Text) : Bool :=
  directory ∉ skippedDirectories && (rule.hidden || !directory.startsWith '.')

def keeps (rule : ScanRule) (file : Text) : Bool :=
  let extension := Text.lower (Path.splitExtension file).2
  match rule.extensions with
  | some wanted => extension ∈ wanted
  | none => extension ∉ binaryExtensions

end ScanRule

def isLeaf (d : Disk) (at_ : Place) : Entry → Bool
  | .directory => false
  | .file _ => true
  | .link _ =>
    match d.isDirectory ⟨[Path.slash], at_⟩ with
    | .ok answer => !answer
    | .error _ => true

/-- A directory's own files by name, then those of its directories by name. Links are not entered. -/
def filesBelow (d : Disk) (rule : ScanRule) : (depth : Nat) → Place → List Place
  | 0, _ => []
  | n + 1, directory =>
    let entries := d.children directory
    let files := entries.filter fun (name, e) => d.isLeaf (directory ++ [name]) e && rule.keeps name
    let inner := entries.filter fun (name, e) => e = .directory && rule.enters name
    files.map (fun (name, _) => directory ++ [name]) ++
      inner.flatMap fun (name, _) => filesBelow d rule n (directory ++ [name])

/-- The files of a workspace that a scan yields, with paths that start with the root. -/
def sourceFiles (d : Disk) (rule : ScanRule) (root : Path) : List Path :=
  match d.locate true root with
  | .ok place =>
    (filesBelow d rule (d.depth + 1) place).map fun at_ =>
      root.join ⟨[], at_.drop place.length⟩
  | .error _ => []

/-- Whether a directory on the way from the root keeps a path out of every scan. -/
def isBehindSkipped (parts : List Text) : Bool :=
  parts.dropLast.any fun name => name ∈ skippedDirectories || name.startsWith '.'

def isExcluded (d : Disk) (root p : Path) : Except DiskFault Bool :=
  match d.resolve p with
  | .error fault => if fault.refusesText then .ok true else .error fault
  | .ok p => (d.resolve root).map fun root => (Path.below? root p).all isBehindSkipped

end CodeAgent.Disk
