import CodeAgent.Disk.Locate
import CodeAgent.Graph.Basic
import CodeAgent.Source.Definitions

namespace CodeAgent.Graph

/-- What a module's path may end in, in the order in which files are looked for. -/
def moduleSuffixes : List Text := ["", ".py", "/__init__.py"]

def firstFile? (d : Disk) : List Path → Except DiskFault (Option Path)
  | [] => .ok none
  | p :: rest => do
    if ← d.isFile p then return some (← d.resolve p)
    firstFile? d rest

def moduleFile? (d : Disk) (p : Path) : Except DiskFault (Option Path) :=
  firstFile? d (moduleSuffixes.map fun suffix => Path.ofText (p.text ++ suffix))

def ancestor (p : Path) : Nat → Path
  | 0 => p
  | n + 1 => (ancestor p n).parent

def importBase (root importer : Path) (spec : Source.ImportSpec) : Path :=
  if spec.level = 0 then root else ancestor importer spec.level

def dotted (base : Path) (module : Text) : Path :=
  (Text.splitOn '.' module).foldl (fun p name => p.join (Path.ofText name)) base

/-- The files of the imported names that are modules themselves. -/
def submodules (d : Disk) (base : Path) : List Text → Except DiskFault (List Path)
  | [] => .ok []
  | name :: rest => do
    let file ← moduleFile? d (base.join (Path.ofText name))
    let later ← submodules d base rest
    return file.toList ++ later

/-- The files that one import means. Names imported from a bare directory that are no modules mean the
directory's own file. -/
def importTargets (d : Disk) (root importer : Path) (spec : Source.ImportSpec) :
    Except DiskFault (List Path) := do
  let base := importBase root importer spec
  if spec.module.isEmpty then
    let files ← submodules d base spec.names
    if files.isEmpty then return (← firstFile? d [base.child "__init__.py"]).toList
    return files
  else
    let here := dotted base spec.module
    let own ← moduleFile? d here
    let files ← submodules d here spec.names
    return own.toList ++ files

end CodeAgent.Graph
