import CodeAgent.Disk.Scan

namespace CodeAgent.Watch

/-- A filter that a watcher of files brings along: the directories that it ignores unless told otherwise, and which
paths it passes on when it ignores given directories. -/
structure Filter where
  directories : List Text
  passes : (ignored : List Text) → (path : Text) → Bool

/-- The directories ignored: the filter's own, and those that no scan enters. -/
def ignoredDirectories (f : Filter) : List Text := f.directories ++ Disk.skippedDirectories

def passes (f : Filter) (path : Text) : Bool := f.passes (ignoredDirectories f) path

/-- Whether a name consists of some text and then characters of the given classes. -/
def endsLike (classes : List (CodePoint → Bool)) (name : Text) : Bool :=
  let tail := name.drop (name.length - classes.length)
  tail.length = classes.length && (tail.zip classes).all fun (c, accepts) => accepts c

def literal (t : Text) : List (CodePoint → Bool) := t.map fun c => (· = c)

def anyPoint (c : CodePoint) : Bool := c ≠ Text.newline

/-- Ends of the names of compiled files, of an editor's safe copies, of swap files and of backups. -/
def ignoredEndings : List (List (CodePoint → Bool)) :=
  [literal ".py" ++ [fun c => c.is 'c' || c.is 'o' || c.is 'd'],
   literal ".___jb_" ++ [anyPoint, anyPoint, anyPoint] ++ literal "___",
   literal ".sw" ++ [anyPoint],
   literal "~"]

/-- A line feed that ends a name is not counted as part of its ending. -/
def endings (name : Text) : List Text :=
  if name.getLast? = some Text.newline then [name, name.dropLast] else [name]

def isLeftBehind (name : Text) : Bool :=
  ((endings name).any fun t => ignoredEndings.any (endsLike · t) || t = (".DS_Store" : Text)) ||
    List.isPrefixOf (".#" : Text) name || List.isPrefixOf ("flycheck_" : Text) name

def components (path : Text) : List Text := Text.splitOn Path.slash (path.dropWhile (· = Path.slash))

/-- The filter that keeps back what stands in an ignored directory and what is left behind. -/
def Filter.usual : Filter where
  directories :=
    ["__pycache__", ".git", ".hg", ".svn", ".tox", ".venv", ".idea", "node_modules", ".mypy_cache",
     ".pytest_cache", ".hypothesis"]
  passes ignored path :=
    !((components path).any (· ∈ ignored)) && !(isLeftBehind ((components path).getLastD []))

end CodeAgent.Watch
