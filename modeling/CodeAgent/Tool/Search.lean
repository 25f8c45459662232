import CodeAgent.Disk.Scan
import CodeAgent.Pattern.Match
import CodeAgent.Pattern.Reader
import CodeAgent.Text.Glob
import CodeAgent.Tool.Fault

namespace CodeAgent.FileTool

structure SearchLimits where
  results : Int
  fileSize : Int

/-- The text of a file that is searched: one that is not too large and can be read. -/
def searchable? (d : Disk) (limits : SearchLimits) (p : Path) : Option Text :=
  match d.readBytes p with
  | .error _ => none
  | .ok bytes => if limits.fileSize < bytes.length then none else (d.readText p).toOption

/-- The lines of a text that match, numbered from `line`, under the name of their file. -/
def matchesIn (pattern : Pattern.Node) (name : Text) : (line : Nat) → List Text → List Text
  | _, [] => []
  | line, t :: rest =>
    let later := matchesIn pattern name (line + 1) rest
    if pattern.occursIn t then (name ++ ":" ++ Text.ofNat line ++ ": " ++ t.trim) :: later else later

/-- Whether the name of a file is wanted. An empty wish wants every file. -/
def isIncluded (include? : Option Text) (p : Path) : Bool :=
  match include? with
  | some (c :: r) => Glob.isMatch (Text.lower (c :: r)) (Text.lower p.name)
  | _ => true

def collect (search : Path → List Text) (most : Nat) : List Path → List Text
  | [] => []
  | p :: rest =>
    let found := (search p).take most
    if found.length < most then found ++ collect search (most - found.length) rest else found

variable [Host]

def searchFiles (d : Disk) (root : Path) (limits : SearchLimits) (pattern : Text)
    (include? : Option Text) : Except ToolFault Text :=
  match Pattern.Node.read true pattern with
  | .error fault => .error (.pattern pattern fault)
  | .ok node =>
    let files := (d.sourceFiles {} root).filter (isIncluded include?)
    let search (p : Path) : List Text :=
      match searchable? d limits p with
      | some t => matchesIn node (Path.relativeText ((Path.below? root p).getD [])) 1 (Text.lines t)
      | none => []
    let found := collect search (max 1 limits.results).toNat files
    .ok (if found.isEmpty then "No matches found for \"" ++ pattern ++ "\"." else Text.unlines found)

end CodeAgent.FileTool
