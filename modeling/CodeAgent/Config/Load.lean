import CodeAgent.Config
import CodeAgent.Disk.Access
import CodeAgent.Json.Printer

namespace CodeAgent.Config

/-- The directory that holds the configuration and the indexes of all workspaces. -/
def homeDirectory (home : Path) : Path := home.child ".codewright"

def fileName : Text := "config.json"

/-- Why loading ends without a configuration. -/
inductive LoadFault where
  | disk (fault : DiskFault)
  | longInteger (digits : Nat)
  | tooDeep
  | notAnObject
deriving DecidableEq

variable [Host]

def readFields (d : Disk) (file : Path) : Except LoadFault (List (Text × Json)) :=
  match d.readText file with
  | .error fault => if fault.isSystem then .ok [] else .error (.disk fault)
  | .ok t =>
    match Json.read t with
    | .ok (.obj fields) => .ok fields
    | .ok _ => .error .notAnObject
    | .error (.longInteger digits) => .error (.longInteger digits)
    | .error .tooDeep => .error .tooDeep
    | .error _ => .ok []

def defaultDocument : Text :=
  Json.writeIndented (.obj (ConfigKey.all.map fun k => (k.name, k.default)))

/-- Where the file is, and the disk once the directory for the usual place is there. -/
def place (d : Disk) (home : Path) (named : Option Text) : Disk × Except DiskFault Path :=
  match named with
  | some (c :: r) => (d, .ok (Path.ofText (c :: r)))
  | _ =>
    match d.ensureDirectories (homeDirectory home) with
    | (d, .ok _) => (d, .ok ((homeDirectory home).child fileName))
    | (d, .error fault) => (d, .error fault)

/-- Loads the configuration for a named file, or for the one at the usual place. -/
def load (d : Disk) (home : Path) (environment : Text → Option Text) (named : Option Text) :
    Disk × Except LoadFault Config :=
  match place d home named with
  | (d, .error fault) => (d, .error (.disk fault))
  | (d, .ok file) =>
    match d.exists? file with
    | .error fault => (d, .error (.disk fault))
    | .ok true => (d, (readFields d file).map (layered environment))
    | .ok false =>
      if named.isNone then ((d.writeText file defaultDocument).1, .ok (layered environment []))
      else (d, .ok (layered environment []))

end CodeAgent.Config
