import CodeAgent.Disk.Volume
import CodeAgent.Edit.Failure
import CodeAgent.Edit.Replace

namespace CodeAgent.Transaction

structure FileChange where
  path : Path
  blocks : List Edit
deriving DecidableEq

/-- Files before the transaction; a file that was not there has no text. -/
abbrev Backups := Table Path (Option Text)

inductive Fault where
  | failed (failure : TransactionFailure)
  /-- A failure that the system did not report. Nothing is restored then. -/
  | disk (fault : DiskFault)
deriving DecidableEq

def Fault.early (cause : Text) : Fault := .failed { cause }

def snapshot (d : Disk) (p : Path) : Except Fault (Option Text) :=
  match d.readText p with
  | .ok t => .ok (some t)
  | .error (.system .noEntry _) => .ok none
  | .error (.system errno q) => refused (.system errno q)
  | .error (.unreadable fault) => refused (.unreadable fault)
  | .error fault => .error (.disk fault)
where
  refused (fault : DiskFault) : Except Fault (Option Text) :=
    .error (.early ("Cannot snapshot " ++ p.text ++ ": " ++ fault.message))

def backUp (d : Disk) (backups : Backups) : List FileChange → Except Fault Backups
  | [] => .ok backups
  | change :: rest =>
    if (backups.get? change.path).isSome then backUp d backups rest
    else
      match snapshot d change.path with
      | .ok kept => backUp d (backups.set change.path kept) rest
      | .error fault => .error fault

def current (backups : Backups) (working : Table Path Text) (p : Path) : Text :=
  match working.get? p with
  | some t => t
  | none => ((backups.get? p).join).getD []

/-- The texts to write, in the order in which their files first occur. -/
def resolve (backups : Backups) (working : Table Path Text) :
    List FileChange → Except Fault (Table Path Text)
  | [] => .ok working
  | change :: rest =>
    match Edit.applyBlocks 1 change.blocks (current backups working change.path) with
    | .ok t => resolve backups (working.set change.path t) rest
    | .error number =>
      .error (.early ("Search block " ++ Text.ofNat number ++ " not found in " ++ change.path.text ++
        ". Ensure exact match including whitespace"))

def writeFile (v : Volume) (p : Path) (t : Text) : Volume × Except DiskFault Unit :=
  match v.ensureDirectories p.parent with
  | (v, .error fault) => (v, .error fault)
  | (v, .ok _) => v.writeText p t

def restore (v : Volume) (p : Path) : Option Text → Volume × Except DiskFault Unit
  | some t => v.writeText p t
  | none => v.removeIfPresent p

/-- Restores files in order, with the paths for which that fails and why. -/
def rollBack (backups : Backups) : List Path → Volume → Volume × List (Text × Text)
  | [], v => (v, [])
  | p :: rest, v =>
    match restore v p ((backups.get? p).join) with
    | (v, .ok _) => rollBack backups rest v
    | (v, .error fault) =>
      let (v, errors) := rollBack backups rest v
      (v, (p.text, fault.message) :: errors)

/-- Where writing stopped: the files attempted, and why the last of them could not be written. -/
structure Stop where
  done : List Path
  path : Path
  fault : DiskFault

def Stop.attempted (s : Stop) : List Path := s.done ++ [s.path]

def writeAll (done : List Path) : Table Path Text → Volume → Volume × Except Stop Unit
  | [], v => (v, .ok ())
  | (p, t) :: rest, v =>
    match writeFile v p t with
    | (v, .ok _) => writeAll (done ++ [p]) rest v
    | (v, .error fault) => (v, .error ⟨done, p, fault⟩)

/-- What becomes of a transaction whose writing stopped. Only a failure that the system reported is
rolled back. -/
def afterStop (backups : Backups) (v : Volume) (s : Stop) : Volume × Fault :=
  if s.fault.isSystem then
    let (v, errors) := rollBack backups s.attempted v
    (v, .failed ⟨"Write failed for " ++ s.path.text ++ ": " ++ s.fault.message, Table.ofPairs errors⟩)
  else (v, .disk s.fault)

/-- Makes all changes on a volume or none, and counts the files written. -/
def applyOn (v : Volume) (changes : List FileChange) : Volume × Except Fault Nat :=
  match backUp v.disk [] changes with
  | .error fault => (v, .error fault)
  | .ok backups =>
    match resolve backups [] changes with
    | .error fault => (v, .error fault)
    | .ok working =>
      match writeAll [] working v with
      | (v, .ok _) => (v, .ok working.length)
      | (v, .error stop) =>
        let (v, fault) := afterStop backups v stop
        (v, .error fault)

def apply (d : Disk) (changes : List FileChange) : Disk × Except Fault Nat :=
  let (v, result) := applyOn ⟨d, []⟩ changes
  (v.disk, result)

end CodeAgent.Transaction
