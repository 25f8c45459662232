import CodeAgent.Disk.Locate

namespace CodeAgent.Disk

def readBytes (d : Disk) (p : Path) : Except DiskFault Bytes :=
  match d.stat p with
  | .ok (.file bytes) => .ok bytes
  | .ok _ => .error (.system .isDirectory p)
  | .error fault => .error fault

/-- The text of a file; every kind of line end is one line feed. -/
def readText (d : Disk) (p : Path) : Except DiskFault Text :=
  match d.readBytes p with
  | .error fault => .error fault
  | .ok bytes =>
    match Utf8.decode bytes with
    | .ok t => .ok (Text.normalizeNewlines t)
    | .error fault => .error (.unreadable fault)

/-- The text of a file with a mark for every part that is no text. -/
def readTextLossy (d : Disk) (p : Path) : Except DiskFault Text :=
  (d.readBytes p).map fun bytes => Text.normalizeNewlines (Utf8.decodeLossy bytes)

def listing (d : Disk) (p : Path) : Except DiskFault (List Text) :=
  match d.locate true p with
  | .error fault => .error fault
  | .ok place =>
    match d.lookup? place with
    | some .directory => .ok ((d.children place).map (·.1))
    | some _ => .error (.system .notDirectory p)
    | none => .error (.system .noEntry p)

def makeDirectory (d : Disk) (p : Path) : Except DiskFault Disk :=
  match d.locate false p with
  | .error fault => .error fault
  | .ok place =>
    match d.lookup? place with
    | some _ => .error (.system .exists_ p)
    | none => .ok (d.put place .directory)

def ensureDirectory (d : Disk) (p : Path) : Except DiskFault Disk :=
  match d.makeDirectory p with
  | .ok d' => .ok d'
  | .error fault =>
    if fault.isSystem then
      match d.isDirectory p with
      | .ok true => .ok d
      | .ok false => .error fault
      | .error fault' => .error fault'
    else .error fault

/-- Makes a directory and those above it; the names are given innermost first. -/
def ensureBelow (root : Text) : List Text → Disk → Disk × Except DiskFault Unit
  | [], d =>
    match d.ensureDirectory ⟨root, []⟩ with
    | .ok d' => (d', .ok ())
    | .error fault => (d, .error fault)
  | name :: outer, d =>
    let p : Path := ⟨root, (name :: outer).reverse⟩
    match d.makeDirectory p with
    | .ok d' => (d', .ok ())
    | .error (.system .noEntry _) =>
      match ensureBelow root outer d with
      | (d', .error fault) => (d', .error fault)
      | (d', .ok _) =>
        match d'.ensureDirectory p with
        | .ok d'' => (d'', .ok ())
        | .error fault => (d', .error fault)
    | .error fault =>
      if fault.isSystem then
        match d.isDirectory p with
        | .ok true => (d, .ok ())
        | .ok false => (d, .error fault)
        | .error fault' => (d, .error fault')
      else (d, .error fault)

/-- Makes a directory with everything above it that is missing. -/
def ensureDirectories (d : Disk) (p : Path) : Disk × Except DiskFault Unit :=
  ensureBelow p.root p.parts.reverse d

def openForWriting (d : Disk) (p : Path) : Except DiskFault (Place × Disk) :=
  match d.locate true p with
  | .error fault => .error fault
  | .ok place =>
    match d.lookup? place with
    | some .directory => .error (.system .isDirectory p)
    | _ => .ok (place, d.put place (.file []))

def writeBytes (d : Disk) (p : Path) (bytes : Bytes) : Except DiskFault Disk :=
  match d.openForWriting p with
  | .error fault => .error fault
  | .ok (place, d') => .ok (d'.put place (.file bytes))

/-- Writes a text. Text that has no UTF-8 form is found out after the file was opened. -/
def writeText (d : Disk) (p : Path) (t : Text) : Disk × Except DiskFault Unit :=
  match d.openForWriting p with
  | .error fault => (d, .error fault)
  | .ok (place, d') =>
    match Utf8.encode t with
    | .ok bytes => (d'.put place (.file bytes), .ok ())
    | .error fault => (d', .error (.unwritable fault))

def remove (d : Disk) (p : Path) : Except DiskFault Disk :=
  match d.locate false p with
  | .error fault => .error fault
  | .ok place =>
    match d.lookup? place with
    | some .directory => .error (.system .isDirectory p)
    | some _ => .ok (d.erase place)
    | none => .error (.system .noEntry p)

def removeIfPresent (d : Disk) (p : Path) : Except DiskFault Disk :=
  match d.remove p with
  | .error (.system .noEntry _) => .ok d
  | outcome => outcome

def rename (d : Disk) (old new : Path) : Except DiskFault Disk :=
  match d.locate false old, d.locate false new with
  | .error fault, _ => .error fault
  | _, .error fault => .error fault
  | .ok from_, .ok to_ =>
    match d.lookup? from_, d.lookup? to_ with
    | none, _ => .error (.system .noEntry old)
    | some _, some .directory => .error (.system .isDirectory new)
    | some e, _ => .ok ((d.erase from_).put to_ e)

end CodeAgent.Disk
