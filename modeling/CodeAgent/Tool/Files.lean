import CodeAgent.Edit.Lines
import CodeAgent.Tool.Fault

namespace CodeAgent.FileTool

def ofDisk {α : Type} (r : Except DiskFault α) : Except ToolFault α := r.mapError .disk

def requireFile (d : Disk) (p : Path) (display : Text) : Except ToolFault Unit := do
  if !(← ofDisk (d.exists? p)) then throw (.fileNotFound display)
  if ← ofDisk (d.isDirectory p) then throw (.notAFile display)

def looksBinary (bytes : Bytes) : Bool := (bytes.take 1024).contains 0

def show_ (d : Disk) (p : Path) (display : Text) : Except ToolFault Text := do
  requireFile d p display
  if looksBinary (← ofDisk (d.readBytes p)) then throw (.binaryFile display)
  return Lines.numbered (← ofDisk (d.readTextLossy p))

def store (d : Disk) (p : Path) (t answer : Text) : Disk × Except ToolFault Text :=
  match d.writeText p t with
  | (d, .ok _) => (d, .ok answer)
  | (d, .error fault) => (d, .error (.disk fault))

def write (d : Disk) (p : Path) (content display : Text) : Disk × Except ToolFault Text :=
  match d.ensureDirectories p.parent with
  | (d, .error fault) => (d, .error (.disk fault))
  | (d, .ok _) =>
    store d p content
      ("Wrote " ++ Text.ofNat (Text.lines content).length ++ " lines to " ++ display)

/-- Changes the text of a file that must be there. Nothing is written unless the new text is found. -/
def change (d : Disk) (p : Path) (display : Text) (edit : Text → Except ToolFault Text)
    (answer : Text) : Disk × Except ToolFault Text :=
  match requireFile d p display with
  | .error fault => (d, .error fault)
  | .ok _ =>
    match d.readText p with
    | .error fault => (d, .error (.disk fault))
    | .ok t =>
      match edit t with
      | .error fault => (d, .error fault)
      | .ok t => store d p t answer

def edit (d : Disk) (p : Path) (edits : List Edit) (display : Text) : Disk × Except ToolFault Text :=
  change d p display (fun t => (Edit.applyAll edits t).mapError (.edit display))
    ("Applied " ++ Text.ofNat edits.length ++ " edit(s) to " ++ display)

/-- The order of the two lines is checked once the file is known to be there. -/
def replaceLines (d : Disk) (p : Path) (first last : Nat) (content display : Text) :
    Disk × Except ToolFault Text :=
  match requireFile d p display with
  | .error fault => (d, .error fault)
  | .ok _ =>
    if last < first then (d, .error (.lineOrder first last))
    else
      change d p display (fun t => .ok (Lines.replace first last content t))
        ("Replaced lines " ++ Text.ofNat first ++ "-" ++ Text.ofNat last ++ " in " ++ display)

def insertCode (d : Disk) (p : Path) (line : Nat) (content display : Text) :
    Disk × Except ToolFault Text :=
  change d p display (fun t => .ok (Lines.insertAfter line content t))
    ("Inserted code after line " ++ Text.ofNat line ++ " in " ++ display)

/-- One line of a listing. A link that leads nowhere has no kind. -/
def listingLine (d : Disk) (p : Path) (name : Text) : Text :=
  match d.stat (p.child name) with
  | .ok .directory => "DIR  " ++ name
  | .ok (.file bytes) => "FILE " ++ name ++ " (" ++ Text.ofNat bytes.length ++ " bytes)"
  | _ => "???? " ++ name

def list (d : Disk) (p : Path) (display : Text) : Except ToolFault Text := do
  if !(← ofDisk (d.exists? p)) then throw (.directoryNotFound display)
  if !(← ofDisk (d.isDirectory p)) then throw (.notADirectory display)
  let names ← ofDisk (d.listing p)
  return if names.isEmpty then "(empty directory)" else Text.unlines (names.map (listingLine d p))

def delete (d : Disk) (p : Path) (display : Text) : Disk × Except ToolFault Text :=
  let removed : Except ToolFault Disk := do
    if !(← ofDisk (d.exists? p)) then throw (.fileNotFound display)
    if ← ofDisk (d.isDirectory p) then throw (.deletesDirectory display)
    ofDisk (d.remove p)
  match removed with
  | .ok d => (d, .ok ("Deleted: " ++ display))
  | .error fault => (d, .error fault)

def createDirectory (d : Disk) (p : Path) (display : Text) : Disk × Except ToolFault Text :=
  match d.ensureDirectories p with
  | (d, .ok _) => (d, .ok ("Created directory: " ++ display))
  | (d, .error fault) => (d, .error (.disk fault))

end CodeAgent.FileTool
