import CodeAgent.Disk.Access

namespace CodeAgent

/-- Why the system refuses a call, and how far the call had come by then. -/
structure Refusal where
  number : Nat
  reason : Text
  /-- How many levels below the refused one were still to be made, when directories are made. -/
  below : Nat := 0
  /-- What is left in the file, when a write is refused that had opened it. -/
  left : Option Bytes := none

def Refusal.errno (r : Refusal) : Errno := .other r.number r.reason

structure Volume where
  disk : Disk
  /-- For each of the next calls, whether it is refused. -/
  ahead : List (Option Refusal) := []

namespace Volume

def next (v : Volume) : Option Refusal × List (Option Refusal) := (v.ahead.head?.join, v.ahead.tail)

def above (p : Path) (levels : Nat) : Path := { p with parts := p.parts.take (p.parts.length - levels) }

/-- Makes a directory with everything above it that is missing. A refused call has made what lies above the
level that was refused. -/
def ensureDirectories (v : Volume) (p : Path) : Volume × Except DiskFault Unit :=
  match v.next with
  | (none, ahead) =>
    let (disk, result) := v.disk.ensureDirectories p
    (⟨disk, ahead⟩, result)
  | (some r, ahead) =>
    (⟨(v.disk.ensureDirectories (above p (r.below + 1))).1, ahead⟩,
      .error (.system r.errno (above p r.below)))

def writeText (v : Volume) (p : Path) (t : Text) : Volume × Except DiskFault Unit :=
  match v.next with
  | (none, ahead) =>
    let (disk, result) := v.disk.writeText p t
    (⟨disk, ahead⟩, result)
  | (some r, ahead) =>
    let opened := r.left.bind fun bytes => (v.disk.writeBytes p bytes).toOption
    (⟨opened.getD v.disk, ahead⟩, .error (.system r.errno p))

def removeIfPresent (v : Volume) (p : Path) : Volume × Except DiskFault Unit :=
  match v.next with
  | (none, ahead) =>
    match v.disk.removeIfPresent p with
    | .ok disk => (⟨disk, ahead⟩, .ok ())
    | .error fault => (⟨v.disk, ahead⟩, .error fault)
  | (some r, ahead) => (⟨v.disk, ahead⟩, .error (.system r.errno p))

/-- Moves a file over whatever file stands at the new path. A refused move has moved nothing. -/
def rename (v : Volume) (old new : Path) : Volume × Except DiskFault Unit :=
  match v.next with
  | (none, ahead) =>
    match v.disk.rename old new with
    | .ok disk => (⟨disk, ahead⟩, .ok ())
    | .error fault => (⟨v.disk, ahead⟩, .error fault)
  | (some r, ahead) => (⟨v.disk, ahead⟩, .error (.system r.errno old))

end Volume
end CodeAgent
