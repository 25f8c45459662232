import CodeAgent.Agent.Task
import CodeAgent.Graph.Report

namespace CodeAgent

structure Service where
  /-- The disk while no workspace is open. -/
  closedDisk : Disk
  opened : Option Workspace := none
  conversation : List Message := []
  gate : Gate := {}
  busy : Bool := false
  /-- Whether changes to the files of the open workspace are watched. -/
  watched : Bool := false
  /-- Whether the index of the open workspace is still to be brought to the disk. -/
  indexing : Bool := false

namespace Service

def disk (v : Service) : Disk := (v.opened.map (·.disk)).getD v.closedDisk

/-- Ends what goes on beside the open workspace, saves its index and lets go of it. -/
def closeWorkspace (v : Service) : Service × Except DiskFault Unit :=
  match v.opened with
  | none => (v, .ok ())
  | some w =>
    let v := { v with watched := false, indexing := false }
    match w.close with
    | (w, .ok _) => ({ v with closedDisk := w.disk, opened := none, conversation := [] }, .ok ())
    | (w, .error fault) => ({ v with opened := some w }, .error fault)

variable [Host]

/-- Opens a workspace in the place of the open one. Its index is brought to the disk later. A directory
that is not there is found out first; other failures come when the open workspace is already gone. -/
def openWorkspace (s : Setting) (v : Service) (path : Text) : Service × Except WorkspaceFault Workspace :=
  match Workspace.make s v.disk path with
  | .error fault => (v, .error fault)
  | .ok new =>
    match v.closeWorkspace with
    | (v, .error fault) => (v, .error (.disk fault))
    | (v, .ok _) =>
      match Workspace.start { new with disk := v.closedDisk } with
      | (new, .error fault) => ({ v with closedDisk := new.disk }, .error fault)
      | (new, .ok _) =>
        ({ v with
            opened := some new
            conversation := []
            watched := s.config.flag .watchEnabled
            indexing := new.index.isSome }, .ok new)

/-- Brings the index of the open workspace to the disk if that has not been done. -/
def settle (s : Setting) (v : Service) : Service × Except IndexFault Unit :=
  match v.opened with
  | some w =>
    if v.indexing then
      let (w, result) := w.reindex s
      ({ v with opened := some w, indexing := false }, result)
    else (v, .ok ())
  | none => (v, .ok ())

/-- The service at its start. A configured workspace that is not there is passed over. -/
def start (s : Setting) (d : Disk) : Service × Except WorkspaceFault Unit :=
  let v : Service := { closedDisk := d }
  if (s.config.get .workspacePath).isFalsy then (v, .ok ())
  else
    match v.openWorkspace s (s.config.text .workspacePath) with
    | (v, .error (.rootNotFound _)) | (v, .ok _) => (v, .ok ())
    | (v, .error fault) => (v, .error fault)

end Service
end CodeAgent
