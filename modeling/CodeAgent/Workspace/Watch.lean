import CodeAgent.Workspace.Basic

namespace CodeAgent.Workspace

inductive ChangeKind where
  | added
  | modified
  | deleted
deriving DecidableEq

structure Change where
  kind : ChangeKind
  path : Text
deriving DecidableEq

variable [Host]

def takeNote (s : Setting) (w : Workspace) (c : Change) : Workspace × Except DiskFault Unit :=
  match w.resolve s c.path with
  | .error fault => (w, .error fault)
  | .ok p => if c.kind = .deleted then w.fileRemoved p else w.fileChanged s p

def takeNotes (s : Setting) (w : Workspace) : List Change → Workspace × Except DiskFault Unit
  | [] => (w, .ok ())
  | c :: rest =>
    match w.takeNote s c with
    | (w, .ok _) => takeNotes s w rest
    | (w, .error fault) => if fault.isSystem then takeNotes s w rest else (w, .error fault)

def watchBatch (s : Setting) (w : Workspace) (batch : List Change) : Workspace × Except DiskFault Unit :=
  takeNotes s w (batch.mergeSort fun a b => Text.ble a.path b.path)

def watch (s : Setting) (w : Workspace) : List (List Change) → Workspace × Except DiskFault Unit
  | [] => (w, .ok ())
  | batch :: rest =>
    match w.watchBatch s batch with
    | (w, .ok _) => watch s w rest
    | (w, .error fault) => (w, .error fault)

end CodeAgent.Workspace
