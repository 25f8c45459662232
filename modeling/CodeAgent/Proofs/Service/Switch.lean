import CodeAgent.Host.Usual
import CodeAgent.Proofs.Agent.Task
import CodeAgent.Proofs.Graph.Sources
import CodeAgent.Service.Answer

namespace CodeAgent

namespace Workspace

variable {w : Workspace}

theorem close_disk (w : Workspace) : w.close.1 = { w with disk := w.close.1.disk } := by
  obtain ⟨disk, root, graph, index, indexState, listing⟩ := w
  cases index <;> rfl

variable [Host]

/-- Why a workspace that was made is not opened: the graph cannot be built, or the store cannot be read. -/
theorem start_error_iff : (∃ fault, w.start.2 = .error fault) ↔
    (∃ fault, w.graph.rebuild w.disk = .error fault) ∨
      ∃ ix fault, w.index = some ix ∧ (ix.store.load w.disk ix.file).2 = .error fault := by
  unfold start loadIndex markDirty
  cases hg : w.graph.rebuild w.disk with
  | error fault => simp
  | ok graph =>
    cases hi : w.index with
    | none => simp
    | some ix =>
      cases hl : (ix.store.load w.disk ix.file).2 with
      | ok => simp [hl]
      | error fault => simp [hl]

end Workspace

namespace Service

open Workspace (make)

variable {s : Setting} {provider : ProviderState} {v v' : Service} {w : Workspace} {path : Text}
  {answer : Except WorkspaceFault Answer} {result : Except WorkspaceFault Workspace}

section
/-- The workspace that was open is open for the tasks to come, with its conversation. The disk may be another. -/
structure StillOpen (v v' : Service) : Prop where
  tasks : ∃ d, ∀ request, v'.taskOf request =
    (v.taskOf request).map fun (t, b) => (t, { b with workspace := { b.workspace with disk := d } })
  conversation : v'.conversation = v.conversation

theorem StillOpen.refl (hw : v.opened = some w) : StillOpen v v where
  tasks := ⟨w.disk, fun request => by simp [taskOf, hw]⟩
  conversation := rfl

variable [Host]

/-- What comes of opening a workspace in the place of another, stage by stage. -/
inductive Switch (s : Setting) (v : Service) (w : Workspace) (path : Text) :
    Service → Except WorkspaceFault Workspace → Prop
  | refused {fault : WorkspaceFault} (made : make s w.disk path = .error fault) : Switch s v w path v (.error fault)
  | unsaved {new w' : Workspace} {fault : DiskFault} (made : make s w.disk path = .ok new)
      (saved : w.close = (w', .error fault)) :
      Switch s v w path { v with opened := some w', watched := false, indexing := false } (.error (.disk fault))
  | lost {new new' w' : Workspace} {fault : WorkspaceFault} (made : make s w.disk path = .ok new)
      (saved : w.close = (w', .ok ())) (started : { new with disk := w'.disk }.start = (new', .error fault)) :
      Switch s v w path
        { v with closedDisk := new'.disk, opened := none, conversation := [], watched := false, indexing := false }
        (.error fault)
  | opened {new new' w' : Workspace} (made : make s w.disk path = .ok new) (saved : w.close = (w', .ok ()))
      (started : { new with disk := w'.disk }.start = (new', .ok ())) :
      Switch s v w path
        { v with
          closedDisk := w'.disk
          opened := some new'
          conversation := []
          watched := s.config.flag .watchEnabled
          indexing := new'.index.isSome }
        (.ok new')

/-- The open workspace is let go of, and then the new one cannot be opened. -/
def LosesBoth (s : Setting) (w : Workspace) (path : Text) : Prop :=
  ∃ new w', make s w.disk path = .ok new ∧ w.close = (w', .ok ()) ∧
    ((∃ fault, new.graph.rebuild w'.disk = .error fault) ∨
      ∃ ix fault, new.index = some ix ∧ (ix.store.load w'.disk ix.file).2 = .error fault)

/-- A service after a workspace that was asked for was not opened. -/
structure FailedSwitch (s : Setting) (v : Service) (w : Workspace) (path : Text) (v' : Service) : Prop where
  refused : ∀ fault, make s w.disk path = .error fault → v' = v
  unsaved : ∀ new w' fault, make s w.disk path = .ok new → w.close = (w', .error fault) →
    v' = { v with opened := some w', watched := false, indexing := false }
  lost : LosesBoth s w path → v'.opened = none ∧ v'.conversation = []
  kept : StillOpen v v' ↔ ¬ LosesBoth s w path

/-- A switch that fails leaves the workspace, or has already let go of it. -/
theorem Switch.failed {fault : WorkspaceFault} (h : Switch s v w path v' (.error fault)) (hw : v.opened = some w) :
    FailedSwitch s v w path v' := by
  cases h with
  | refused made =>
    have hnot : ¬ LosesBoth s w path := by
      rintro ⟨new, w', hm, -⟩
      rw [made] at hm
      cases hm
    exact ⟨fun _ _ => rfl, by simp [made], fun h => absurd h hnot, fun _ => hnot, fun _ => .refl hw⟩
  | @unsaved new w' fault made saved =>
    have hnot : ¬ LosesBoth s w path := by
      rintro ⟨new, w', -, hc, -⟩
      rw [saved] at hc
      cases hc
    have hw' : w' = { w with disk := w'.disk } := by simpa [saved] using w.close_disk
    refine ⟨by simp [made], ?_, fun h => absurd h hnot, fun _ => hnot, fun _ => ⟨⟨w'.disk, fun request => ?_⟩, rfl⟩⟩
    · rintro new w' fault - hc
      rw [saved] at hc
      cases hc
      rfl
    · simp only [taskOf, hw, Option.map_some]
      rw [← hw']
  | @lost new new' w' fault made saved started =>
    have hloses : LosesBoth s w path := by
      exact ⟨new, w', made, saved, Workspace.start_error_iff.mp ⟨fault, congrArg Prod.snd started⟩⟩
    refine ⟨by simp [made], by simp [saved], fun _ => ⟨rfl, rfl⟩, fun h => ?_, fun h => absurd hloses h⟩
    obtain ⟨d, htasks⟩ := h.tasks
    have htask := htasks { task := [] }
    simp [taskOf, hw] at htask

end

attribute [local instance] Host.usual

end Service

end CodeAgent
