import CodeAgent.Graph.Update
import CodeAgent.Store.Document
import CodeAgent.Store.Place
import CodeAgent.Proofs.Disk.Change
import CodeAgent.Proofs.Disk.Name
import CodeAgent.Proofs.Text.Lines

namespace CodeAgent

namespace Disk

variable {d d' d'' : Disk} {p old new : Path} {x : Place} {bytes : Bytes}

theorem Linkless.plain (h : d.Linkless) (hx : (".." : Text) ∉ x) : d.Plain x := ⟨hx, fun y _ => h y⟩

/-- When a rename succeeds, and what it does. -/
theorem rename_iff : d.rename old new = .ok d' ↔ ∃ x y e, d.locate false old = .ok x ∧ d.locate false new = .ok y ∧
    d.lookup? x = some e ∧ d.lookup? y ≠ some .directory ∧ d' = (d.erase x).put y e := by
  unfold rename
  cases d.locate false old with
  | error fault => simp
  | ok x =>
    cases d.locate false new with
    | error fault => simp
    | ok y =>
      cases hx : d.lookup? x with
      | none => simp [hx]
      | some e =>
        by_cases hy : d.lookup? y = some .directory
        · simp [hx, hy]
        · simp [hx, hy, eq_comm (a := d')]

/-- A rename changes its two paths only. -/
theorem rename_grows (hold : d.Plain old.parts) (hnew : d.Plain new.parts)
    (hfile : d.lookup? old.parts = some (.file bytes)) (h : d.rename old new = .ok d') :
    Grows [old.parts, new.parts] d d' := by
  obtain ⟨_, _, e, hl, hl', he, hfree, rfl⟩ := rename_iff.mp h
  obtain ⟨rfl, -, -⟩ := locate_ok hold hl
  obtain ⟨rfl, hparent, -⟩ := locate_ok hnew hl'
  rw [hfile] at he
  cases he
  have hroot : old.parts ≠ [] := by
    intro he
    rw [he] at hfile
    cases hfile
  have hne : new.parts ≠ [] := by
    intro he
    exact hfree (by rw [he]; rfl)
  have hother (y : Place) (hy : y ∉ [old.parts, new.parts]) :
      ((d.erase old.parts).put new.parts (.file bytes)).lookup? y = d.lookup? y := by
    simp only [List.mem_cons, List.not_mem_nil, or_false, not_or] at hy
    rw [lookup?_put_of_ne _ hy.2, lookup?_erase_of_ne d hy.1]
  refine ⟨?_, fun tree => ?_, fun y hy => Or.inl (hother y hy)⟩
  · intro y target hl
    by_cases hy : y = new.parts
    · rw [hy, lookup?_put_self _ hne] at hl
      cases hl
    rw [lookup?_put_of_ne _ hy] at hl
    by_cases hy' : y = old.parts
    · rw [hy', lookup?_erase_self d hroot] at hl
      cases hl
    · rwa [lookup?_erase_of_ne d hy'] at hl
  · have herase : (d.erase old.parts).IsTree := tree.erase (by simp [hfile])
    refine herase.put ?_ fun hdirectory => ?_
    · rw [lookup?_erase_of_ne d, hparent]
      intro he
      rw [he, hfile] at hparent
      cases hparent
    · by_cases he : new.parts = old.parts
      · rw [he, lookup?_erase_self d hroot] at hdirectory
        cases hdirectory
      · rw [lookup?_erase_of_ne d he] at hdirectory
        exact absurd hdirectory hfree

/-- Apart from directories that were made, nothing was changed but at places whose names no module has. -/
def Spares (d d' : Disk) : Prop := ∃ xs, Grows xs d d' ∧ ∀ x ∈ xs, Path.suffix ⟨[Path.slash], x⟩ ∉ Graph.extensions

theorem Spares.refl (d : Disk) : Spares d d := ⟨[], (Touches.refl [] d).toGrows, by simp⟩

theorem Spares.trans (h : Spares d d') (h' : Spares d' d'') : Spares d d'' := by
  obtain ⟨xs, hg, hx⟩ := h
  obtain ⟨ys, hg', hy⟩ := h'
  refine ⟨xs ++ ys, (hg.mono (List.subset_append_left xs ys)).trans (hg'.mono (List.subset_append_right xs ys)), ?_⟩
  intro x hm
  rcases List.mem_append.mp hm with hm | hm
  · exact hx x hm
  · exact hy x hm

theorem Spares.tree (h : Spares d d') (tree : d.IsTree) : d'.IsTree := by
  obtain ⟨xs, hg, -⟩ := h
  exact hg.tree tree

theorem Spares.linkless (h : Spares d d') (hl : d.Linkless) : d'.Linkless := by
  obtain ⟨xs, hg, -⟩ := h
  exact fun x target hx => hl x target (hg.noLink x target hx)

section
variable (h : Spares d d') (hx : Path.suffix ⟨[Path.slash], x⟩ ∈ Graph.extensions)
include h hx

/-- Where a module can stand, at most a directory was made. -/
theorem Spares.outside : d'.lookup? x = d.lookup? x ∨ d.lookup? x = none ∧ d'.lookup? x = some .directory := by
  obtain ⟨xs, hg, hnot⟩ := h
  exact hg.outside x fun hm => hnot x hm hx

theorem Spares.file_iff : d'.lookup? x = some (.file bytes) ↔ d.lookup? x = some (.file bytes) := by
  rcases h.outside hx with he | ⟨hnone, hdirectory⟩
  · rw [he]
  · simp [hnone, hdirectory]

end

end Disk

namespace Store
open Disk

variable {s : Store} {d d' : Disk} {file dir : Path}

theorem getLast?_of_suffix {p : Path} (h : p.suffix ∈ Graph.extensions) :
    p.name.getLast? = some (CodePoint.ofChar 'y') := by
  have hsuffix : (Path.cutSuffix p.name).2 = (".py" : Text) := by simpa [Graph.extensions, Path.suffix] using h
  unfold Path.cutSuffix at hsuffix
  split at hsuffix
  · rename_i a before b after hcut
    obtain ⟨hname, -⟩ := Text.cutLast?_some hcut
    dsimp only at hsuffix
    rw [hname, List.getLast?_append, hsuffix]
    rfl
  · cases hsuffix

theorem no_module_of_child {dir : Path} {name : Text} (h : name.getLast? ≠ some (CodePoint.ofChar 'y')) :
    Path.suffix ⟨[Path.slash], (dir.child name).parts⟩ ∉ Graph.extensions := by
  intro hm
  have hname : Path.name ⟨[Path.slash], (dir.child name).parts⟩ = name := by simp [Path.name, Path.child]
  exact h (hname ▸ getLast?_of_suffix hm)

theorem temporaryPath_child (d : Disk) (dir : Path) : ∃ name : Text, temporaryPath d dir = dir.child name ∧
    name.getLast? ≠ some (CodePoint.ofChar 'y') ∧ name ≠ ".." := by
  refine ⟨_, rfl, ?_, ?_⟩
  · have htmp : (".tmp" : Text).getLast? = some (CodePoint.ofChar 'p') := by decide
    rw [temporaryName, List.getLast?_append, htmp, Option.some_or]
    decide
  · intro he
    cases congrArg (fun name => name[1]?) he

/-- A save where the system refuses nothing. -/
theorem save_eq (s : Store) (d : Disk) (file : Path) : s.save d file =
    match d.ensureDirectories file.parent with
    | (d, .error fault) => (d, .error fault)
    | (d, .ok _) =>
      match d.writeText (temporaryPath d file.parent) (Json.write s.toJson) with
      | (d', .error fault) => (d', .error fault)
      | (d', .ok _) =>
        match d'.rename (temporaryPath d file.parent) file with
        | .ok d => (d, .ok ())
        | .error fault =>
          if fault.isSystem then
            match d'.removeIfPresent (temporaryPath d file.parent) with
            | .ok d => (d, .error fault)
            | .error fault => (d', .error fault)
          else (d', .error fault) := by
  unfold save saveOn Volume.ensureDirectories Volume.next
  dsimp only [List.head?_nil, Option.join_none, List.tail_nil]
  cases d.ensureDirectories file.parent with
  | mk d₁ made =>
    cases made with
    | error fault => rfl
    | ok _ =>
      unfold Volume.writeText Volume.next
      dsimp only [List.head?_nil, Option.join_none, List.tail_nil]
      cases d₁.writeText (temporaryPath d₁ file.parent) (Json.write s.toJson) with
      | mk d₂ written =>
        cases written with
        | error fault => rfl
        | ok _ =>
          unfold Volume.rename Volume.removeIfPresent Volume.next
          dsimp only [List.head?_nil, Option.join_none, List.tail_nil]
          cases d₂.rename (temporaryPath d₁ file.parent) file with
          | ok d₃ => rfl
          | error fault =>
            dsimp only
            split
            · cases d₂.removeIfPresent (temporaryPath d₁ file.parent) <;> rfl
            · rfl

/-- A save makes, changes and takes away no module. -/
theorem save_spares (hl : d.Linkless) (hf : file = dir.child fileName) (hdir : (".." : Text) ∉ dir.parts)
    (h : s.save d file = (d', .ok ())) : d.Spares d' := by
  have hparent : file.parent = dir := by simp [hf, Path.parent, Path.child]
  have hchild {name : Text} (hn : name ≠ "..") : (".." : Text) ∉ (dir.child name).parts := by
    simp [Path.child, hdir, hn.symm]
  rw [save_eq, hparent] at h
  have hdirs := ensureDirectories_grows (hl.plain hdir)
  generalize d.ensureDirectories dir = made at h hdirs
  obtain ⟨d₁, result⟩ := made
  cases result with
  | error fault => cases h
  | ok _ =>
    dsimp only at h hdirs
    obtain ⟨temporary, htemporary, hmodule, hup⟩ := temporaryPath_child d₁ dir
    rw [htemporary] at h
    have hl₁ : d₁.Linkless := fun x target hx => hl x target (hdirs.noLink x target hx)
    have hplain := hl₁.plain (hchild hup)
    have htouches := writeText_touches hplain (Json.write s.toJson)
    cases hw : d₁.writeText (dir.child temporary) (Json.write s.toJson) with
    | mk d₂ result =>
      rw [hw] at h htouches
      cases result with
      | error fault => cases h
      | ok _ =>
        dsimp only at h htouches
        obtain ⟨bytes, -, hfile⟩ := writeText_ok hplain hw
        have hl₂ : d₂.Linkless := fun x target hx => hl₁ x target (htouches.noLink x target hx)
        cases hr : d₂.rename (dir.child temporary) file with
        | error fault =>
          simp only [hr] at h
          split at h
          · split at h <;> cases h
          · cases h
        | ok d₃ =>
          simp only [hr] at h
          cases h
          have hrename := rename_grows (hl₂.plain (hchild hup)) (hl₂.plain (hf ▸ hchild (by decide))) hfile hr
          refine ⟨_, ((hdirs.mono (List.nil_subset _)).trans (htouches.toGrows.mono ?_)).trans hrename, ?_⟩
          · simp
          · intro x hx
            simp only [List.mem_cons, List.not_mem_nil, or_false] at hx
            rcases hx with rfl | rfl
            · exact no_module_of_child hmodule
            · exact hf ▸ no_module_of_child (by decide)

/-- Saving works now, whatever the store holds, and after every number of saves. -/
def Savable (d : Disk) (file : Path) : Prop :=
  ∀ (saved : List Store) (s : Store), (s.save (saved.foldl (fun d s => (s.save d file).1) d) file).2 = .ok ()

theorem Savable.save (h : Savable d file) (s : Store) :
    (s.save d file).2 = .ok () ∧ Savable (s.save d file).1 file :=
  ⟨h [] s, fun saved => h (s :: saved)⟩

/-- What a save needs and keeps makes saving work for good. -/
theorem Savable.of_kept {P : Disk → Prop}
    (hstep : ∀ d s, P d → (Store.save s d file).2 = .ok () ∧ P (Store.save s d file).1)
    (h : P d) : Savable d file := by
  intro saved s
  induction saved generalizing d with
  | nil => exact (hstep d s h).1
  | cons first rest ih => exact ih (hstep d first h).2

end Store
end CodeAgent
