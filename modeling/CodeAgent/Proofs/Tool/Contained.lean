import CodeAgent.Proofs.Tool.Write

namespace CodeAgent

def Contained {α : Type} (r : Except ToolFault α) : Prop := ∀ fault, r ≠ .error (.index (.backend fault))

variable {α β : Type} {d : Disk} {p : Path} {display path : Text} {i : Invocation} {s : Setting} {w : Workspace}

theorem contained_ok (a : α) : Contained (.ok a) := nofun

theorem contained_disk (fault : DiskFault) : Contained (.error (.disk fault) : Except ToolFault α) := nofun

theorem Contained.bind {r : Except ToolFault α} {f : α → Except ToolFault β} (h : Contained r)
    (hf : ∀ a, Contained (f a)) : Contained (r >>= f) := by
  cases r with
  | ok a => exact hf a
  | error fault => exact fun f he => h f (congrArg Except.error (Except.error.inj he))

theorem contained_mapError (r : Except DiskFault α) : Contained (r.mapError ToolFault.disk) := by
  cases r with
  | ok a => exact contained_ok a
  | error fault => exact contained_disk fault

theorem Contained.map {r : Except ToolFault α} (h : Contained r) (f : α → β) : Contained (r.map f) := by
  cases r with
  | ok a => exact contained_ok _
  | error fault => exact fun f he => h f (congrArg Except.error (Except.error.inj he))

namespace FileTool

theorem requireFile_contained : Contained (requireFile d p display) := fun f h => requireFile_fault h f rfl

theorem show_contained : Contained (show_ d p display) := by
  unfold show_
  refine requireFile_contained.bind fun _ => (contained_mapError _).bind fun bytes => ?_
  split
  · exact nofun
  · exact (contained_mapError _).bind fun t => contained_ok _

theorem list_contained : Contained (list d p display) := by
  unfold list
  refine (contained_mapError _).bind fun there => ?_
  split
  · exact nofun
  refine (contained_mapError _).bind fun directory => ?_
  split
  · exact nofun
  · exact (contained_mapError _).bind fun names => contained_ok _

/-- A deletion ends with an observation. -/
theorem delete_contained : Contained (delete d p display).2 := by
  unfold delete
  dsimp only
  split
  · exact contained_ok _
  · rename_i fault he
    rintro f ⟨⟩
    revert he
    refine (?_ : Contained _) f
    refine (contained_mapError _).bind fun there => ?_
    split
    · exact nofun
    refine (contained_mapError _).bind fun directory => ?_
    split
    · exact nofun
    · exact contained_mapError _

theorem createDirectory_contained : Contained (createDirectory d p display).2 := by
  unfold createDirectory
  split
  · exact contained_ok _
  · exact contained_disk _

theorem writer_contained {tool : Disk → Path → Disk × Except ToolFault Text} (h : writer? i = some (path, tool))
    (d : Disk) (p : Path) : Contained (tool d p).2 := by
  rcases writer_cases h d p with ⟨e, x, t, answer, -, htool, -⟩ | ⟨-, ⟨fault, hfault, hother⟩, -⟩
  · rw [htool, store]
    split
    · exact contained_ok _
    · exact contained_disk _
  · rw [hfault]
    exact fun f he => hother f (Except.error.inj he)

variable [Host]

theorem searchFiles_contained {root : Path} {limits : SearchLimits} {pattern : Text} {include? : Option Text} :
    Contained (searchFiles d root limits pattern include?) := by
  unfold searchFiles
  split
  · exact nofun
  · exact contained_ok _

end FileTool

namespace Workspace

open FileTool

theorem askFile_contained {tool : Disk → Path → Except ToolFault Text} (h : ∀ p, Contained (tool w.disk p)) :
    Contained (w.askFile s path tool).2 := by
  unfold askFile
  split
  · exact contained_disk _
  · exact h _

theorem runConfigured_contained {marker command label heading : Text} :
    Contained (w.runConfigured s marker command label heading).2 := by
  have hran : Contained (w.runCommand s command).2 := contained_mapError _
  unfold runConfigured
  generalize (if marker.isEmpty then Except.ok true else w.disk.exists? (w.root.join (Path.ofText marker))) = wanted
  dsimp only
  split
  · exact contained_disk _
  · exact contained_ok _
  · split
    · rename_i he
      rw [he] at hran
      exact hran.map CommandResult.render
    · exact contained_ok _

variable [Host]

theorem onFile_contained {tool : Disk → Path → Disk × Except ToolFault Text} (h : ∀ p, Contained (tool w.disk p).2) :
    Contained (w.onFile s path tool).2 := by
  unfold onFile
  split
  · exact contained_disk _
  · rename_i p _
    have htool := h p
    split
    · rename_i he
      rw [he] at htool
      exact htool
    · split
      · exact contained_ok _
      · exact contained_disk _

theorem applyDiffs_contained {changes : List DiffChange} : Contained (w.applyDiffs s changes).2 := by
  unfold applyDiffs
  split
  · exact contained_disk _
  · exact nofun
  · split
    · rename_i fault _
      cases fault <;> exact nofun
    · split
      · exact contained_ok _
      · exact contained_disk _

/-- What a call fails with that is no search by meaning is no failure of a provider. -/
theorem perform_contained (h : i.kind ≠ .semanticSearch) : Contained (w.perform s i).2 := by
  have hwriter {path : Text} {tool : Disk → Path → Disk × Except ToolFault Text}
      (hw : writer? i = some (path, tool)) : Contained (w.onFile s path tool).2 :=
    onFile_contained (writer_contained hw w.disk)
  cases i with
  | showFile path => exact askFile_contained fun _ => show_contained
  | writeFile path content => exact hwriter rfl
  | editFile path edits => exact hwriter rfl
  | replaceLines path first last content => exact hwriter rfl
  | insertCode path line content => exact hwriter rfl
  | listDirectory path => exact askFile_contained fun _ => list_contained
  | searchFiles pattern include? => exact searchFiles_contained
  | deleteFile path => exact onFile_contained fun _ => delete_contained
  | createDirectory path =>
    unfold perform
    dsimp only
    split
    · exact contained_disk _
    · exact createDirectory_contained
  | runCommand command => exact (contained_mapError _).map _
  | validateProject => exact runConfigured_contained
  | runTests => exact runConfigured_contained
  | applyDiffs changes => exact applyDiffs_contained
  | getBlastRadius path depth? => exact contained_mapError _
  | semanticSearch query limit? => exact absurd rfl h

end Workspace

end CodeAgent
