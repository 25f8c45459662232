import CodeAgent.Proofs.Tool.Contained

namespace CodeAgent

def Invocation.configured : Invocation → Bool
  | .validateProject | .runTests => true
  | _ => false

theorem Invocation.not_configured_of_mutates {i : Invocation} (h : i.kind.mutates = true) : i.configured = false := by
  cases i <;> first | rfl | cases h

namespace Workspace

variable {s : Setting} {w w' w'' : Workspace} {i : Invocation} {p : Path} {path : Text}

def listed (s : Setting) (w : Workspace) : Text := filesListed w.disk w.root (s.config.int .manifestMaxFiles)

/-- The list that would be told is the list of the files that are there. -/
def UpToDate (s : Setting) (w : Workspace) : Prop := (w.manifest s).2 = w.listed s

theorem upToDate_iff : w.UpToDate s ↔ ∀ t, w.listing = some t → t = w.listed s := by
  unfold UpToDate manifest
  cases w.listing with
  | none => simp [listed]
  | some t => simp

theorem upToDate_of_none (h : w.listing = none) : w.UpToDate s := by
  rw [upToDate_iff, h]
  exact nofun

/-- Telling the list changes nothing of the files, and what was told stays the list until it is made anew. -/
theorem manifest_keeps (s : Setting) (w : Workspace) :
    (w.manifest s).1.disk = w.disk ∧ (w.manifest s).1.root = w.root ∧
      (w.manifest s).1.listing = some (w.manifest s).2 := by
  unfold manifest
  split
  · rename_i t ht
    exact ⟨rfl, rfl, ht⟩
  · exact ⟨rfl, rfl, rfl⟩

theorem manifest_listed (s : Setting) (w : Workspace) : (w.manifest s).1.listed s = w.listed s := by
  obtain ⟨hdisk, hroot, -⟩ := manifest_keeps s w
  rw [listed, listed, hdisk, hroot]

theorem manifest_upToDate_iff : (w.manifest s).1.UpToDate s ↔ w.UpToDate s := by
  rw [upToDate_iff, manifest_listed, (manifest_keeps s w).2.2]
  exact ⟨fun h => h _ rfl, fun h t ht => Option.some.inj ht ▸ h⟩

/-- The root is the same, and the list of files is the same or is to be made anew. -/
structure Lapses (w w' : Workspace) : Prop where
  root : w'.root = w.root
  listing : w'.listing = none ∨ w'.listing = w.listing

theorem Lapses.refl (w : Workspace) : Lapses w w := ⟨rfl, Or.inr rfl⟩

theorem Lapses.trans (h : Lapses w w') (h' : Lapses w' w'') : Lapses w w'' where
  root := h'.root.trans h.root
  listing := by
    rcases h'.listing with hn | hk
    · exact Or.inl hn
    · rw [hk]
      exact h.listing

theorem lapses_disk (w : Workspace) (d : Disk) : Lapses w { w with disk := d } := ⟨rfl, Or.inr rfl⟩

theorem indexOne_lapses (w : Workspace) (step : Disk → SemanticIndex → IndexStep IndexOutcome) :
    Lapses w (w.indexOne step).1 := by
  unfold indexOne
  split
  · exact .refl w
  · split
    · exact ⟨rfl, Or.inr rfl⟩
    · exact ⟨rfl, Or.inr rfl⟩

theorem changeGraph_lapses (w : Workspace) (change : Disk → Graph → Except DiskFault Graph) :
    Lapses w (w.changeGraph change).1 := by
  unfold changeGraph
  split
  · exact ⟨rfl, Or.inl rfl⟩
  · exact .refl w

theorem fileRemoved_lapses (w : Workspace) (p : Path) : Lapses w (w.fileRemoved p).1 := by
  unfold fileRemoved
  have hw' := indexOne_lapses w fun d ix => ix.removeFile d p true
  split
  all_goals
    rename_i w' _ hindex
    rw [hindex] at hw'
  · exact hw'
  · exact hw'.trans (changeGraph_lapses w' _)

/-- A command that cannot even be started changes nothing. -/
theorem runCommand_error {command : Text} {fault : ToolFault} (h : (w.runCommand s command).2 = .error fault) :
    (w.runCommand s command).1.disk = w.disk := by
  unfold runCommand CommandRun.run at *
  dsimp only at *
  split
  · rfl
  · rename_i hr
    rw [hr] at h
    cases h

/-- A configured command keeps the list of files, whatever it does. -/
theorem runConfigured_listing (s : Setting) (w : Workspace) (marker command label heading : Text) :
    (w.runConfigured s marker command label heading).1.root = w.root ∧
      (w.runConfigured s marker command label heading).1.listing = w.listing := by
  unfold runConfigured
  dsimp only
  split
  · exact ⟨rfl, rfl⟩
  · exact ⟨rfl, rfl⟩
  · split
    all_goals
      rename_i hr
      have hw' := congrArg Prod.fst hr
      dsimp only at hw'
      subst hw'
      exact ⟨rfl, rfl⟩

/-- What a call has made of the list of files and of the files. Without an observation it was given up. -/
inductive Deed (w : Workspace) (i : Invocation) (observation? : Option (Except BackendFault Text)) (w' : Workspace) :
    Prop where
  | refreshed (hm : i.kind.mutates = true) (h : w'.listing = none)
  | kept (hl : w'.listing = w.listing) (hd : w'.disk = w.disk)
  | configured (hc : i.configured = true) (hl : w'.listing = w.listing)
  | failed {message : Text} (hm : i.kind.mutates = true) (hr : i.kind ≠ .runCommand)
      (ho : observation? = some (.ok (FileTool.failureMark i.kind ++ message))) (hl : w'.listing = w.listing)

/-- A tool that is said to change files, other than the shell, has changed the list of files and has failed. -/
def Slips (s : Setting) (w : Workspace) (i : Invocation) (observation? : Option (Except BackendFault Text))
    (w' : Workspace) : Prop :=
  i.kind.mutates = true ∧ i.kind ≠ .runCommand ∧
    (∃ message, observation? = some (.ok (FileTool.failureMark i.kind ++ message))) ∧ w'.listed s ≠ w.listed s

/-- Where the list that was told is current, it is so after a call that does not slip just if that was none of the
configured commands or has left the files of the list. -/
theorem Deed.upToDate_iff {observation? : Option (Except BackendFault Text)} (h : Deed w i observation? w')
    (hroot : w'.root = w.root) (htold : w.listing = some (w.listed s)) (hs : ¬ Slips s w i observation? w') :
    w'.UpToDate s ↔ (i.configured = true → w'.listed s = w.listed s) := by
  have hold (hl : w'.listing = w.listing) : w'.UpToDate s ↔ w'.listed s = w.listed s := by
    rw [Workspace.upToDate_iff, hl, htold]
    exact ⟨fun hc => (hc _ rfl).symm, fun he t ht => by rw [he, ← Option.some.inj ht]⟩
  cases h with
  | refreshed hm hn =>
    rw [Invocation.not_configured_of_mutates hm]
    exact ⟨fun _ => nofun, fun _ => upToDate_of_none hn⟩
  | kept hl hd =>
    have hsame : w'.listed s = w.listed s := by rw [listed, listed, hd, hroot]
    exact ⟨fun _ _ => hsame, fun _ => (hold hl).mpr hsame⟩
  | configured hc hl =>
    rw [hold hl]
    exact ⟨fun he _ => he, fun he => he hc⟩
  | failed hm hr ho hl =>
    have hsame : w'.listed s = w.listed s := by
      by_contra hne
      exact hs ⟨hm, hr, ⟨_, ho⟩, hne⟩
    exact ⟨fun _ _ => hsame, fun _ => (hold hl).mpr hsame⟩

theorem conclude_asks {kind : ToolKind} (h : kind.mutates = false) (w : Workspace) (r : Except ToolFault Text) :
    (w.conclude kind r).1 = w := by
  unfold conclude
  split
  · rw [if_neg (by simp [h])]
  · rfl
  · rfl

variable [Host]

theorem fileChanged_lapses (s : Setting) (w : Workspace) (p : Path) : Lapses w (w.fileChanged s p).1 := by
  unfold fileChanged
  split
  · exact .refl w
  · exact ⟨rfl, Or.inl rfl⟩
  · split
    all_goals
      rename_i w' _ hindex
      have hw' := indexOne_lapses w fun d ix => ix.indexFile ((embedder? s).getD fun _ _ => .ok []) d p true
      rw [hindex] at hw'
    · exact hw'
    · exact hw'.trans (changeGraph_lapses w' _)

theorem refreshOne_lapses (s : Setting) (w : Workspace) (p : Path) : Lapses w (w.refreshOne s p).1 := by
  unfold refreshOne
  split
  · exact .refl w
  split
  · exact .refl w
  split
  · exact .refl w
  · exact fileChanged_lapses s w p
  · exact fileRemoved_lapses w p

theorem refresh_lapses (s : Setting) (w : Workspace) (ps : List Path) : Lapses w (w.refresh s ps).1 := by
  induction ps generalizing w with
  | nil => exact .refl w
  | cons p rest ih =>
    have hone := refreshOne_lapses s w p
    unfold refresh
    split
    all_goals
      rename_i w' _ hp
      rw [hp] at hone
    · exact hone.trans (ih w')
    · exact hone

/-- A tool on a file keeps the root, and keeps the list of files or lets it lapse. -/
theorem onFile_lapses (s : Setting) (w : Workspace) (path : Text)
    (tool : Disk → Path → Disk × Except ToolFault Text) : Lapses w (w.onFile s path tool).1 := by
  unfold onFile
  split
  · exact .refl w
  · rename_i p _
    split
    · exact lapses_disk w _
    · rename_i d _ _
      have htold := (lapses_disk w d).trans (refresh_lapses s { w with disk := d } [p])
      split
      all_goals
        rename_i hr
        rw [hr] at htold
        exact htold

/-- Diffs keep the root, and keep the list of files or let it lapse. -/
theorem applyDiffs_lapses (s : Setting) (w : Workspace) (changes : List DiffChange) :
    Lapses w (w.applyDiffs s changes).1 := by
  unfold applyDiffs
  split
  · exact .refl w
  · exact .refl w
  · rename_i read _
    split
    · exact lapses_disk w _
    · rename_i d _ _
      have htold := (lapses_disk w d).trans (refresh_lapses s { w with disk := d } (read.map (·.path)).eraseDups)
      split
      all_goals
        rename_i hr
        rw [hr] at htold
        exact htold

/-- A tool that changes files keeps their list or lets it lapse. -/
theorem perform_lapses (h : i.kind.mutates = true) (s : Setting) (w : Workspace) : Lapses w (w.perform s i).1 := by
  cases i with
  | writeFile path content => exact onFile_lapses s w path _
  | editFile path edits => exact onFile_lapses s w path _
  | replaceLines path first last content => exact onFile_lapses s w path _
  | insertCode path line content => exact onFile_lapses s w path _
  | deleteFile path => exact onFile_lapses s w path _
  | applyDiffs changes => exact applyDiffs_lapses s w changes
  | runCommand command => exact lapses_disk w _
  | createDirectory path =>
    unfold perform
    dsimp only
    split
    · exact .refl w
    · exact lapses_disk w _
  | _ => cases h

/-- The other tools ask. -/
theorem perform_asks (hm : i.kind.mutates = false) (hc : i.configured = false) (s : Setting) (w : Workspace) :
    (w.perform s i).1.root = w.root ∧ (w.perform s i).1.listing = w.listing ∧ (w.perform s i).1.disk = w.disk := by
  have hask (path : Text) (tool : Disk → Path → Except ToolFault Text) : (w.askFile s path tool).1 = w := by
    unfold askFile
    split <;> rfl
  cases i with
  | showFile path =>
    rw [perform, hask]
    exact ⟨rfl, rfl, rfl⟩
  | listDirectory path =>
    rw [perform, hask]
    exact ⟨rfl, rfl, rfl⟩
  | searchFiles pattern include? => exact ⟨rfl, rfl, rfl⟩
  | getBlastRadius path depth? => exact ⟨rfl, rfl, rfl⟩
  | semanticSearch query limit? =>
    unfold perform searchByMeaning
    dsimp only
    split <;> exact ⟨rfl, rfl, rfl⟩
  | validateProject => cases hc
  | runTests => cases hc
  | _ => cases hm

/-- What a call makes of the list of files and of the files. -/
theorem perform_deed (s : Setting) (w : Workspace) (i : Invocation) :
    ((w.perform s i).1.conclude i.kind (w.perform s i).2).1.root = w.root ∧
      Deed w i (some ((w.perform s i).1.conclude i.kind (w.perform s i).2).2)
        ((w.perform s i).1.conclude i.kind (w.perform s i).2).1 := by
  cases hm : i.kind.mutates with
  | false =>
    rw [conclude_asks hm]
    cases hc : i.configured with
    | false =>
      obtain ⟨hroot, hlisting, hdisk⟩ := perform_asks hm hc s w
      exact ⟨hroot, .kept hlisting hdisk⟩
    | true =>
      cases i with
      | validateProject =>
        obtain ⟨hroot, hlisting⟩ := runConfigured_listing s w _ _ _ _
        exact ⟨hroot, .configured rfl hlisting⟩
      | runTests =>
        obtain ⟨hroot, hlisting⟩ := runConfigured_listing s w _ _ _ _
        exact ⟨hroot, .configured rfl hlisting⟩
      | _ => cases hc
  | true =>
    have hlapses := perform_lapses hm s w
    cases hr : (w.perform s i).2 with
    | ok answer =>
      have hconcluded : (w.perform s i).1.conclude i.kind (.ok answer) = ((w.perform s i).1.markDirty, .ok answer) := by
        rw [conclude, if_pos hm]
      rw [hconcluded]
      exact ⟨hlapses.root, .refreshed hm rfl⟩
    | error fault =>
      have hcontained := perform_contained (s := s) (w := w) (i := i) fun he => by simp [he, ToolKind.mutates] at hm
      rw [hr] at hcontained
      have hconcluded := conclude_fault (w := (w.perform s i).1) (fun f he => hcontained f (he ▸ rfl)) i.kind
      rw [hconcluded]
      refine ⟨hlapses.root, ?_⟩
      rcases hlapses.listing with hnone | hkept
      · exact .refreshed hm hnone
      by_cases hkind : i.kind = .runCommand
      · refine .kept hkept ?_
        cases i with
        | runCommand command =>
          change (w.runCommand s command).2.map CommandResult.render = .error fault at hr
          cases hran : (w.runCommand s command).2 with
          | error fault => exact runCommand_error hran
          | ok result =>
            rw [hran] at hr
            cases hr
        | _ => cases hkind
      · exact .failed hm hkind rfl hkept

theorem loadIndex_listing (w : Workspace) : w.loadIndex.1.listing = w.listing := by
  unfold loadIndex
  split <;> rfl

theorem reindex_listing (s : Setting) (w : Workspace) : (w.reindex s).1.listing = w.listing := by
  unfold reindex
  split
  · split <;> rfl
  · rfl

theorem start_listing (h : w.start = (w', .ok ())) : w'.listing = none := by
  unfold start at h
  split at h
  · cases h
  · rename_i graph _
    split at h
    · rename_i hload
      cases h
      have hlisting := loadIndex_listing (markDirty { w with graph })
      rw [hload] at hlisting
      exact hlisting
    · cases h

/-- An opened workspace has told no list yet. -/
theorem open_listing (h : w.open_ s = (w', .ok ())) : w'.listing = none := by
  unfold open_ at h
  split at h
  · cases h
  · rename_i started _ hstart
    split at h
    · rename_i hindex
      cases h
      have hlisting := reindex_listing s started
      rw [hindex] at hlisting
      exact hlisting.trans (start_listing hstart)
    · cases h

end Workspace

end CodeAgent
