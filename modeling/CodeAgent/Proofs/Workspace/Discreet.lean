import CodeAgent.Proofs.Workspace.Outside

namespace CodeAgent

open Disk

/-- A command that does the same outside, and is seen to do the same, whatever is in the own directories. -/
def Setting.Blind (s : Setting) (command : Text) : Prop :=
  ∀ (d : Disk) (directory : Path) (limit : Option Nat), d.Reserved s.home → Outside directory.parts →
    (s.shell d directory command limit).disk.Reserved s.home ∧
      s.shell d.outside directory command limit =
        { s.shell d directory command limit with disk := (s.shell d directory command limit).disk.outside }

def Invocation.subjects : Invocation → List Text
  | .writeFile path _ | .editFile path _ | .replaceLines path _ _ _ | .insertCode path _ _ | .deleteFile path => [path]
  | .applyDiffs changes => changes.map (·.path)
  | _ => []

namespace Workspace

variable {s : Setting} {e : Option Embedder} {w : Workspace} {home root p q : Path} {path t : Text} {i : Invocation}

def LeadsOutside (s : Setting) (w : Workspace) (path : Text) : Prop :=
  ∀ p, w.resolve s path = .ok p → Outside p.parts

/-- A call that keeps away from the own directories: it names no path in one of them, lists no directory that holds
one, and runs no command that looks into them. A search by meaning has no place beside. -/
def Abstains (s : Setting) (w : Workspace) : Invocation → Prop
  | .showFile path | .writeFile path _ | .editFile path _ | .replaceLines path _ _ _ | .insertCode path _ _
  | .deleteFile path | .createDirectory path | .getBlastRadius path _ => w.LeadsOutside s path
  | .listDirectory path => w.LeadsOutside s path ∧
    ∀ p x, w.resolve s path = .ok p → w.disk.locate true p = .ok x → w.disk.lookup? (x ++ [ownName]) = none
  | .searchFiles .. => True
  | .runCommand command => s.Blind command
  | .validateProject =>
    Outside (Path.ofText (s.config.text .validateMarker)).parts ∧ s.Blind (s.config.text .validateCommand)
  | .runTests => Outside (Path.ofText (s.config.text .testMarker)).parts ∧ s.Blind (s.config.text .testCommand)
  | .applyDiffs changes => ∀ change ∈ changes, w.LeadsOutside s change.path
  | .semanticSearch .. => False

theorem resolve_unindexed (w : Workspace) (s : Setting) (t : Text) : w.unindexed.resolve s t = w.resolve s t := rfl

theorem unindexed_withDisk (w : Workspace) (d : Disk) :
    ({ w.unindexed with disk := d.outside } : Workspace) = ({ w with disk := d } : Workspace).unindexed := rfl

theorem Secluded.dirty (h : w.Secluded home root) : w.markDirty.Secluded home root := h.listing none

theorem Secluded.withDisk {d : Disk} (h : w.Secluded home root) (hd : d.Reserved home) :
    ({ w with disk := d } : Workspace).Secluded home root :=
  ⟨hd, h.rooted, h.graph, h.visible, h.placed⟩

def effect [Host] (s : Setting) (w : Workspace) (i : Invocation) : Disk :=
  (({ w with index := none } : Workspace).perform s i).1.disk

/-- A call that abstains, and after which the index, if it is told of files, can save its store and has no text before
it that is nested too deep. -/
structure Discreet [Host] (s : Setting) (w : Workspace) (i : Invocation) : Prop where
  abstains : w.Abstains s i
  saves : i.subjects ≠ [] → ∀ ix, w.index = some ix → (ix.store.save (w.effect s i) ix.file).2 = .ok ()
  fits : w.index.isSome = true → ∀ path ∈ i.subjects, ∀ p, w.resolve s path = .ok p → FitsLoop (w.effect s i) p

/-- An index can be told of files on a disk. -/
structure Admits [Host] (home root : Path) (w : Workspace) (d : Disk) (ps : List Path) : Prop where
  saved : ∀ ix, w.index = some ix → (ix.store.save d (Store.placeFor home root)).2 = .ok ()
  fits : w.index.isSome = true → ∀ p ∈ ps, FitsLoop d p

section
variable (hg : Grounds s root) (h : w.Secluded s.home root)
include hg h

/-- Where a tool leaves a disk on which an index can be told of files, the workspace is told of them the same beside. -/
theorem told_alike [Host] {d : Disk} {ps : List Path} (hc : Source.Composes) (hd : d.Reserved s.home)
    (ha : w.Admits s.home root d ps) (hps : ∀ p ∈ ps, Away p) :
    Alike (Secluded s.home root) (({ w with disk := d } : Workspace).refresh (s.serving e) ps)
      (({ w with disk := d } : Workspace).unindexed.refresh s ps) := by
  have hsaving : ({ w with disk := d } : Workspace).Saving s.home root :=
    ⟨h.withDisk hd, fun ix hi => Store.savable_of_save hd hg.notUp (ha.saved ix hi)⟩
  have htold := refresh_alike (e := e) hc hg hsaving hps ha.fits
  generalize ({ w with disk := d } : Workspace).refresh (s.serving e) ps = r,
    ({ w with disk := d } : Workspace).unindexed.refresh s ps = r' at htold
  cases htold with
  | mk hsaving told => exact .mk hsaving.toSecluded told

/-- A tool on a file outside is alike beside, the index and all. -/
theorem onFile_alike [Host] {tool : Disk → Path → Disk × Except ToolFault Text} (hc : Source.Composes)
    (hout : w.LeadsOutside s path)
    (htool : ∀ p, Outside p.parts → Disk.Alike s.home (tool w.disk p) (tool w.disk.outside p))
    (hadmits : ∀ p, w.resolve s path = .ok p → w.Admits s.home root (tool w.disk p).1 [p]) :
    Alike (Secluded s.home root) (w.onFile (s.serving e) path tool) (w.unindexed.onFile s path tool) := by
  rw [onFile, onFile, show w.resolve (s.serving e) path = w.resolve s path from rfl, resolve_unindexed]
  cases hp : w.resolve s path with
  | error fault => exact .mk h _
  | ok p =>
    have halike := htool p (hout p hp)
    have ha := hadmits p hp
    have hps : ∀ q ∈ [p], Away q := List.forall_mem_singleton.mpr (away_of_resolve hg h.rooted hp (hout p hp))
    dsimp only
    rw [show w.unindexed.disk = w.disk.outside from rfl]
    generalize tool w.disk p = r, tool w.disk.outside p = r' at halike ha ⊢
    obtain @⟨d, reserved, result⟩ := halike
    cases result with
    | error fault => exact .mk (w := { w with disk := d }) (h.withDisk reserved) _
    | ok answer =>
      have htold := told_alike (e := e) hg h hc reserved ha hps
      dsimp only
      rw [unindexed_withDisk w d]
      generalize ({ w with disk := d } : Workspace).refresh (s.serving e) [p] = r,
        ({ w with disk := d } : Workspace).unindexed.refresh s [p] = r' at htold ⊢
      obtain @⟨w', hsecluded, told⟩ := htold
      cases told with
      | ok _ => exact .mk hsecluded _
      | error fault => exact .mk hsecluded _

omit hg in
theorem askFile_alike (tool : Disk → Path → Except ToolFault Text)
    (htool : ∀ p, w.resolve s path = .ok p → tool w.disk.outside p = tool w.disk p) :
    Alike (Secluded s.home root) (w.askFile (s.serving e) path tool) (w.unindexed.askFile s path tool) := by
  rw [askFile, askFile, show w.resolve (s.serving e) path = w.resolve s path from rfl, resolve_unindexed]
  cases hp : w.resolve s path with
  | error fault => exact .mk h _
  | ok p =>
    dsimp only
    rw [show w.unindexed.disk = w.disk.outside from rfl, htool p hp]
    exact .mk h _

omit hg in
theorem createDirectory_alike [Host] (hout : w.LeadsOutside s path) :
    Alike (Secluded s.home root) (w.perform (s.serving e) (.createDirectory path))
      (w.unindexed.perform s (.createDirectory path)) := by
  rw [perform, perform, show w.resolve (s.serving e) path = w.resolve s path from rfl, resolve_unindexed]
  cases hp : w.resolve s path with
  | error fault => exact .mk h _
  | ok p =>
    have hmade := FileTool.createDirectory_alike h.reserved (hout p hp) path
    dsimp only
    rw [show w.unindexed.disk = w.disk.outside from rfl]
    generalize FileTool.createDirectory w.disk p path = r, FileTool.createDirectory w.disk.outside p path = r'
      at hmade ⊢
    obtain @⟨d, reserved, result⟩ := hmade
    exact .mk (w := { w with disk := d }) (h.withDisk reserved) _

/-- A command that cannot see the own directories is alike beside. -/
theorem runCommand_alike {command : Text} (hb : s.Blind command) :
    Alike (Secluded s.home root) (w.runCommand (s.serving e) command) (w.unindexed.runCommand s command) := by
  have hroot : Outside w.root.parts := h.rooted ▸ hg.outside
  have hrefusal : CommandRun.refusal? w.disk.outside w.root command = CommandRun.refusal? w.disk w.root command := by
    rw [CommandRun.refusal?, CommandRun.refusal?, stat_outside h.reserved hroot]
  have hrun : ∃ d result, d.Reserved s.home ∧ w.runCommand (s.serving e) command = ({ w with disk := d }, result) ∧
      w.unindexed.runCommand s command = (({ w with disk := d } : Workspace).unindexed, result) := by
    rw [runCommand, runCommand, show w.unindexed.disk = w.disk.outside from rfl,
      show w.unindexed.root = w.root from rfl, CommandRun.run, CommandRun.run, hrefusal]
    cases CommandRun.refusal? w.disk w.root command with
    | some fault => exact ⟨w.disk, _, h.reserved, rfl, rfl⟩
    | none =>
      obtain ⟨hreserved, hsame⟩ := hb w.disk w.root (CommandRun.timeLimit s.config none) h.reserved hroot
      dsimp only
      rw [hsame]
      by_cases hlimit : CommandRun.timeLimit s.config none = some 0
      · rw [if_pos hlimit, show (s.serving e).config = s.config from rfl, if_pos hlimit]
        exact ⟨w.disk, _, h.reserved, rfl, rfl⟩
      · rw [if_neg hlimit, show (s.serving e).config = s.config from rfl, if_neg hlimit]
        exact ⟨_, _, hreserved, rfl, rfl⟩
  obtain ⟨d, result, hreserved, hrun, hrun'⟩ := hrun
  rw [hrun, hrun']
  exact .mk (w := { w with disk := d }) (h.withDisk hreserved) _

/-- A configured command with its marker outside is alike beside. -/
theorem runConfigured_alike {marker command : Text} (hmarker : Outside (Path.ofText marker).parts)
    (hb : s.Blind command) (label heading : Text) :
    Alike (Secluded s.home root) (w.runConfigured (s.serving e) marker command label heading)
      (w.unindexed.runConfigured s marker command label heading) := by
  have hwanted : w.unindexed.disk.exists? (w.root.join (Path.ofText marker)) =
      w.disk.exists? (w.root.join (Path.ofText marker)) :=
    exists?_outside h.reserved (Path.outside_join (h.rooted ▸ hg.outside) hmarker)
  have hran := runCommand_alike (e := e) hg h hb
  rw [runConfigured, runConfigured, show w.unindexed.root = w.root from rfl, hwanted]
  generalize (if marker.isEmpty then Except.ok true else w.disk.exists? (w.root.join (Path.ofText marker))) = wanted
  rcases wanted with fault | _ | _
  · exact .mk h _
  · exact .mk h _
  · dsimp only
    generalize w.runCommand (s.serving e) command = r, w.unindexed.runCommand s command = r' at hran ⊢
    obtain @⟨w, hsecluded, result⟩ := hran
    cases result with
    | ok result => exact .mk hsecluded _
    | error fault => exact .mk hsecluded _

omit hg h in
/-- What is changed are files that the changes name. -/
theorem readChanges_named {changes : List DiffChange} {read : List Transaction.FileChange × List (Text × Nat × Nat)}
    (hread : w.readChanges s changes = .ok read) :
    ∀ change ∈ read.1, ∃ path ∈ changes.map (·.path), w.resolve s path = .ok change.path := by
  induction changes generalizing read with
  | nil =>
    cases hread
    simp
  | cons change rest ih =>
    rw [readChanges] at hread
    simp only [bind, Except.bind] at hread
    cases hp : w.resolve s change.path with
    | error fault =>
      rw [hp] at hread
      cases hread
    | ok p =>
      rw [hp] at hread
      cases hlater : w.readChanges s rest with
      | error fault =>
        rw [hlater] at hread
        cases hread
      | ok later =>
        rw [hlater] at hread
        cases hread
        refine List.forall_mem_cons.mpr ⟨⟨change.path, List.mem_cons_self, hp⟩, fun other hm => ?_⟩
        obtain ⟨path, hpath, hresolve⟩ := ih hlater other hm
        exact ⟨path, List.mem_cons_of_mem _ hpath, hresolve⟩

omit hg h in
/-- What the blocks are depends on nothing but the root. -/
theorem readChanges_rooted {w' : Workspace} (hw : w'.root = w.root) (s : Setting) (e : Option Embedder)
    (changes : List DiffChange) : w'.readChanges s changes = w.readChanges (s.serving e) changes := by
  induction changes with
  | nil => rfl
  | cons change rest ih =>
    have hresolve : w'.resolve s change.path = w.resolve (s.serving e) change.path := by
      rw [resolve, resolve, hw]
      rfl
    rw [readChanges, readChanges, ih, hresolve]

/-- Diffs on files outside are alike beside. -/
theorem applyDiffs_alike [Host] {changes : List DiffChange} (hc : Source.Composes)
    (hout : ∀ change ∈ changes, w.LeadsOutside s change.path)
    (hadmits : ∀ read, w.readChanges s changes = .ok (read, []) →
      w.Admits s.home root (Transaction.apply w.disk read).1 (read.map (·.path)).eraseDups) :
    Alike (Secluded s.home root) (w.applyDiffs (s.serving e) changes) (w.unindexed.applyDiffs s changes) := by
  have hserved : w.readChanges (s.serving e) changes = w.readChanges s changes :=
    (readChanges_rooted rfl s e changes).symm
  have hbeside : w.unindexed.readChanges s changes = w.readChanges s changes :=
    readChanges_rooted (show w.unindexed.root = w.root from rfl) s s.embedder changes
  rw [applyDiffs, applyDiffs, hserved, hbeside]
  rcases hread : w.readChanges s changes with fault | ⟨read, _ | ⟨m, malformed⟩⟩
  · exact .mk h _
  · have haway : ∀ change ∈ read, Away change.path := by
      intro change hm
      obtain ⟨path, hpath, hresolve⟩ := readChanges_named hread change hm
      obtain ⟨named, hnamed, rfl⟩ := List.mem_map.mp hpath
      exact away_of_resolve hg h.rooted hresolve (hout named hnamed _ hresolve)
    have happlied := Transaction.apply_alike h.reserved fun change hm => (haway change hm).outside
    have ha := hadmits read hread
    dsimp only
    rw [show w.unindexed.disk = w.disk.outside from rfl]
    generalize Transaction.apply w.disk read = r, Transaction.apply w.disk.outside read = r' at happlied ha ⊢
    obtain @⟨d, reserved, result⟩ := happlied
    cases result with
    | error fault => exact .mk (w := { w with disk := d }) (h.withDisk reserved) _
    | ok count =>
      have hps : ∀ p ∈ (read.map (·.path)).eraseDups, Away p := by
        intro p hm
        obtain ⟨change, hchange, rfl⟩ := List.mem_map.mp (List.mem_eraseDups.mp hm)
        exact haway change hchange
      have htold := told_alike (e := e) hg h hc reserved ha hps
      dsimp only
      rw [unindexed_withDisk w d]
      generalize ({ w with disk := d } : Workspace).refresh (s.serving e) _ = r,
        ({ w with disk := d } : Workspace).unindexed.refresh s _ = r' at htold ⊢
      obtain @⟨w', hsecluded, told⟩ := htold
      cases told with
      | ok _ => exact .mk hsecluded _
      | error fault => exact .mk hsecluded _
  · exact .mk h _

theorem relative_unindexed (hq : Outside q.parts) : w.unindexed.relative s q = w.relative (s.serving e) q := by
  have hsame : w.unindexed.disk.resolve (s.directory.join q) = w.disk.resolve (s.directory.join q) :=
    resolve_outside h.reserved (Path.outside_join hg.directory hq)
  rw [relative, relative, hsame]
  rfl

/-- The files that a change reaches are the same without an index. -/
theorem blastRadius_unindexed (hout : w.LeadsOutside s path) (depth : Int) :
    w.unindexed.blastRadius s path depth = w.blastRadius (s.serving e) path depth := by
  rw [blastRadius, blastRadius, show w.resolve (s.serving e) path = w.resolve s path from rfl, resolve_unindexed]
  simp only [bind, Except.bind]
  cases hp : w.resolve s path with
  | error fault => rfl
  | ok p =>
    have hgraph : Outside (w.graph.root.join p).parts :=
      Path.outside_join (h.graph ▸ hg.outside) (hout p hp)
    have hstart : w.unindexed.graph.resolve w.unindexed.disk p = w.graph.resolve w.disk p :=
      resolve_outside h.reserved hgraph
    have hexists : w.unindexed.disk.exists? p = w.disk.exists? p := exists?_outside h.reserved (hout p hp)
    have haffected : w.unindexed.affectedBy s p depth = w.affectedBy (s.serving e) p depth := by
      rw [affectedBy, affectedBy, hstart]
      simp only [bind, Except.bind]
      cases w.graph.resolve w.disk p with
      | error fault => rfl
      | ok start => exact mapM_congr fun q hq => relative_unindexed hg h (h.visible.blastRadius start depth q hq)
    dsimp only
    rw [hstart, hexists, haffected]
    rfl

end

/-- Without an index, a tool on a file leaves what it does itself. -/
theorem onFile_disk [Host] {tool : Disk → Path → Disk × Except ToolFault Text} (hi : w.index = none)
    (hp : w.resolve s path = .ok p) : (w.onFile s path tool).1.disk = (tool w.disk p).1 := by
  rw [onFile, hp]
  dsimp only
  rcases tool w.disk p with ⟨d, fault | answer⟩
  · rfl
  · have hd := refresh_disk (w := { w with disk := d }) hi s [p]
    dsimp only
    generalize ({ w with disk := d } : Workspace).refresh s [p] = r at hd ⊢
    rcases r with ⟨w', fault | _⟩
    · exact hd
    · exact hd

theorem applyDiffs_disk [Host] {changes : List DiffChange} {read : List Transaction.FileChange} (hi : w.index = none)
    (hread : w.readChanges s changes = .ok (read, [])) :
    (w.applyDiffs s changes).1.disk = (Transaction.apply w.disk read).1 := by
  rw [applyDiffs, hread]
  dsimp only
  rcases Transaction.apply w.disk read with ⟨d, fault | count⟩
  · rfl
  · have hd := refresh_disk (w := { w with disk := d }) hi s (read.map (·.path)).eraseDups
    dsimp only
    generalize ({ w with disk := d } : Workspace).refresh s (read.map (·.path)).eraseDups = r at hd ⊢
    rcases r with ⟨w', fault | _⟩
    · exact hd
    · exact hd

theorem Discreet.admits [Host] (hd : w.Discreet s i) (h : w.Secluded home root) (ht : i.subjects ≠ []) {d : Disk}
    (heffect : w.effect s i = d) {ps : List Path}
    (hps : ∀ p ∈ ps, ∃ path ∈ i.subjects, w.resolve s path = .ok p) : w.Admits home root d ps where
  saved ix hi := by
    have hsaves := hd.saves ht ix hi
    rwa [(h.placed ix hi).file, heffect] at hsaves
  fits hi p hp := by
    obtain ⟨path, hpath, hresolve⟩ := hps p hp
    exact heffect ▸ hd.fits hi path hpath p hresolve

/-- The step lemma of a run: a call that is discreet answers the same beside. -/
theorem perform_alike [Host] (hc : Source.Composes) (hg : Grounds s root) (h : w.Secluded s.home root)
    (hd : w.Discreet s i) :
    Alike (Secluded s.home root) (w.perform (s.serving e) i) (w.unindexed.perform s i) := by
  have habstains := hd.abstains
  have honFile {path : Text} {tool : Disk → Path → Disk × Except ToolFault Text} (ht : i.subjects = [path])
      (hi : w.effect s i = (({ w with index := none } : Workspace).onFile s path tool).1.disk)
      (hout : w.LeadsOutside s path)
      (htool : ∀ p, Outside p.parts → Disk.Alike s.home (tool w.disk p) (tool w.disk.outside p)) :
      Alike (Secluded s.home root) (w.onFile (s.serving e) path tool) (w.unindexed.onFile s path tool) :=
    onFile_alike hg h hc hout htool fun p hp => hd.admits h (ht ▸ List.cons_ne_nil _ _) (hi.trans (onFile_disk rfl hp))
      (List.forall_mem_singleton.mpr ⟨path, ht ▸ List.mem_singleton_self path, hp⟩)
  cases i with
  | showFile path =>
    refine askFile_alike h (fun d p => FileTool.show_ d p path) fun p hp => ?_
    exact FileTool.show_outside h.reserved (habstains p hp) path
  | writeFile path content =>
    exact honFile rfl rfl habstains fun p hp => FileTool.write_alike h.reserved hp content path
  | editFile path edits => exact honFile rfl rfl habstains fun p hp => FileTool.change_alike h.reserved hp path _ _
  | replaceLines path first last content =>
    exact honFile rfl rfl habstains fun p hp => FileTool.replaceLines_alike h.reserved hp first last content path
  | insertCode path line content =>
    exact honFile rfl rfl habstains fun p hp => FileTool.change_alike h.reserved hp path _ _
  | listDirectory path =>
    obtain ⟨hout, hfree⟩ := habstains
    refine askFile_alike h (fun d p => FileTool.list d p (if path.isEmpty then "project root" else path)) fun p hp => ?_
    exact FileTool.list_outside h.reserved (hout p hp) (fun x => hfree p x hp) _
  | searchFiles pattern include? =>
    rw [perform, perform]
    have hsame := FileTool.searchFiles_outside h.reserved (h.rooted ▸ hg.outside : Outside w.root.parts)
      ⟨s.config.int .searchMaxResults, s.config.int .searchMaxFileSize⟩ pattern include?
    rw [show w.unindexed.disk = w.disk.outside from rfl, show w.unindexed.root = w.root from rfl, hsame]
    exact .mk h _
  | deleteFile path => exact honFile rfl rfl habstains fun p hp => FileTool.delete_alike h.reserved hp path
  | createDirectory path => exact createDirectory_alike h habstains
  | runCommand command =>
    have hran := runCommand_alike (e := e) hg h habstains
    rw [perform, perform]
    generalize w.runCommand (s.serving e) command = r, w.unindexed.runCommand s command = r' at hran ⊢
    obtain @⟨w, hsecluded, result⟩ := hran
    exact .mk hsecluded _
  | validateProject => exact runConfigured_alike hg h habstains.1 habstains.2 _ _
  | runTests => exact runConfigured_alike hg h habstains.1 habstains.2 _ _
  | applyDiffs changes =>
    cases changes with
    | nil => exact .mk h _
    | cons change rest =>
      refine applyDiffs_alike hg h hc habstains fun read hread => hd.admits h (List.cons_ne_nil _ _) ?_ fun p hp => ?_
      · have hroot : ({ w with index := none } : Workspace).root = w.root := rfl
        exact applyDiffs_disk rfl ((readChanges_rooted hroot s s.embedder _).trans hread)
      · obtain ⟨changed, hchanged, rfl⟩ := List.mem_map.mp (List.mem_eraseDups.mp hp)
        exact readChanges_named hread changed hchanged
  | getBlastRadius path depth? =>
    rw [perform, perform, blastRadius_unindexed hg h habstains]
    exact .mk h _
  | semanticSearch query limit? => exact habstains.elim

end Workspace

end CodeAgent
