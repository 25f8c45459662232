import CodeAgent.Proofs.Disk.Alike
import CodeAgent.Proofs.Disk.OutsideScan
import CodeAgent.Proofs.Edit.RollBack
import CodeAgent.Tool.Files
import CodeAgent.Tool.Search

namespace CodeAgent

open Disk

variable {home p root : Path} {d : Disk}

namespace Volume

def outside (v : Volume) : Volume := ⟨v.disk.outside, v.ahead⟩

/-- What an operation leaves on a volume with own directories and on the volume without them. -/
inductive Alike (home : Path) {α : Type} : Volume × α → Volume × α → Prop
  | mk {v : Volume} (reserved : v.disk.Reserved home) (a : α) : Alike home (v, a) (v.outside, a)

variable {v : Volume}

theorem outside_disk (v : Volume) : v.outside.disk = v.disk.outside := rfl

theorem outside_next (v : Volume) : v.outside.next = v.next := rfl

theorem alike_of_disk {α : Type} {r r' : Disk × α} (h : Disk.Alike home r r') (ahead : List (Option Refusal)) :
    Alike home ((⟨r.1, ahead⟩ : Volume), r.2) (⟨r'.1, ahead⟩, r'.2) := by
  cases h with
  | mk reserved a => exact .mk (v := ⟨_, ahead⟩) reserved a

section
variable (h : v.disk.Reserved home) (hp : Outside p.parts)
include h hp

theorem ensureDirectories_alike : Alike home (v.ensureDirectories p) (v.outside.ensureDirectories p) := by
  rw [ensureDirectories, ensureDirectories, outside_next, outside_disk]
  rcases v.next with ⟨_ | r, ahead⟩
  · exact alike_of_disk (Disk.ensureDirectories_alike h hp) ahead
  · have habove : Outside (above p (r.below + 1)).parts := fun hm => hp (List.mem_of_mem_take hm)
    have hmade := Disk.ensureDirectories_alike h habove
    dsimp only
    generalize v.disk.ensureDirectories (above p (r.below + 1)) = made,
      v.disk.outside.ensureDirectories (above p (r.below + 1)) = made' at hmade ⊢
    cases hmade with
    | mk reserved result => exact .mk (v := ⟨_, ahead⟩) reserved _

theorem writeText_alike (t : Text) : Alike home (v.writeText p t) (v.outside.writeText p t) := by
  rw [writeText, writeText, outside_next, outside_disk]
  rcases v.next with ⟨_ | r, ahead⟩
  · exact alike_of_disk (Disk.writeText_alike h hp t) ahead
  · dsimp only
    cases r.left with
    | none => exact .mk (v := ⟨v.disk, ahead⟩) h _
    | some bytes =>
      have hwritten := writeBytes_alike h hp bytes
      rw [Option.bind_some, Option.bind_some]
      generalize v.disk.writeBytes p bytes = written, v.disk.outside.writeBytes p bytes = written' at hwritten ⊢
      cases hwritten with
      | ok reserved => exact .mk (v := ⟨_, ahead⟩) reserved _
      | error fault => exact .mk (v := ⟨v.disk, ahead⟩) h _

theorem removeIfPresent_alike : Alike home (v.removeIfPresent p) (v.outside.removeIfPresent p) := by
  rw [removeIfPresent, removeIfPresent, outside_next, outside_disk]
  rcases v.next with ⟨_ | r, ahead⟩
  · have hremoved := Disk.removeIfPresent_alike h hp
    dsimp only
    generalize v.disk.removeIfPresent p = removed, v.disk.outside.removeIfPresent p = removed' at hremoved ⊢
    cases hremoved with
    | ok reserved => exact .mk (v := ⟨_, ahead⟩) reserved _
    | error fault => exact .mk (v := ⟨v.disk, ahead⟩) h _
  · exact .mk (v := ⟨v.disk, ahead⟩) h _

end

end Volume

namespace Transaction

variable {v : Volume} {changes : List FileChange} {backups : Backups} {working : Table Path Text}

theorem snapshot_outside (h : d.Reserved home) (hp : Outside p.parts) : snapshot d.outside p = snapshot d p := by
  rw [snapshot, snapshot, readText_outside h hp]

theorem backUp_outside (h : d.Reserved home) (hchanges : ∀ change ∈ changes, Outside change.path.parts) :
    backUp d.outside backups changes = backUp d backups changes := by
  induction changes generalizing backups with
  | nil => rfl
  | cons change rest ih =>
    obtain ⟨hp, hrest⟩ := List.forall_mem_cons.mp hchanges
    rw [backUp, backUp, snapshot_outside h hp, ih hrest]
    refine ite_congr rfl (fun _ => rfl) fun _ => ?_
    cases snapshot d change.path with
    | ok kept => exact ih hrest
    | error fault => rfl

theorem writeFile_alike (h : v.disk.Reserved home) (hp : Outside p.parts) (t : Text) :
    Volume.Alike home (writeFile v p t) (writeFile v.outside p t) := by
  have hmade := Volume.ensureDirectories_alike (p := p.parent) h hp.up
  rw [writeFile, writeFile]
  generalize v.ensureDirectories p.parent = made, v.outside.ensureDirectories p.parent = made' at hmade ⊢
  obtain @⟨v, reserved, result⟩ := hmade
  cases result with
  | error fault => exact .mk reserved _
  | ok _ => exact Volume.writeText_alike reserved hp t

theorem restore_alike (h : v.disk.Reserved home) (hp : Outside p.parts) (kept : Option Text) :
    Volume.Alike home (restore v p kept) (restore v.outside p kept) := by
  cases kept with
  | none => exact Volume.removeIfPresent_alike h hp
  | some t => exact Volume.writeText_alike h hp t

/-- The way back is alike with and without the own directories. -/
theorem rollBack_alike {paths : List Path} (h : v.disk.Reserved home) (hpaths : ∀ p ∈ paths, Outside p.parts) :
    Volume.Alike home (rollBack backups paths v) (rollBack backups paths v.outside) := by
  induction paths generalizing v with
  | nil => exact .mk h _
  | cons p rest ih =>
    obtain ⟨hp, hrest⟩ := List.forall_mem_cons.mp hpaths
    have hrestored := restore_alike h hp ((backups.get? p).join)
    rw [rollBack, rollBack]
    generalize restore v p ((backups.get? p).join) = r, restore v.outside p ((backups.get? p).join) = r'
      at hrestored ⊢
    obtain @⟨v, reserved, result⟩ := hrestored
    have hlater := ih reserved hrest
    cases result with
    | ok _ => exact hlater
    | error fault =>
      dsimp only
      generalize rollBack backups rest v = r, rollBack backups rest v.outside = r' at hlater ⊢
      cases hlater with
      | mk reserved errors => exact .mk reserved _

/-- Writing stops at the same file, and at one of those to be written. -/
theorem writeAll_alike {done : List Path} (h : v.disk.Reserved home) (hdone : ∀ p ∈ done, Outside p.parts)
    (hworking : ∀ p ∈ working.keys, Outside p.parts) :
    Volume.Alike home (writeAll done working v) (writeAll done working v.outside) ∧
      ∀ stop, (writeAll done working v).2 = .error stop → ∀ p ∈ stop.attempted, Outside p.parts := by
  induction working generalizing v done with
  | nil => exact ⟨.mk h _, nofun⟩
  | cons entry rest ih =>
    obtain ⟨p, t⟩ := entry
    obtain ⟨hp, hrest⟩ := List.forall_mem_cons.mp hworking
    have hwritten := writeFile_alike h hp t
    have hattempted : ∀ q ∈ done ++ [p], Outside q.parts :=
      List.forall_mem_append.mpr ⟨hdone, List.forall_mem_singleton.mpr hp⟩
    rw [writeAll, writeAll]
    generalize writeFile v p t = r, writeFile v.outside p t = r' at hwritten ⊢
    obtain @⟨v, reserved, result⟩ := hwritten
    cases result with
    | ok _ => exact ih reserved hattempted hrest
    | error fault =>
      refine ⟨.mk reserved _, fun stop hstop => ?_⟩
      cases hstop
      exact hattempted

/-- A transaction outside is alike with and without the own directories. -/
theorem applyOn_alike (h : v.disk.Reserved home) (hchanges : ∀ change ∈ changes, Outside change.path.parts) :
    Volume.Alike home (applyOn v changes) (applyOn v.outside changes) := by
  have hbackUp : backUp v.outside.disk [] changes = backUp v.disk [] changes := backUp_outside h hchanges
  rw [applyOn, applyOn, hbackUp]
  cases backUp v.disk [] changes with
  | error fault => exact .mk h _
  | ok backups =>
    dsimp only
    cases hresolved : resolve backups [] changes with
    | error fault => exact .mk h _
    | ok working =>
      have hkeys : ∀ p ∈ working.keys, Outside p.parts := by
        intro p hp
        obtain ⟨change, hm, rfl⟩ := (resolve_keys hresolved p hp).resolve_left (by simp [Table.keys])
        exact hchanges change hm
      have hnone : ∀ p ∈ ([] : List Path), Outside p.parts := by simp
      obtain ⟨hwritten, hstopped⟩ := writeAll_alike h hnone hkeys
      dsimp only
      generalize writeAll [] working v = r, writeAll [] working v.outside = r' at hwritten hstopped ⊢
      obtain @⟨v, reserved, result⟩ := hwritten
      cases result with
      | ok _ => exact .mk reserved _
      | error stop =>
        have hback : Volume.Alike home (rollBack backups stop.attempted v)
            (rollBack backups stop.attempted v.outside) :=
          rollBack_alike reserved (hstopped stop rfl)
        dsimp only
        rw [afterStop, afterStop]
        split
        · generalize rollBack backups stop.attempted v = r, rollBack backups stop.attempted v.outside = r' at hback ⊢
          cases hback with
          | mk reserved errors => exact .mk reserved _
        · exact .mk reserved _

theorem apply_alike (h : d.Reserved home) (hchanges : ∀ change ∈ changes, Outside change.path.parts) :
    Disk.Alike home (apply d changes) (apply d.outside changes) := by
  have happlied := applyOn_alike (v := ⟨d, []⟩) h hchanges
  change Volume.Alike home (applyOn ⟨d, []⟩ changes) (applyOn ⟨d.outside, []⟩ changes) at happlied
  rw [apply, apply]
  generalize applyOn ⟨d, []⟩ changes = r, applyOn ⟨d.outside, []⟩ changes = r' at happlied ⊢
  cases happlied with
  | mk reserved result => exact .mk reserved result

end Transaction

namespace FileTool

variable {display content answer pattern : Text} {first last line : Nat}

section
variable (h : d.Reserved home) (hp : Outside p.parts)
include h hp

theorem requireFile_outside (display : Text) : requireFile d.outside p display = requireFile d p display := by
  rw [requireFile, requireFile, exists?_outside h hp, isDirectory_outside h hp]

theorem show_outside (display : Text) : show_ d.outside p display = show_ d p display := by
  rw [show_, show_, requireFile_outside h hp, readBytes_outside h hp, readTextLossy_outside h hp]

theorem store_alike (t answer : Text) : Alike home (store d p t answer) (store d.outside p t answer) := by
  have hwritten := writeText_alike h hp t
  rw [store, store]
  generalize d.writeText p t = r, d.outside.writeText p t = r' at hwritten ⊢
  obtain @⟨d, reserved, result⟩ := hwritten
  cases result with
  | ok _ => exact .mk reserved _
  | error fault => exact .mk reserved _

theorem write_alike (content display : Text) :
    Alike home (write d p content display) (write d.outside p content display) := by
  have hmade := ensureDirectories_alike (p := p.parent) h hp.up
  rw [write, write]
  generalize d.ensureDirectories p.parent = r, d.outside.ensureDirectories p.parent = r' at hmade ⊢
  obtain @⟨d, reserved, result⟩ := hmade
  cases result with
  | error fault => exact .mk reserved _
  | ok _ => exact store_alike reserved hp _ _

theorem change_alike (display : Text) (edit : Text → Except ToolFault Text) (answer : Text) :
    Alike home (change d p display edit answer) (change d.outside p display edit answer) := by
  rw [change, change, requireFile_outside h hp, readText_outside h hp]
  cases requireFile d p display with
  | error fault => exact .mk h _
  | ok _ =>
    cases d.readText p with
    | error fault => exact .mk h _
    | ok t =>
      dsimp only
      cases edit t with
      | error fault => exact .mk h _
      | ok t => exact store_alike h hp t answer

theorem replaceLines_alike (first last : Nat) (content display : Text) :
    Alike home (replaceLines d p first last content display) (replaceLines d.outside p first last content display) := by
  have hchanged := change_alike h hp display (fun t => .ok (Lines.replace first last content t))
    ("Replaced lines " ++ Text.ofNat first ++ "-" ++ Text.ofNat last ++ " in " ++ display)
  rw [replaceLines, replaceLines, requireFile_outside h hp]
  cases requireFile d p display with
  | error fault => exact .mk h _
  | ok _ =>
    dsimp only
    split
    · exact .mk h _
    · exact hchanged

theorem delete_alike (display : Text) : Alike home (delete d p display) (delete d.outside p display) := by
  have hremoved := remove_alike h hp
  rw [delete, delete, exists?_outside h hp, isDirectory_outside h hp]
  generalize d.remove p = r, d.outside.remove p = r' at hremoved ⊢
  rcases d.exists? p with fault | _ | _
  · exact .mk h _
  · exact .mk h _
  rcases d.isDirectory p with fault | _ | _
  · exact .mk h _
  · cases hremoved with
    | ok reserved => exact .mk reserved _
    | error fault => exact .mk h _
  · exact .mk h _

theorem createDirectory_alike (display : Text) :
    Alike home (createDirectory d p display) (createDirectory d.outside p display) := by
  have hmade := ensureDirectories_alike h hp
  rw [createDirectory, createDirectory]
  generalize d.ensureDirectories p = r, d.outside.ensureDirectories p = r' at hmade ⊢
  obtain @⟨d, reserved, result⟩ := hmade
  cases result with
  | ok _ => exact .mk reserved _
  | error fault => exact .mk reserved _

/-- A directory is listed the same if no own directory stands in it. -/
theorem list_outside (hfree : ∀ x, d.locate true p = .ok x → d.lookup? (x ++ [ownName]) = none) (display : Text) :
    list d.outside p display = list d p display := by
  obtain ⟨hlisting, hnames⟩ := listing_outside h hp hfree
  have hline (name : Text) (hn : name ≠ ownName) : listingLine d.outside p name = listingLine d p name := by
    have hstat := stat_outside (p := p.child name) h (hp.child hn)
    rw [listingLine, listingLine, hstat]
  rw [list, list, exists?_outside h hp, isDirectory_outside h hp, hlisting]
  cases hl : d.listing p with
  | error fault => rfl
  | ok names =>
    have hlines : names.map (listingLine d.outside p) = names.map (listingLine d p) :=
      List.map_congr_left fun name hm => hline name (forall_ne_iff.mpr (hnames names hl) name hm)
    rcases d.exists? p with fault | _ | _
    · rfl
    · rfl
    rcases d.isDirectory p with fault | _ | _
    · rfl
    · rfl
    · exact congrArg (fun lines => (Except.ok (if names.isEmpty then "(empty directory)" else Text.unlines lines) :
        Except ToolFault Text)) hlines

end

theorem collect_congr {search search' : Path → List Text} {ps : List Path} (most : Nat)
    (h : ∀ p ∈ ps, search' p = search p) : collect search' most ps = collect search most ps := by
  induction ps generalizing most with
  | nil => rfl
  | cons p rest ih =>
    obtain ⟨hp, hrest⟩ := List.forall_mem_cons.mp h
    rw [collect, collect, hp]
    simp only [ih _ hrest]

variable [Host]

theorem searchFiles_outside (h : d.Reserved home) (hroot : Outside root.parts) (limits : SearchLimits)
    (pattern : Text) (include? : Option Text) :
    searchFiles d.outside root limits pattern include? = searchFiles d root limits pattern include? := by
  rw [searchFiles, searchFiles, sourceFiles_outside h rfl hroot]
  cases Pattern.Node.read true pattern with
  | error fault => rfl
  | ok node =>
    dsimp only
    rw [collect_congr]
    intro p hm
    have hp := outside_of_mem_sourceFiles h rfl hroot (List.mem_filter.mp hm).1
    simp only [searchable?, readBytes_outside h hp, readText_outside h hp]

end FileTool
end CodeAgent
