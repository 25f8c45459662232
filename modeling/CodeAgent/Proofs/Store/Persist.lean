import CodeAgent.Host.Usual
import CodeAgent.Proofs.Store.Document
import CodeAgent.Proofs.Store.Replace
import CodeAgent.Proofs.Text.Utf8

namespace CodeAgent

namespace Disk

variable {d e : Disk} {p dir : Path} {x y z at_ : Place} {rest : List Text} {name : Text} {follow : Bool} {n : Nat}
  {bytes : Bytes}

theorem readBytes_iff : d.readBytes p = .ok bytes ↔
    ∃ x, d.locate true p = .ok x ∧ d.lookup? x = some (.file bytes) := by
  unfold readBytes stat
  cases hl : d.locate true p with
  | error fault => simp
  | ok x =>
    simp only [Except.ok.injEq, exists_eq_left']
    cases he : d.lookup? x with
    | none => simp
    | some entry => cases entry <;> simp

theorem exists?_of_readBytes (h : d.readBytes p = .ok bytes) : d.exists? p = .ok true := by
  obtain ⟨x, hl, hx⟩ := readBytes_iff.mp h
  simp only [exists?, ask, stat, hl, hx]

/-- A file at a place does not lead anywhere: a walk to a directory goes another way. -/
theorem Walks.of_put_file (h : Walks (d.put y (.file bytes)) true n at_ rest z) (hy : y ≠ [])
    (hz : (d.put y (.file bytes)).lookup? z = some .directory) : Walks d true n at_ rest z := by
  have hhere {x : Place} {entry : Entry} (hx : (d.put y (.file bytes)).lookup? x = some entry)
      (hfile : ∀ bytes, entry ≠ .file bytes) : d.lookup? x = some entry := by
    by_cases he : x = y
    · rw [he, lookup?_put_self d hy] at hx
      exact absurd (Option.some.inj hx).symm (hfile bytes)
    · rwa [lookup?_put_of_ne d he] at hx
  induction h with
  | done => exact .done
  | up tail ih => exact .up (ih hz)
  | down notUp size here tail ih => exact .down notUp size (hhere here nofun) (ih hz)
  | last _ _ here =>
    rw [hz] at here
    rcases here with here | ⟨bytes, here⟩ <;> cases here
  | stay _ _ _ unfollowed => cases unfollowed
  | link notUp size here followed tail ih => exact .link notUp size (hhere here nofun) followed (ih hz)

/-- If a directory is still found once a file was put somewhere, it is the one that was found before. -/
theorem Leads.put_file (h : d.Leads dir x) (hy : y ≠ [])
    (hdir : (d.put y (.file bytes)).isDirectory dir = .ok true) : (d.put y (.file bytes)).Leads dir x := by
  obtain ⟨z, hl, hz⟩ := isDirectory_iff.mp hdir
  have hw := (locate_iff.mp hl).2.2.of_put_file hy hz
  obtain rfl := hw.unique (locate_iff.mp h.located).2.2
  exact ⟨hl, hz⟩

theorem Leads.readBytes_child (h : d.Leads dir x) (hn : Nameable (dir.child name)) (hup : name ≠ (".." : Text))
    (hfile : d.lookup? (x ++ [name]) = some (.file bytes)) : d.readBytes (dir.child name) = .ok bytes :=
  readBytes_iff.mpr ⟨x ++ [name], h.locate_child hn hup (fun _ => by simp [hfile]), hfile⟩

end Disk

namespace Volume

variable {v v' : Volume} {p old new : Path} {t : Text} {fault : DiskFault}

theorem ensureDirectories_ok (h : v.ensureDirectories p = (v', .ok ())) :
    v.disk.ensureDirectories p = (v'.disk, .ok ()) := by
  unfold ensureDirectories at h
  split at h
  · obtain ⟨rfl, hr⟩ := Prod.mk.inj h
    exact Prod.ext rfl hr
  · simp at h

theorem writeText_disk (h : v.writeText p t = (v', .ok ())) : v.disk.writeText p t = (v'.disk, .ok ()) := by
  unfold writeText at h
  split at h
  · obtain ⟨rfl, hr⟩ := Prod.mk.inj h
    exact Prod.ext rfl hr
  · simp at h

/-- A move that fails moves nothing. -/
theorem rename_error (h : v.rename old new = (v', .error fault)) : v'.disk = v.disk := by
  unfold rename at h
  split at h
  · split at h
    · simp at h
    · rw [← (Prod.mk.inj h).1]
  · rw [← (Prod.mk.inj h).1]

end Volume

namespace Store

open Disk

variable {s t : Store} {d d' d'' : Disk} {v v' : Volume} {file : Path} {bytes : Bytes} {fault : DiskFault}

/-- What was written as JSON is read as it was written. -/
theorem readText_write {v : Json} (hfile : d.readBytes file = .ok (Utf8.encodeAny (Json.write v))) :
    d.readText file = .ok (Json.write v) := by
  have hprintable := Json.isPrintable_write v
  have hdecode : Utf8.decode (Utf8.encodeAny (Json.write v)) = .ok (Json.write v) :=
    Utf8.decode_ascii fun c hc => Nat.lt_succ_of_lt (hprintable c hc).2
  have hlines : Text.normalizeNewlines (Json.write v) = Json.write v := by
    refine Utf8.normalizeNewlines_id fun c hc hreturn => ?_
    have hlow := (hprintable c hc).1
    omega
  simp only [readText, hfile, hdecode, hlines]

section
/-- Where the document of a save stands, if the directory of its path is still found. It would not be found if the
save had put the document over a link on the way. -/
theorem save_ok_found (h : s.save d file = (d', .ok ())) (hdir : d'.isDirectory file.parent = .ok true) :
    ∃ d₁ x name bytes, d₁.Leads file.parent x ∧ d'.Leads file.parent x ∧ file = file.parent.child name ∧
      name ≠ (".." : Text) ∧ Nameable file ∧ Nameable (temporaryPath d₁ file.parent) ∧
      Utf8.encode (Json.write s.toJson) = .ok bytes ∧ d' = d₁.put (x ++ [name]) (.file bytes) := by
  obtain ⟨d₁, x, name, bytes, -, hleads, hchild, hup, hn, htemporary, -, hbytes, rfl⟩ := save_ok_place h
  exact ⟨d₁, x, name, bytes, hleads, hleads.put_file (by simp) hdir, hchild, hup, hn, htemporary, hbytes, rfl⟩

/-- A second save that goes through leaves the disk as the first one left it. -/
theorem save_save (h : s.save d file = (d', .ok ())) (hdir : d'.isDirectory file.parent = .ok true)
    (hagain : s.save d' file = (d'', .ok ())) : d'' = d' := by
  obtain ⟨d₁, x, name, bytes, -, hleads, hchild, -, -, -, hbytes, rfl⟩ := save_ok_found h hdir
  obtain ⟨d₂, y, name', bytes', hdirectories, hleads', hchild', -, -, -, -, hbytes', rfl⟩ := save_ok_place hagain
  rw [hleads.ensureDirectories] at hdirectories
  obtain ⟨rfl, -⟩ := Prod.mk.inj hdirectories
  obtain rfl := locate_unique hleads.located hleads'.located
  obtain rfl : name = name' := by
    have hparts := congrArg Path.parts (hchild.symm.trans hchild')
    exact List.singleton_injective (List.append_cancel_left hparts)
  rw [hbytes] at hbytes'
  cases hbytes'
  exact put_put _ _ _ _

/-- The second save does go through, unless the file has the name of a temporary one. -/
theorem save_save_ok (h : s.save d file = (d', .ok ())) (hdir : d'.isDirectory file.parent = .ok true)
    (hown : ∀ n, temporaryName n ≠ file.name) : s.save d' file = (d', .ok ()) := by
  obtain ⟨d₁, x, name, bytes, hleads₁, hleads, hchild, hup, hn, htemporary, hbytes, rfl⟩ := save_ok_found h hdir
  have hname : file.name = name := by
    rw [hchild]
    simp [Path.name, Path.child]
  rw [hname] at hown
  have hhoused := housed_put hleads₁ hleads hup hown htemporary (hchild ▸ hn)
  obtain ⟨bytes', hbytes', hsave⟩ := hhoused.save s
  rw [hbytes] at hbytes'
  cases hbytes'
  rw [hchild, hsave, put_put]

/-- A save comes to the move of its temporary file, and the system refuses that. The next call is not refused. -/
def MoveFails (s : Store) (v : Volume) (file : Path) (fault : DiskFault) : Prop :=
  ∃ v₁ v₂ v₃, v.ensureDirectories file.parent = (v₁, .ok ()) ∧
    v₁.writeText (temporaryPath v₁.disk file.parent) (Json.write s.toJson) = (v₂, .ok ()) ∧
    v₂.rename (temporaryPath v₁.disk file.parent) file = (v₃, .error fault) ∧ fault.isSystem = true ∧
    v₃.next.1 = none

/-- Nothing is left of a save but directories. -/
structure Undone (v v' : Volume) (file : Path) : Prop where
  /-- A file that stands was there, a file that was there stands, each with its content. -/
  files : ∀ x bytes, v'.disk.lookup? x = some (.file bytes) ↔ v.disk.lookup? x = some (.file bytes)
  others : ∀ x, v'.disk.lookup? x = v.disk.lookup? x ∨
    v.disk.lookup? x = none ∧ v'.disk.lookup? x = some .directory
  content : ∀ bytes, v.disk.readBytes file = .ok bytes → v'.disk.readBytes file = .ok bytes

theorem undone_of_ensureDirectories (h : v.disk.ensureDirectories file.parent = (v'.disk, .ok ())) :
    Undone v v' file := by
  have hothers : ∀ x, v'.disk.lookup? x = v.disk.lookup? x ∨
      v.disk.lookup? x = none ∧ v'.disk.lookup? x = some .directory :=
    fun x => (ensureDirectories_grown h).outside x List.not_mem_nil
  have hfiles (x : Place) (bytes : Bytes) :
      v'.disk.lookup? x = some (.file bytes) ↔ v.disk.lookup? x = some (.file bytes) := by
    rcases hothers x with hsame | ⟨hnone, hdirectory⟩
    · rw [hsame]
    · simp [hnone, hdirectory]
  refine ⟨hfiles, hothers, fun bytes hread => ?_⟩
  obtain ⟨x, hl, hx⟩ := readBytes_iff.mp hread
  exact readBytes_iff.mpr ⟨x, locate_extends (ensureDirectories_fills h).extends hl, (hfiles x bytes).mpr hx⟩

/-- What was written beside is taken away again, and the fault of the move is that of the save. -/
theorem saveOn_of_moveFails (h : MoveFails s v file fault) :
    ∃ v', s.saveOn v file = (v', .error fault) ∧ Undone v v' file := by
  obtain ⟨v₁, v₂, v₃, hdirectories, hwrite, hmove, hsystem, hnext⟩ := h
  have hmade := Volume.ensureDirectories_ok hdirectories
  obtain ⟨x, hleads⟩ := leads_of_ensureDirectories hmade
  obtain ⟨n, bytes, htemporary, hnameable, hfree, -, hwritten⟩ :=
    written_temporary hleads (Volume.writeText_disk hwrite)
  obtain ⟨hleads₂, herase, hself⟩ := temporary_written hleads hfree bytes
  have hremove : v₃.disk.removeIfPresent (temporaryPath v₁.disk file.parent) = .ok v₁.disk := by
    rw [Volume.rename_error hmove, hwritten, htemporary]
    have hremoved : (v₁.disk.put (x ++ [temporaryName n]) (.file bytes)).remove
        (file.parent.child (temporaryName n)) = .ok v₁.disk := by
      unfold remove
      rw [(hleads₂.locate_child_iff (temporaryName_ne_up n)).mpr ⟨hnameable, rfl⟩]
      dsimp only
      rw [hself]
      dsimp only
      rw [herase]
    unfold removeIfPresent
    rw [hremoved]
  refine ⟨⟨v₁.disk, v₃.next.2⟩, ?_, undone_of_ensureDirectories hmade⟩
  have hnext' : v₃.next = (none, v₃.next.2) := Prod.ext hnext rfl
  have hclean : v₃.removeIfPresent (temporaryPath v₁.disk file.parent) = (⟨v₁.disk, v₃.next.2⟩, .ok ()) := by
    unfold Volume.removeIfPresent
    rw [hnext']
    dsimp only
    rw [hremove]
  unfold saveOn
  rw [hdirectories]
  dsimp only
  rw [hwrite]
  dsimp only
  rw [hmove]
  dsimp only
  rw [if_pos hsystem, hclean]

variable [Host]

/-- From a file with the document of a store every store loads that one, whatever it held before. -/
theorem load_document (hdepth : 4 ≤ Host.jsonDepth) (hs : s.Storable)
    (hbytes : Utf8.encode (Json.write s.toJson) = .ok bytes)
    (hfile : d.readBytes file = .ok bytes) (t : Store) : t.load d file = (s, .ok ()) := by
  have hread : d.readText file = .ok (Json.write s.toJson) := by
    apply readText_write
    rw [hfile, Utf8.encode_ok hbytes]
    rfl
  unfold load
  rw [exists?_of_readBytes hfile]
  dsimp only
  rw [hread]
  dsimp only
  rw [read_write_toJson hdepth hs]
  exact readDocument_toJson hs.distinct t

theorem load_of_save (hdepth : 4 ≤ Host.jsonDepth) (hs : s.Storable) (h : s.save d file = (d', .ok ()))
    (hdir : d'.isDirectory file.parent = .ok true) (t : Store) : t.load d' file = (s, .ok ()) := by
  obtain ⟨d₁, x, name, bytes, -, hleads, hchild, hup, hn, -, hbytes, rfl⟩ := save_ok_found h hdir
  refine load_document hdepth hs hbytes ?_ t
  rw [hchild] at hn ⊢
  exact hleads.readBytes_child hn hup (lookup?_put_self d₁ (by simp))

/-- Where the reader lets four brackets be open: whatever changes a store got since it was empty, one save brings it
to any other store, with its records in their order and its file digests, and the save is idempotent; and when the
last move of a save is refused, the save tells so and leaves every file as it was. -/
theorem saved_changes_persist (hdepth : 4 ≤ Host.jsonDepth) (changes : List StoreChange)
    (hc : ∀ c ∈ changes, c.Storable) (file : Path) :
    (∀ d d', (({} : Store).after changes).save d file = (d', .ok ()) → d'.isDirectory file.parent = .ok true →
      ∀ t : Store, t.load d' file = (({} : Store).after changes, .ok ()) ∧
        (∀ d'', (t.load d' file).1.save d' file = (d'', .ok ()) → d'' = d') ∧
        ((∀ n, temporaryName n ≠ file.name) → (t.load d' file).1.save d' file = (d', .ok ()))) ∧
    ∀ v fault, MoveFails (({} : Store).after changes) v file fault →
      ∃ v', (({} : Store).after changes).saveOn v file = (v', .error fault) ∧ Undone v v' file := by
  have hs : (({} : Store).after changes).Storable := storable_empty.after hc
  refine ⟨fun d d' hsave hdir t => ?_, fun v fault hfails => saveOn_of_moveFails hfails⟩
  have hload := load_of_save hdepth hs hsave hdir t
  refine ⟨hload, fun d'' hagain => ?_, fun hown => ?_⟩
  · rw [hload] at hagain
    exact save_save hsave hdir hagain
  · rw [hload]
    exact save_save_ok hsave hdir hown

end

attribute [local instance] Host.usual

def someChanges : List StoreChange :=
  let chunk (id text : Text) (line : Nat) : Source.Chunk := ⟨id, "a.py", "function", "f", text, line, line + 1, "h"⟩
  [.upsert [⟨chunk "a" "def f(): 0" 1, [Binary64.ofInt 1]⟩, ⟨chunk "b" "x" 3, [Binary64.ofInt 2]⟩,
      ⟨chunk "c" "y" 5, []⟩],
    .setHash "a.py" "h", .upsert [⟨chunk "a" "def f(): 1" 1, [Binary64.ofInt 3]⟩], .delete ["b"]]

def chunksFile : Path := Path.ofText "/s/chunks.json"

def fullVolume : Volume := ⟨⟨[]⟩, [none, none, some ⟨28, "No space left on device", 0, none⟩]⟩

/-- Records that were replaced and deleted, and a digest, are the same in another store, and the document is too. -/
theorem someChanges_persist :
    4 ≤ Host.jsonDepth ∧ (∀ c ∈ someChanges, c.Storable) ∧
    (∃ d', (({} : Store).after someChanges).save ⟨[]⟩ chunksFile = (d', .ok ()) ∧
      (⟨[], [("a.py", "old")]⟩ : Store).load d' chunksFile = (({} : Store).after someChanges, .ok ()) ∧
      ((⟨[], [("a.py", "old")]⟩ : Store).load d' chunksFile).1.save d' chunksFile = (d', .ok ())) ∧
    ∃ fault v', MoveFails (({} : Store).after someChanges) fullVolume chunksFile fault ∧
      (({} : Store).after someChanges).saveOn fullVolume chunksFile = (v', .error fault) ∧
      Undone fullVolume v' chunksFile := by
  have hc : ∀ c ∈ someChanges, c.Storable := by decide +kernel
  obtain ⟨hsuccess, hfailure⟩ := saved_changes_persist (by decide) someChanges hc chunksFile
  refine ⟨by decide, hc, ?_, ?_⟩
  · have hsaved : ((({} : Store).after someChanges).save ⟨[]⟩ chunksFile).2 = .ok () := by decide +kernel
    have hdir : ((({} : Store).after someChanges).save ⟨[]⟩ chunksFile).1.isDirectory chunksFile.parent = .ok true := by
      decide +kernel
    obtain ⟨hload, -, hagain⟩ := hsuccess _ _ (Prod.ext rfl hsaved) hdir ⟨[], [("a.py", "old")]⟩
    exact ⟨_, Prod.ext rfl hsaved, hload, hagain temporaryName_ne_fileName⟩
  · have hfails : MoveFails (({} : Store).after someChanges) fullVolume chunksFile
        (.system (.other 28 "No space left on device") (Path.ofText "/s/.chunks-0.tmp")) :=
      ⟨_, _, _, Prod.ext rfl (by decide +kernel), Prod.ext rfl (by decide +kernel), Prod.ext rfl (by decide +kernel),
        rfl, by decide +kernel⟩
    obtain ⟨v', hsave, hundone⟩ := hfailure fullVolume _ hfails
    exact ⟨_, v', hfails, hsave, hundone⟩

end Store

end CodeAgent
