import CodeAgent.Proofs.Disk.Inside
import CodeAgent.Proofs.Json.Printer
import CodeAgent.Proofs.Store.Save
import Mathlib.Data.List.Nodup
import Mathlib.Data.List.Perm.Subperm

namespace CodeAgent

namespace Table

variable {κ ν : Type} [DecidableEq κ]

theorem set_set (t : Table κ ν) (k : κ) (v w : ν) : set k w (set k v t) = set k w t := by
  induction t with
  | nil => simp [set]
  | cons x rest ih =>
    obtain ⟨k', v'⟩ := x
    simp only [set]
    split
    · rename_i he
      simp [set, he]
    · rename_i hne
      simp [set, hne, ih]

theorem erase_set_of_none {t : Table κ ν} {k : κ} (h : t.get? k = none) (v : ν) : erase k (set k v t) = t := by
  induction t with
  | nil => simp [set, erase]
  | cons x rest ih =>
    obtain ⟨k', v'⟩ := x
    simp only [get?] at h
    split at h
    · cases h
    · rename_i hne
      simp only [set, if_neg hne]
      rw [erase, List.filter_cons_of_pos (by simpa using hne)]
      exact congrArg _ (ih h)

end Table

namespace Disk

variable {d : Disk} {x : Place} {a : Entry}

def NotLinked (d : Disk) (p : Path) : Prop :=
  ∀ x, d.locate false p = .ok x → ∀ target, d.lookup? x ≠ some (.link target)

theorem put_put (d : Disk) (x : Place) (a b : Entry) : (d.put x a).put x b = d.put x b :=
  congrArg Disk.mk (Table.set_set d.entries x a b)

theorem erase_put (hx : x ≠ []) (h : d.lookup? x = none) (a : Entry) : (d.put x a).erase x = d := by
  rw [lookup?_of_ne hx] at h
  exact congrArg Disk.mk (Table.erase_set_of_none h a)

end Disk

namespace Store
open Disk

variable {s t : Store} {d d' : Disk} {dir : Path} {name : Text} {x y : Place} {bytes : Bytes} {n m : Nat}

theorem temporaryName_injective (h : temporaryName n = temporaryName m) : n = m := by
  unfold temporaryName at h
  exact Text.ofNat_injective (List.append_cancel_left (List.append_cancel_right h))

theorem temporaryName_ne_up (n : Nat) : temporaryName n ≠ (".." : Text) := by
  intro he
  cases congrArg (fun name => name[1]?) he

theorem temporaryName_ne_fileName (n : Nat) : temporaryName n ≠ fileName := by
  intro he
  cases congrArg (fun name => name[0]?) he

theorem fileName_ne_up : fileName ≠ (".." : Text) := by decide

/-- There are more temporary names than entries, so one of them is not taken. -/
theorem exists_free (h : d.Leads dir x) :
    ∃ n, (List.range (d.entries.length + 1)).find? (fun n => !d.stands (dir.child (temporaryName n))) = some n ∧
      d.stands (dir.child (temporaryName n)) = false := by
  cases hfind : (List.range (d.entries.length + 1)).find? fun n => !d.stands (dir.child (temporaryName n)) with
  | some n => exact ⟨n, rfl, by simpa using List.find?_some hfind⟩
  | none =>
    exfalso
    rw [List.find?_eq_none] at hfind
    have htaken : (List.range (d.entries.length + 1)).map (fun n => x ++ [temporaryName n]) ⊆ Table.keys d.entries := by
      intro y hy
      obtain ⟨n, hn, rfl⟩ := List.mem_map.mp hy
      have hstands : d.stands (dir.child (temporaryName n)) = true := by simpa using hfind n hn
      obtain ⟨-, hthere⟩ := (h.stands_child (temporaryName_ne_up n)).mp hstands
      rwa [Table.mem_keys_iff, ← lookup?_of_ne (by simp)]
    have hnodup : ((List.range (d.entries.length + 1)).map (fun n => x ++ [temporaryName n])).Nodup := by
      refine List.nodup_range.map fun n m he => temporaryName_injective ?_
      exact List.singleton_injective (List.append_cancel_left he)
    have hlength := (hnodup.subperm htaken).length_le
    simp only [List.length_map, List.length_range, Table.keys] at hlength
    omega

/-- The temporary file is a new one. -/
theorem exists_temporary (h : d.Leads dir x) : ∃ n, temporaryPath d dir = dir.child (temporaryName n) ∧
    (Nameable (dir.child (temporaryName n)) → d.lookup? (x ++ [temporaryName n]) = none) := by
  obtain ⟨n, hfind, hfree⟩ := exists_free h
  refine ⟨n, by simp only [temporaryPath, hfind, Option.getD_some], fun hnameable => ?_⟩
  by_contra hthere
  rw [(h.stands_child (temporaryName_ne_up n)).mpr ⟨hnameable, hthere⟩] at hfree
  cases hfree

/-- A directory in which a store is saved under a name: the file there can be written over, and the name and that of
the temporary file fit. -/
structure Housed (d : Disk) (dir : Path) (name : Text) (x : Place) : Prop where
  leads : d.Leads dir x
  notUp : name ≠ (".." : Text)
  own : ∀ n, temporaryName n ≠ name
  notDirectory : d.lookup? (x ++ [name]) ≠ some .directory
  notLink : ∀ target, d.lookup? (x ++ [name]) ≠ some (.link target)
  temporary : Nameable (temporaryPath d dir)
  file : Nameable (dir.child name)

theorem child_parent (dir : Path) (name : Text) : (dir.child name).parent = dir := by
  simp [Path.parent, Path.child]

/-- What stands in the directory once the temporary file is written. -/
theorem temporary_written {temporary : Text} (h : d.Leads dir x) (hfree : d.lookup? (x ++ [temporary]) = none)
    (bytes : Bytes) :
    (d.put (x ++ [temporary]) (.file bytes)).Leads dir x ∧
    (d.put (x ++ [temporary]) (.file bytes)).erase (x ++ [temporary]) = d ∧
    (d.put (x ++ [temporary]) (.file bytes)).lookup? (x ++ [temporary]) = some (.file bytes) := by
  have hmore : Extends d (d.put (x ++ [temporary]) (.file bytes)) :=
    extends_put_file (by simp [hfree]) (by simp [hfree]) bytes
  exact ⟨h.extends hmore, erase_put (by simp) hfree _, lookup?_put_self d (by simp)⟩

/-- The temporary file of a save that has written it. -/
theorem written_temporary {d₁ d₂ : Disk} {t : Text} (h : d₁.Leads dir x)
    (hw : d₁.writeText (temporaryPath d₁ dir) t = (d₂, .ok ())) :
    ∃ n bytes, temporaryPath d₁ dir = dir.child (temporaryName n) ∧ Nameable (dir.child (temporaryName n)) ∧
      d₁.lookup? (x ++ [temporaryName n]) = none ∧ Utf8.encode t = .ok bytes ∧
      d₂ = d₁.put (x ++ [temporaryName n]) (.file bytes) := by
  obtain ⟨n, htemporary, hfree⟩ := exists_temporary h
  rw [htemporary] at hw
  unfold writeText at hw
  split at hw
  · simp at hw
  rename_i y d₃ hopen
  obtain ⟨hlocated, -, rfl⟩ := openForWriting_iff.mp hopen
  have hnameable := locate_nameable hlocated
  have hnone := hfree hnameable
  obtain rfl := locate_unique hlocated (h.locate_child hnameable (temporaryName_ne_up n) (by simp [hnone]))
  split at hw
  · rename_i bytes hbytes
    obtain ⟨rfl, -⟩ := Prod.mk.inj hw
    exact ⟨n, bytes, htemporary, hnameable, hnone, hbytes, put_put _ _ _ _⟩
  · simp at hw

/-- Where a store is housed its save is one file more. -/
theorem Housed.save (h : Housed d dir name x) (s : Store) :
    ∃ bytes, Utf8.encode (Json.write s.toJson) = .ok bytes ∧
      s.save d (dir.child name) = (d.put (x ++ [name]) (.file bytes), .ok ()) := by
  obtain ⟨bytes, hbytes⟩ := (Json.isPrintable_write s.toJson).encode
  refine ⟨bytes, hbytes, ?_⟩
  obtain ⟨n, htemporary, hfree⟩ := exists_temporary h.leads
  have hnameable : Nameable (dir.child (temporaryName n)) := htemporary ▸ h.temporary
  have hnone := hfree hnameable
  have hopen : d.openForWriting (dir.child (temporaryName n)) =
      .ok (x ++ [temporaryName n], d.put (x ++ [temporaryName n]) (.file [])) := by
    refine openForWriting_iff.mpr ⟨h.leads.locate_child hnameable (temporaryName_ne_up n) ?_, by simp [hnone], rfl⟩
    simp [hnone]
  obtain ⟨hleads, herase, hself⟩ := temporary_written h.leads hnone bytes
  have hfile : (d.put (x ++ [temporaryName n]) (.file bytes)).lookup? (x ++ [name]) = d.lookup? (x ++ [name]) :=
    lookup?_put_of_ne d fun he => h.own n (List.singleton_injective (List.append_cancel_left he)).symm
  have hrename : (d.put (x ++ [temporaryName n]) (.file bytes)).rename (dir.child (temporaryName n))
      (dir.child name) = .ok (d.put (x ++ [name]) (.file bytes)) := by
    refine rename_iff.mpr ⟨_, _, _, (hleads.locate_child_iff (temporaryName_ne_up n)).mpr ⟨hnameable, rfl⟩,
      (hleads.locate_child_iff h.notUp).mpr ⟨h.file, rfl⟩, hself, ?_, ?_⟩
    · rw [hfile]
      exact h.notDirectory
    · rw [herase]
  rw [save_eq, child_parent, h.leads.ensureDirectories]
  dsimp only
  rw [htemporary, writeText_opened_ok hopen hbytes]
  dsimp only
  rw [put_put, hrename]

/-- Which temporary name is free depends on the directory alone. -/
theorem temporaryPath_congr (h : d.Leads dir x) (h' : d'.Leads dir x)
    (hsame : ∀ n, d'.lookup? (x ++ [temporaryName n]) = d.lookup? (x ++ [temporaryName n])) :
    temporaryPath d' dir = temporaryPath d dir := by
  have hstands : ∀ n, d'.stands (dir.child (temporaryName n)) = d.stands (dir.child (temporaryName n)) := by
    intro n
    rw [Bool.eq_iff_iff, h'.stands_child (temporaryName_ne_up n), h.stands_child (temporaryName_ne_up n), hsame]
  obtain ⟨n, hfind, -⟩ := exists_free h
  obtain ⟨m, hfind', -⟩ := exists_free h'
  simp only [temporaryPath, hfind, hfind', Option.getD_some]
  simp only [List.find?_range_eq_some, hstands] at hfind hfind'
  obtain ⟨hn, -, hbefore⟩ := hfind
  obtain ⟨hm, -, hbefore'⟩ := hfind'
  rcases Nat.lt_trichotomy n m with hlt | rfl | hlt
  · have htaken := hbefore' n hlt
    rw [hn] at htaken
    cases htaken
  · rfl
  · have htaken := hbefore m hlt
    rw [hm] at htaken
    cases htaken

/-- A document in a directory, where the directory is still found, houses the next one. -/
theorem housed_put (h : d.Leads dir x) (hleads : (d.put (x ++ [name]) (.file bytes)).Leads dir x)
    (hup : name ≠ (".." : Text)) (hown : ∀ n, temporaryName n ≠ name) (htemporary : Nameable (temporaryPath d dir))
    (hfile : Nameable (dir.child name)) : Housed (d.put (x ++ [name]) (.file bytes)) dir name x := by
  have hself : (d.put (x ++ [name]) (.file bytes)).lookup? (x ++ [name]) = some (.file bytes) :=
    lookup?_put_self d (by simp)
  refine ⟨hleads, hup, hown, by simp [hself], by simp [hself], ?_, hfile⟩
  rw [temporaryPath_congr h hleads fun n => ?_]
  · exact htemporary
  · exact lookup?_put_of_ne d fun he => hown n (List.singleton_injective (List.append_cancel_left he))

theorem Housed.put (h : Housed d dir name x) (bytes : Bytes) :
    Housed (d.put (x ++ [name]) (.file bytes)) dir name x :=
  housed_put h.leads (h.leads.extends (extends_put_file h.notDirectory h.notLink bytes)) h.notUp h.own h.temporary
    h.file

/-- Once a store was saved in a directory, every other can be, as often as one likes. -/
theorem Housed.savable (h : Housed d dir name x) : Savable d (dir.child name) := by
  refine Savable.of_kept (P := fun d => Housed d dir name x) (fun d s hd => ?_) h
  obtain ⟨bytes, -, hsave⟩ := hd.save s
  rw [hsave]
  exact ⟨rfl, hd.put bytes⟩

/-- A save that went through made the directories and put the document in the last of them. -/
theorem save_ok_place {file : Path} (h : s.save d file = (d', .ok ())) :
    ∃ d₁ x name bytes, d.ensureDirectories file.parent = (d₁, .ok ()) ∧ d₁.Leads file.parent x ∧
      file = file.parent.child name ∧ name ≠ (".." : Text) ∧ Nameable file ∧
      Nameable (temporaryPath d₁ file.parent) ∧ d₁.lookup? (x ++ [name]) ≠ some .directory ∧
      Utf8.encode (Json.write s.toJson) = .ok bytes ∧ d' = d₁.put (x ++ [name]) (.file bytes) := by
  rw [save_eq] at h
  split at h
  · simp at h
  rename_i d₁ _ hdirectories
  obtain ⟨x, hleads⟩ := leads_of_ensureDirectories hdirectories
  split at h
  · simp at h
  rename_i d₂ _ hwritten
  obtain ⟨n, bytes, htemporary, hnameable, hnone, hbytes, rfl⟩ := written_temporary hleads hwritten
  obtain ⟨hleads₂, herase, hself⟩ := temporary_written hleads hnone bytes
  rw [htemporary] at h
  split at h
  · rename_i d₃ hrename
    obtain ⟨rfl, -⟩ := Prod.mk.inj h
    obtain ⟨_, _, e, hfrom, hto, hentry, hfree, rfl⟩ := rename_iff.mp hrename
    obtain ⟨-, rfl⟩ := (hleads₂.locate_child_iff (temporaryName_ne_up n)).mp hfrom
    rw [hself] at hentry
    cases hentry
    obtain ⟨name, hchild, hup, rfl⟩ := hleads₂.child_of_locate hto hfree
    refine ⟨d₁, x, name, bytes, hdirectories, hleads, hchild, hup, locate_nameable hto, htemporary ▸ hnameable, ?_,
      hbytes, by rw [herase]⟩
    intro hdirectory
    by_cases he : name = temporaryName n
    · rw [he, hnone] at hdirectory
      cases hdirectory
    · rw [lookup?_put_of_ne _ fun h => he (List.singleton_injective (List.append_cancel_left h)), hdirectory] at hfree
      exact hfree rfl
  · split at h
    · split at h <;> simp at h
    · simp at h

/-- A save that went through, unless a link stood where the document comes: it has a directory of its own. -/
theorem save_ok_cases (hown : ∀ n, temporaryName n ≠ name) (h : s.save d (dir.child name) = (d', .ok ()))
    (hl : (d.ensureDirectories dir).1.NotLinked (dir.child name)) :
    ∃ d₁ x bytes, d.ensureDirectories dir = (d₁, .ok ()) ∧ Housed d₁ dir name x ∧
      Utf8.encode (Json.write s.toJson) = .ok bytes ∧ d' = d₁.put (x ++ [name]) (.file bytes) := by
  obtain ⟨d₁, x, name', bytes, hdirectories, hleads, hchild, hup, hn, htemporary, hnot, hbytes, rfl⟩ := save_ok_place h
  rw [child_parent] at hdirectories hleads hchild htemporary
  obtain rfl : name = name' := by
    have hparts := congrArg Path.parts hchild
    exact List.singleton_injective (List.append_cancel_left hparts)
  rw [hdirectories] at hl
  have hlinks := hl _ ((hleads.locate_child_iff hup).mpr ⟨hn, rfl⟩)
  exact ⟨d₁, x, bytes, hdirectories, ⟨hleads, hup, hown, hnot, hlinks, htemporary, hn⟩, hbytes, rfl⟩

/-- Whatever links lead to the directory, a save puts one file on a disk and makes directories. -/
theorem save_grows (h : s.save d (dir.child fileName) = (d', .ok ()))
    (hl : (d.ensureDirectories dir).1.NotLinked (dir.child fileName)) :
    ∃ x, Grows [x ++ [fileName]] d d' ∧ Housed d' dir fileName x ∧ (d.Tidy → dir.Written → d'.Tidy) ∧
      s.save d' (dir.child fileName) = (d', .ok ()) := by
  obtain ⟨d₁, x, bytes, hdirectories, hhoused, hbytes, rfl⟩ := save_ok_cases temporaryName_ne_fileName h hl
  have hwritable : d₁.Writable (x ++ [fileName]) :=
    ⟨by rw [List.dropLast_concat]; exact hhoused.leads.directory, hhoused.notDirectory⟩
  refine ⟨x, ?_, hhoused.put bytes, fun htidy hwritten => ?_, ?_⟩
  · exact ((ensureDirectories_grown hdirectories).mono (by simp)).trans (hwritable.put_touches bytes).toGrows
  · refine (htidy.ensureDirectories hwritten hdirectories).put hhoused.leads.directory (by decide) (by decide) ?_
    exact fun hd => absurd hd hhoused.notDirectory
  · obtain ⟨bytes', hbytes', hagain⟩ := (hhoused.put bytes).save s
    rw [hbytes] at hbytes'
    cases hbytes'
    rw [hagain, put_put]

end Store
end CodeAgent
