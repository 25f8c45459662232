import Mathlib
import CodeAgent.Edit.Transaction
import CodeAgent.Proofs.Disk.Change
import CodeAgent.Proofs.Text.Utf8

namespace CodeAgent.Transaction
open Disk

variable {d : Disk} {v v' : Volume} {p : Path} {backups backups' : Backups} {changes : List FileChange}

/-- At a path stands what stood there before, or still nothing. -/
def Kept (before after : Disk) (p : Path) : Prop := (after.stat p).toOption = (before.stat p).toOption

/-- A text that was backed up is what its file says. -/
theorem snapshot_some {t : Text} (h : snapshot d p = .ok (some t)) :
    ∃ bytes u, d.stat p = .ok (.file bytes) ∧ Utf8.decode bytes = .ok u ∧ t = Text.normalizeNewlines u := by
  unfold snapshot at h
  split at h
  · rename_i t' hr
    cases h
    unfold readText at hr
    split at hr
    · cases hr
    rename_i bytes hb
    split at hr
    · rename_i u hu
      cases hr
      unfold readBytes at hb
      split at hb
      · rename_i hs
        cases hb
        exact ⟨bytes, u, hs, hu, rfl⟩
      · cases hb
      · cases hb
    · cases hr
  all_goals cases h

/-- Nothing is backed up of a file that is not there. -/
theorem snapshot_none (h : snapshot d p = .ok none) : (d.stat p).toOption = none := by
  unfold snapshot at h
  split at h
  · cases h
  · rename_i hr
    unfold readText at hr
    split at hr
    · rename_i hb
      cases hr
      unfold readBytes at hb
      split at hb
      · cases hb
      · cases hb
      · rename_i hs
        rw [hs]
        rfl
    · split at hr <;> cases hr
  all_goals cases h

def Faithful (d : Disk) (backups : Backups) : Prop :=
  ∀ p kept, backups.get? p = some kept → snapshot d p = .ok kept

/-- Backups stay faithful as more of them are made. -/
theorem backUp_faithful (hf : Faithful d backups) (h : backUp d backups changes = .ok backups') :
    Faithful d backups' := by
  induction changes generalizing backups with
  | nil =>
    simp only [backUp, Except.ok.injEq] at h
    exact h ▸ hf
  | cons change rest ih =>
    rw [backUp] at h
    split at h
    · exact ih hf h
    · split at h
      · rename_i kept hs
        refine ih ?_ h
        intro q k hq
        rw [Table.get?_set] at hq
        split at hq
        · rename_i he
          cases hq
          rw [he]
          exact hs
        · exact hf q k hq
      · cases h

/-- A path that has a backup keeps it. -/
theorem backUp_keeps (h : backUp d backups changes = .ok backups') (hp : (backups.get? p).isSome) :
    (backups'.get? p).isSome := by
  induction changes generalizing backups with
  | nil =>
    simp only [backUp, Except.ok.injEq] at h
    exact h ▸ hp
  | cons change rest ih =>
    rw [backUp] at h
    split at h
    · exact ih h hp
    · split at h
      · refine ih h ?_
        rw [Table.get?_set]
        split
        · rfl
        · exact hp
      · cases h

/-- Every path of the changes has a backup. -/
theorem backUp_covers (h : backUp d backups changes = .ok backups') :
    ∀ change ∈ changes, (backups'.get? change.path).isSome := by
  induction changes generalizing backups with
  | nil => simp
  | cons change rest ih =>
    intro c hc
    rw [backUp] at h
    split at h
    · rename_i hsome
      rcases List.mem_cons.mp hc with rfl | hc
      · exact backUp_keeps h hsome
      · exact ih h c hc
    · split at h
      · rcases List.mem_cons.mp hc with rfl | hc
        · exact backUp_keeps h (by rw [Table.get?_set_self]; rfl)
        · exact ih h c hc
      · cases h

/-- Only targets are written. -/
theorem resolve_keys {working working' : Table Path Text}
    (h : resolve backups working changes = .ok working') :
    ∀ p ∈ Table.keys working', p ∈ Table.keys working ∨ ∃ change ∈ changes, change.path = p := by
  induction changes generalizing working with
  | nil =>
    simp only [resolve, Except.ok.injEq] at h
    subst h
    exact fun p hp => Or.inl hp
  | cons change rest ih =>
    intro p hp
    rw [resolve] at h
    split at h
    · rcases ih h p hp with hk | ⟨c, hc, he⟩
      · rcases (Table.mem_keys_set _ _ _ _).mp hk with rfl | hk
        · exact Or.inr ⟨change, by simp, rfl⟩
        · exact Or.inl hk
      · exact Or.inr ⟨c, List.mem_cons_of_mem _ hc, he⟩
    · cases h

theorem writeFile_grows (hp : v.disk.Plain p.parts) (t : Text) :
    Grows [p.parts] v.disk (writeFile v p t).1.disk := by
  have hparent : Grows [] v.disk (v.ensureDirectories p.parent).1.disk :=
    Volume.ensureDirectories_grows (hp.of_prefix (List.dropLast_prefix _))
  unfold writeFile
  split
  · rename_i he
    rw [he] at hparent
    exact hparent.mono (List.nil_subset _)
  · rename_i he
    rw [he] at hparent
    exact (hparent.mono (List.nil_subset _)).trans
      (Volume.writeText_touches (hparent.plain hp) t).toGrows

/-- Writing that stops has changed the files attempted and made directories, nothing else. -/
theorem writeAll_grows {done : List Path} {working : Table Path Text} {stop : Stop}
    (hp : ∀ p ∈ Table.keys working, v.disk.Plain p.parts)
    (h : writeAll done working v = (v', .error stop)) :
    done ⊆ stop.attempted ∧ (∀ p ∈ stop.attempted, p ∈ done ∨ p ∈ Table.keys working) ∧
      Grows (stop.attempted.map (·.parts)) v.disk v'.disk := by
  induction working generalizing done v with
  | nil => simp [writeAll] at h
  | cons x rest ih =>
    obtain ⟨p, t⟩ := x
    have hplain := hp p (by simp [Table.keys])
    have hgrows := writeFile_grows hplain t
    rw [writeAll] at h
    split at h
    · rename_i v'' _ hw
      rw [hw] at hgrows
      have hrest : ∀ q ∈ Table.keys rest, v''.disk.Plain q.parts :=
        fun q hq => hgrows.plain (hp q (List.mem_cons_of_mem _ hq))
      obtain ⟨hdone, hkeys, hg⟩ := ih hrest h
      have hmem : p ∈ stop.attempted := hdone (by simp)
      refine ⟨fun q hq => hdone (List.mem_append_left _ hq), ?_, (hgrows.mono ?_).trans hg⟩
      · intro q hq
        rcases hkeys q hq with hq | hq
        · rcases List.mem_append.mp hq with hq | hq
          · exact Or.inl hq
          · exact Or.inr (by rw [List.mem_singleton.mp hq]; simp [Table.keys])
        · exact Or.inr (List.mem_cons_of_mem _ hq)
      · intro y hy
        rw [List.mem_singleton.mp hy]
        exact List.mem_map_of_mem hmem
    · rename_i hw
      rw [hw] at hgrows
      simp only [Prod.mk.injEq, Except.error.injEq] at h
      obtain ⟨rfl, rfl⟩ := h
      refine ⟨by simp [Stop.attempted], ?_, hgrows.mono (by simp [Stop.attempted])⟩
      intro q hq
      simpa [Stop.attempted, Table.keys, or_assoc] using (List.mem_append.mp hq).imp_right
        fun hq => Or.inl (List.mem_singleton.mp hq)

theorem restore_touches (hp : v.disk.Plain p.parts) (kept : Option Text) :
    Touches [p.parts] v.disk (restore v p kept).1.disk := by
  cases kept with
  | none => exact Volume.removeIfPresent_touches hp
  | some t => exact Volume.writeText_touches hp t

/-- What a file is restored to: the bytes of its backup, or nothing. -/
def Restored (d : Disk) (p : Path) : Option Text → Prop
  | some t => ∃ bytes, Utf8.encode t = .ok bytes ∧ d.lookup? p.parts = some (.file bytes)
  | none => d.lookup? p.parts = none

theorem restore_ok {kept : Option Text} (tree : v.disk.IsTree) (hp : v.disk.Plain p.parts)
    (h : restore v p kept = (v', .ok ())) : Restored v'.disk p kept := by
  cases kept with
  | none => exact Volume.removeIfPresent_ok tree hp h
  | some t => exact Volume.writeText_ok hp h

theorem Restored.congr {d' : Disk} {kept : Option Text} (h : Restored d p kept)
    (he : d'.lookup? p.parts = d.lookup? p.parts) : Restored d' p kept := by
  cases kept with
  | none => exact he.trans h
  | some t =>
    obtain ⟨bytes, hb, hd⟩ := h
    exact ⟨bytes, hb, he.trans hd⟩

/-- The way back touches no path but those of the backups. -/
theorem rollBack_touches {ps : List Path} (hp : ∀ p ∈ ps, v.disk.Plain p.parts) :
    Touches (ps.map (·.parts)) v.disk (rollBack backups ps v).1.disk := by
  induction ps generalizing v with
  | nil => exact Touches.refl _ _
  | cons p rest ih =>
    have htouch := restore_touches (hp p (by simp)) ((backups.get? p).join)
    have hrest (v' : Volume) (ht : Touches [p.parts] v.disk v'.disk) :
        Touches ((p :: rest).map (·.parts)) v.disk (rollBack backups rest v').1.disk :=
      (ht.mono (by simp)).trans
        ((ih fun q hq => ht.toGrows.plain (hp q (List.mem_cons_of_mem _ hq))).mono (by simp))
    rw [rollBack]
    split
    all_goals
      rename_i hr
      rw [hr] at htouch
      exact hrest _ htouch

/-- A file that rolling back does not list is restored. The targets must name different places. -/
theorem rollBack_restores {ps : List Path} (tree : v.disk.IsTree)
    (hp : ∀ p ∈ ps, v.disk.Plain p.parts)
    (apart : ∀ p ∈ ps, ∀ q ∈ ps, p.parts = q.parts → p = q) (hm : p ∈ ps)
    (hl : p.text ∉ (rollBack backups ps v).2.map (·.1)) :
    Restored (rollBack backups ps v).1.disk p ((backups.get? p).join) := by
  induction ps generalizing v with
  | nil => cases hm
  | cons q rest ih =>
    have htouch := restore_touches (hp q (by simp)) ((backups.get? q).join)
    have hplain {v' : Volume} (ht : Touches [q.parts] v.disk v'.disk) :
        ∀ r ∈ rest, v'.disk.Plain r.parts :=
      fun r hr => ht.toGrows.plain (hp r (List.mem_cons_of_mem _ hr))
    have hapart : ∀ p ∈ rest, ∀ q ∈ rest, p.parts = q.parts → p = q :=
      fun a ha b hb => apart a (List.mem_cons_of_mem _ ha) b (List.mem_cons_of_mem _ hb)
    rw [rollBack] at hl ⊢
    split at hl
    · rename_i v' _ hr
      rw [hr] at htouch
      by_cases hmem : p ∈ rest
      · exact ih (htouch.tree tree) (hplain htouch) hapart hmem hl
      · obtain rfl : p = q := (List.mem_cons.mp hm).resolve_right hmem
        refine (restore_ok tree (hp p (by simp)) hr).congr ?_
        refine (rollBack_touches (hplain htouch)).same p.parts ?_
        intro hin
        obtain ⟨r, hr, he⟩ := List.mem_map.mp hin
        exact hmem (apart r (List.mem_cons_of_mem _ hr) p (by simp) he ▸ hr)
    · rename_i v' fault hr
      rw [hr] at htouch
      dsimp only at hl ⊢
      simp only [List.map_cons, List.mem_cons, not_or] at hl
      have hmem : p ∈ rest := (List.mem_cons.mp hm).resolve_left fun he => hl.1 (by rw [he])
      exact ih (htouch.tree tree) (hplain htouch) hapart hmem hl.2

theorem readBytes_ok_iff {bytes : Bytes} : d.readBytes p = .ok bytes ↔ d.stat p = .ok (.file bytes) := by
  unfold readBytes
  split
  · rename_i hs
    simp [hs]
  · rename_i e hne hs
    simp only [reduceCtorEq, false_iff, hs, Except.ok.injEq]
    exact hne bytes
  · rename_i hs
    simp [hs]

/-- A restored file is what it was just if its line ends were the ones that its backup has. -/
theorem restored_kept_iff {d' : Disk} {kept : Option Text} (tree' : d'.IsTree) (hp : d.Plain p.parts)
    (hp' : d'.Plain p.parts) (hs : snapshot d p = .ok kept) (hr : Restored d' p kept) :
    Kept d d' p ↔ ∀ bytes, d.readBytes p = .ok bytes → 13 ∉ bytes := by
  cases kept with
  | none =>
    have hbefore := snapshot_none hs
    have hafter : (d'.stat p).toOption = none := by
      cases hs' : d'.stat p with
      | error fault => rfl
      | ok e =>
        have he := (stat_ok hp' hs').1
        rw [show d'.lookup? p.parts = none from hr] at he
        cases he
    refine ⟨fun _ bytes hb => ?_, fun _ => hafter.trans hbefore.symm⟩
    rw [readBytes_ok_iff.mp hb] at hbefore
    cases hbefore
  | some t =>
    obtain ⟨bytes, u, hfile, hu, rfl⟩ := snapshot_some hs
    obtain ⟨written, he, hd'⟩ := hr
    have hafter : d'.stat p = .ok (.file written) := stat_found tree' hp' hd' (stat_ok hp hfile).2
    have hread : d.readBytes p = .ok bytes := readBytes_ok_iff.mpr hfile
    calc Kept d d' p
      _ ↔ written = bytes := by simp [Kept, hafter, hfile, Except.toOption]
      _ ↔ 13 ∉ bytes := Utf8.written_back_iff hu he
      _ ↔ _ := by simp [hread]

theorem snapshot_not_directory {kept : Option Text} (hs : snapshot d p = .ok kept) :
    d.stat p ≠ .ok .directory := by
  intro hd
  cases kept with
  | none =>
    have hn := snapshot_none hs
    rw [hd] at hn
    cases hn
  | some t =>
    obtain ⟨bytes, -, hfile, -⟩ := snapshot_some hs
    rw [hd] at hfile
    cases hfile

/-- A target that was not reached is what it was unless a directory was made in its place. -/
theorem unreached_kept_iff {d' d'' : Disk} {xs : List Place} {kept : Option Text} (tree : d.IsTree)
    (hp : d.Plain p.parts) (hg : Grows xs d d') (ht : Touches xs d' d'') (hx : p.parts ∉ xs)
    (hs : snapshot d p = .ok kept) : Kept d d'' p ↔ d'.stat p ≠ .ok .directory := by
  have tree' := hg.tree tree
  have hp' := hg.plain hp
  have hlater : (d''.stat p).toOption = (d'.stat p).toOption :=
    stat_congr tree' (ht.tree tree') hp' (ht.toGrows.plain hp') (ht.same _ hx)
  rw [Kept, hlater]
  constructor
  · intro hk hd
    apply snapshot_not_directory hs
    rw [hd] at hk
    cases hs' : d.stat p with
    | error fault => rw [hs'] at hk; cases hk
    | ok e => rw [hs'] at hk; cases hk; rfl
  · intro hd
    rcases hg.outside _ hx with he | ⟨hn, hdir⟩
    · exact stat_congr tree tree' hp hp' he
    · have hbefore : (d.stat p).toOption = none := by
        cases hs' : d.stat p with
        | error fault => rfl
        | ok e => rw [(stat_ok hp hs').1] at hn; cases hn
      rw [hbefore]
      cases hs' : d'.stat p with
      | error fault => rfl
      | ok e =>
        have he := (stat_ok hp' hs').1
        rw [hdir] at he
        cases he
        exact absurd hs' hd

/-- The transaction is told as failed, and every target that it does not list stands as it did. -/
def FailsWhole (v : Volume) (changes : List FileChange) : Prop :=
  ∃ failure, (applyOn v changes).2 = .error (.failed failure) ∧
    ∀ change ∈ changes, change.path.text ∉ Table.keys failure.rollbackErrors →
      Kept v.disk (applyOn v changes).1.disk change.path

section Stopped

variable {working : Table Path Text} {stop : Stop}

/-- Only targets are attempted, and besides them only directories are made. -/
theorem attempted_targets (resolved : ∀ change ∈ changes, v.disk.Resolved change.path)
    (hr : resolve backups [] changes = .ok working) (hw : writeAll [] working v = (v', .error stop)) :
    (∀ p ∈ stop.attempted, ∃ change ∈ changes, change.path = p) ∧
      Grows (stop.attempted.map (·.parts)) v.disk v'.disk := by
  have htarget : ∀ p ∈ Table.keys working, ∃ change ∈ changes, change.path = p :=
    fun p hp => (resolve_keys hr p hp).resolve_left (by simp [Table.keys])
  have hplain : ∀ p ∈ Table.keys working, v.disk.Plain p.parts := by
    intro p hp
    obtain ⟨change, hc, rfl⟩ := htarget p hp
    exact (resolved change hc).plain
  obtain ⟨-, hkeys, hgrows⟩ := writeAll_grows hplain hw
  exact ⟨fun p hp => htarget p ((hkeys p hp).resolve_left (by simp)), hgrows⟩

/-- After rolling back, a target that is not listed is as before on one of two conditions: restored to
line ends that it had, or never reached and not turned into a directory. -/
theorem target_kept_iff (tree : v.disk.IsTree) (resolved : ∀ change ∈ changes, v.disk.Resolved change.path)
    (hb : backUp v.disk [] changes = .ok backups) (hr : resolve backups [] changes = .ok working)
    (hw : writeAll [] working v = (v', .error stop)) {change : FileChange} (hc : change ∈ changes)
    (hl : change.path.text ∉ (rollBack backups stop.attempted v').2.map (·.1)) :
    Kept v.disk (rollBack backups stop.attempted v').1.disk change.path ↔
      if change.path ∈ stop.attempted then
        ∀ bytes, v.disk.readBytes change.path = .ok bytes → 13 ∉ bytes
      else v'.disk.stat change.path ≠ .ok .directory := by
  obtain ⟨hattempted, hgrows⟩ := attempted_targets resolved hr hw
  have hresolved : ∀ p ∈ stop.attempted, v.disk.Resolved p := by
    intro p hp
    obtain ⟨c, hc, rfl⟩ := hattempted p hp
    exact resolved c hc
  have hplain : ∀ p ∈ stop.attempted, v'.disk.Plain p.parts :=
    fun p hp => hgrows.plain (hresolved p hp).plain
  have hfaithful : Faithful v.disk backups := backUp_faithful (fun p kept h => by cases h) hb
  obtain ⟨kept, hk⟩ := Option.isSome_iff_exists.mp (backUp_covers hb change hc)
  have hs := hfaithful _ _ hk
  have htouch : Touches _ _ (rollBack backups stop.attempted v').1.disk := rollBack_touches hplain
  split
  · rename_i hm
    have hrestored := rollBack_restores (hgrows.tree tree) hplain
      (fun p hp q hq => (hresolved p hp).eq_of_parts (hresolved q hq)) hm hl
    rw [hk] at hrestored
    exact restored_kept_iff (htouch.tree (hgrows.tree tree)) (resolved change hc).plain
      (htouch.toGrows.plain (hplain _ hm)) hs hrestored
  · rename_i hm
    refine unreached_kept_iff tree (resolved change hc).plain hgrows htouch ?_ hs
    intro hin
    obtain ⟨p, hp, he⟩ := List.mem_map.mp hin
    exact hm ((hresolved p hp).eq_of_parts (resolved change hc) he ▸ hp)

/-- When writing has stopped, the transaction fails as a whole just if the system reported the reason, no
restored file had a carriage return, and no target that was not reached has become a directory. -/
theorem fails_whole_iff (tree : v.disk.IsTree) (resolved : ∀ change ∈ changes, v.disk.Resolved change.path)
    (hb : backUp v.disk [] changes = .ok backups) (hr : resolve backups [] changes = .ok working)
    (hw : writeAll [] working v = (v', .error stop)) :
    FailsWhole v changes ↔ stop.fault.isSystem = true ∧
      ∀ change ∈ changes, change.path.text ∉ (rollBack backups stop.attempted v').2.map (·.1) →
        if change.path ∈ stop.attempted then
          ∀ bytes, v.disk.readBytes change.path = .ok bytes → 13 ∉ bytes
        else v'.disk.stat change.path ≠ .ok .directory := by
  have happly : applyOn v changes =
      ((afterStop backups v' stop).1, .error (afterStop backups v' stop).2) := by
    simp only [applyOn, hb, hr, hw]
  have hlisted (p : Path) : p.text ∉ Table.keys (Table.ofPairs (rollBack backups stop.attempted v').2) ↔
      p.text ∉ (rollBack backups stop.attempted v').2.map (·.1) :=
    not_congr (Table.mem_keys_ofPairs _ _)
  cases hsystem : stop.fault.isSystem with
  | false =>
    simp only [FailsWhole, happly, afterStop, hsystem, Bool.false_eq_true, ↓reduceIte, Except.error.injEq,
      reduceCtorEq, false_and, exists_false]
  | true =>
    simp only [FailsWhole, happly, afterStop, hsystem, ↓reduceIte, Except.error.injEq, Fault.failed.injEq,
      exists_eq_left', hlisted, true_and]
    exact forall₂_congr fun change hc =>
      imp_congr_right fun hl => target_kept_iff tree resolved hb hr hw hc hl

end Stopped

def topLevel (name : Text) : Path := ⟨[Path.slash], [name]⟩

def fullDisk : Volume where
  disk := ⟨[(["a"], .file [120])]⟩
  ahead := [none, none, none, some { number := 28, reason := "No space left on device", left := some [] }]

def twoChanges : List FileChange := [⟨topLevel "a", [⟨"x", "y"⟩]⟩, ⟨topLevel "b", [⟨"", "z"⟩]⟩]

/-- Two changes on a disk that fills up at the second leave the disk as it was. -/
theorem full_disk_fails_whole : FailsWhole fullDisk twoChanges := by
  have hb : backUp fullDisk.disk [] twoChanges = .ok [(topLevel "a", some "x"), (topLevel "b", none)] := by
    cbv
  have hw : writeAll [] [(topLevel "a", "y"), (topLevel "b", "z")] fullDisk =
      (⟨⟨[(["a"], .file [121]), (["b"], .file [])]⟩, []⟩,
        .error ⟨[topLevel "a"], topLevel "b", .system (.other 28 "No space left on device") (topLevel "b")⟩) := by
    cbv
  have hcases : ∀ change ∈ twoChanges,
      change = ⟨topLevel "a", [⟨"x", "y"⟩]⟩ ∨ change = ⟨topLevel "b", [⟨"", "z"⟩]⟩ := by simp [twoChanges]
  have hread : ∀ change ∈ twoChanges, ∀ bytes, fullDisk.disk.readBytes change.path = .ok bytes →
      13 ∉ bytes := by
    intro change hc bytes hbytes
    rcases hcases change hc with rfl | rfl
    · rw [show fullDisk.disk.readBytes (topLevel "a") = .ok [120] by cbv] at hbytes
      cases hbytes
      decide
    · rw [show fullDisk.disk.readBytes (topLevel "b") = .error (.system .noEntry (topLevel "b")) by cbv]
        at hbytes
      cases hbytes
  refine (fails_whole_iff (by decide) ?_ hb (by cbv) hw).mpr ⟨rfl, ?_⟩
  · intro change hc
    rcases hcases change hc with rfl | rfl
    · exact ⟨topLevel "a", by cbv⟩
    · exact ⟨topLevel "b", by cbv⟩
  · intro change hc _
    rw [if_pos]
    · exact hread change hc
    · rcases hcases change hc with rfl | rfl <;> decide

/-- A text that has no UTF-8 form is no failure that the system reports. The file written before it stays
as the transaction made it. -/
theorem surrogate_not_rolled_back :
    let v : Volume := ⟨⟨[(["a"], .file [120])]⟩, []⟩
    let changes : List FileChange :=
      [⟨topLevel "a", [⟨"x", "y"⟩]⟩, ⟨topLevel "b", [⟨"", [CodePoint.ofNat 0xd800]⟩]⟩]
    (∃ backups working stop, backUp v.disk [] changes = .ok backups ∧
      resolve backups [] changes = .ok working ∧ (writeAll [] working v).2 = .error stop) ∧
    ¬ FailsWhole v changes := by
  refine ⟨⟨_, _, _, by cbv, by cbv, by cbv⟩, ?_⟩
  rintro ⟨failure, hf, -⟩
  have happly : (applyOn ⟨⟨[(["a"], .file [120])]⟩, []⟩
      [⟨topLevel "a", [⟨"x", "y"⟩]⟩, ⟨topLevel "b", [⟨"", [CodePoint.ofNat 0xd800]⟩]⟩]).2 =
      .error (.disk (.unwritable ⟨0, [CodePoint.ofNat 0xd800]⟩)) := by cbv
  rw [happly] at hf
  cases hf

end CodeAgent.Transaction
