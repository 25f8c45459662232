import Mathlib
import CodeAgent.Proofs.Disk.Extend
import CodeAgent.Proofs.Edit.RollBack

namespace CodeAgent.Transaction
open Disk

variable {d e : Disk} {p q : Path} {x y : Place} {t t' : Text} {edit : Edit}
variable {texts texts' final final' : Path → Text} {n : Nat} {blocks : List Edit} {changes : List FileChange}
variable {backups : Backups} {working working' : Table Path Text}

/-- One block in the sequence: its file, its number in its change, and what it replaces. -/
structure Turn where
  path : Path
  number : Nat
  edit : Edit

def turnsFrom (p : Path) (n : Nat) : List Edit → List Turn
  | [] => []
  | edit :: rest => ⟨p, n, edit⟩ :: turnsFrom p (n + 1) rest

def turns (changes : List FileChange) : List Turn := changes.flatMap fun c => turnsFrom c.path 1 c.blocks

/-- The first occurrence of the search text is replaced. An empty search text occurs at the start. -/
def Replaces (edit : Edit) (t t' : Text) : Prop :=
  ∃ before after, t = before ++ edit.search ++ after ∧ t' = before ++ edit.replacement ++ after ∧
    ∀ before' after', t = before' ++ edit.search ++ after' → before.length ≤ before'.length

/-- Every search text occurs at its turn, and this is what the files hold in the end. -/
inductive Runs : (Path → Text) → List Turn → (Path → Text) → Prop where
  | nil {texts : Path → Text} : Runs texts [] texts
  | cons {texts final : Path → Text} {turn : Turn} {rest : List Turn} {t : Text}
      (here : Replaces turn.edit (texts turn.path) t) (tail : Runs (Function.update texts turn.path t) rest final) :
      Runs texts (turn :: rest) final

/-- The first turn whose search text does not occur. -/
inductive Fails : (Path → Text) → List Turn → Turn → Prop where
  | here {texts : Path → Text} {turn : Turn} {rest : List Turn} (missing : ¬ turn.edit.search <:+: texts turn.path) :
      Fails texts (turn :: rest) turn
  | later {texts : Path → Text} {turn failed : Turn} {rest : List Turn} {t : Text}
      (here : Replaces turn.edit (texts turn.path) t) (tail : Fails (Function.update texts turn.path t) rest failed) :
      Fails texts (turn :: rest) failed

/-- A text is cut at the first place where the needle stands. -/
theorem cutFirst?_some {needle before after : Text} (h : Text.cutFirst? needle t = some (before, after)) :
    t = before ++ needle ++ after ∧
      ∀ before' after', t = before' ++ needle ++ after' → before.length ≤ before'.length := by
  induction t generalizing before with
  | nil =>
    unfold Text.cutFirst? at h
    split at h
    · rename_i hp
      have hneedle : needle = [] := by simpa using hp
      cases h
      simp [hneedle]
    · cases h
  | cons c r ih =>
    unfold Text.cutFirst? at h
    split at h
    · rename_i hp
      obtain ⟨rest, hrest⟩ := List.isPrefixOf_iff_prefix.mp hp
      cases h
      refine ⟨?_, fun _ _ _ => Nat.zero_le _⟩
      rw [← hrest, List.drop_left, List.nil_append]
    · rename_i hp
      obtain ⟨⟨before₁, after₁⟩, hr, he⟩ := Option.map_eq_some_iff.mp h
      cases he
      obtain ⟨hcut, hfirst⟩ := ih hr
      refine ⟨by rw [hcut]; rfl, ?_⟩
      intro before' after' hother
      cases before' with
      | nil =>
        refine absurd ?_ hp
        rw [hother]
        simp
      | cons c' before' =>
        have htail := hfirst before' after' (List.cons.inj hother).2
        exact Nat.succ_le_succ htail

/-- A text is not cut where the needle is nowhere in it. -/
theorem cutFirst?_none {needle : Text} (h : Text.cutFirst? needle t = none) : ¬ needle <:+: t := by
  induction t with
  | nil =>
    unfold Text.cutFirst? at h
    split at h
    · cases h
    · rename_i hp
      simpa using hp
  | cons c r ih =>
    unfold Text.cutFirst? at h
    split at h
    · cases h
    · rename_i hp
      rw [List.infix_cons_iff, not_or]
      exact ⟨fun hpre => hp (List.isPrefixOf_iff_prefix.mpr hpre), ih (by simpa using h)⟩

/-- A block that can be applied is applied as the sequence has it. -/
theorem replaces_apply (h : edit.occursIn t = true) : Replaces edit t (edit.apply t) := by
  unfold Edit.occursIn Text.hasInfix at h
  obtain ⟨⟨before, after⟩, hcut⟩ := Option.isSome_iff_exists.mp h
  obtain ⟨ht, hfirst⟩ := cutFirst?_some hcut
  refine ⟨before, after, ht, ?_, hfirst⟩
  simp only [Edit.apply, Text.replaceFirst, hcut]

theorem not_infix_of_not_occursIn (h : edit.occursIn t = false) : ¬ edit.search <:+: t := by
  unfold Edit.occursIn Text.hasInfix at h
  exact cutFirst?_none (by simpa using h)

theorem Replaces.occurs (h : Replaces edit t t') : edit.search <:+: t := by
  obtain ⟨before, after, rfl, -, -⟩ := h
  exact ⟨before, after, rfl⟩

theorem Replaces.unique {t'' : Text} (h : Replaces edit t t') (h' : Replaces edit t t'') : t' = t'' := by
  obtain ⟨before, after, ht, rfl, hfirst⟩ := h
  obtain ⟨before', after', ht', rfl, hfirst'⟩ := h'
  have hlen : before.length = before'.length := Nat.le_antisymm (hfirst _ _ ht') (hfirst' _ _ ht)
  rw [ht, List.append_assoc, List.append_assoc] at ht'
  obtain ⟨rfl, hrest⟩ := List.append_inj ht' hlen
  rw [List.append_cancel_left hrest]

theorem Runs.unique {turns : List Turn} (h : Runs texts turns final) (h' : Runs texts turns final') :
    final = final' := by
  induction h with
  | nil =>
    cases h'
    rfl
  | cons here tail ih =>
    cases h' with
    | cons here' tail' =>
      rw [here.unique here'] at ih
      exact ih tail'

theorem Runs.append {xs ys : List Turn} (h : Runs texts xs texts') (h' : Runs texts' ys final) :
    Runs texts (xs ++ ys) final := by
  induction h with
  | nil => exact h'
  | cons here _ ih => exact .cons here (ih h')

theorem Fails.append {xs : List Turn} {failed : Turn} (h : Fails texts xs failed) (ys : List Turn) :
    Fails texts (xs ++ ys) failed := by
  induction h with
  | here missing => exact .here missing
  | later here _ ih => exact .later here ih

theorem Runs.append_fails {xs ys : List Turn} {failed : Turn} (h : Runs texts xs texts') (h' : Fails texts' ys failed) :
    Fails texts (xs ++ ys) failed := by
  induction h with
  | nil => exact h'
  | cons here _ ih => exact .later here (ih h')

/-- The blocks of a change are applied one after the other. -/
theorem applyBlocks_ok (h : Edit.applyBlocks n blocks (texts p) = .ok t) :
    Runs texts (turnsFrom p n blocks) (Function.update texts p t) := by
  induction blocks generalizing n texts with
  | nil =>
    rw [Edit.applyBlocks] at h
    cases h
    rw [Function.update_eq_self]
    exact .nil
  | cons edit rest ih =>
    rw [Edit.applyBlocks] at h
    split at h
    · rename_i hoccurs
      have htail : Runs (Function.update texts p (edit.apply (texts p))) (turnsFrom p (n + 1) rest)
          (Function.update (Function.update texts p (edit.apply (texts p))) p t) :=
        ih (by rw [Function.update_self]; exact h)
      rw [Function.update_idem] at htail
      exact .cons (replaces_apply hoccurs) htail
    · cases h

theorem applyBlocks_error {k : Nat} (h : Edit.applyBlocks n blocks (texts p) = .error k) :
    ∃ edit, Fails texts (turnsFrom p n blocks) ⟨p, k, edit⟩ := by
  induction blocks generalizing n texts with
  | nil => cases h
  | cons edit rest ih =>
    rw [Edit.applyBlocks] at h
    split at h
    · rename_i hoccurs
      obtain ⟨failed, htail⟩ : ∃ failed, Fails (Function.update texts p (edit.apply (texts p)))
          (turnsFrom p (n + 1) rest) ⟨p, k, failed⟩ := ih (by rw [Function.update_self]; exact h)
      exact ⟨failed, .later (replaces_apply hoccurs) htail⟩
    · rename_i hoccurs
      cases h
      exact ⟨edit, .here (not_infix_of_not_occursIn (Bool.not_eq_true _ ▸ hoccurs))⟩

theorem current_set (backups : Backups) (working : Table Path Text) (p : Path) (t : Text) :
    current backups (working.set p t) = Function.update (current backups working) p t := by
  funext q
  unfold current
  rw [Table.get?_set]
  by_cases hq : q = p
  · rw [if_pos hq, hq, Function.update_self]
  · rw [if_neg hq, Function.update_of_ne hq]

def missing (turn : Turn) : Text :=
  "Search block " ++ Text.ofNat turn.number ++ " not found in " ++ turn.path.text ++
    ". Ensure exact match including whitespace"

/-- Changes that are resolved are turns that succeed one after the other. -/
theorem resolve_ok (h : resolve backups working changes = .ok working') :
    Runs (current backups working) (turns changes) (current backups working') := by
  induction changes generalizing working with
  | nil =>
    rw [resolve] at h
    cases h
    exact .nil
  | cons change rest ih =>
    rw [resolve] at h
    split at h
    · rename_i t hb
      have htail := ih h
      rw [current_set] at htail
      exact (applyBlocks_ok hb).append htail
    · cases h

/-- Where the changes are not resolved, the first turn that fails is the one that is told. -/
theorem resolve_error {fault : Fault} (h : resolve backups working changes = .error fault) :
    ∃ turn, Fails (current backups working) (turns changes) turn ∧ fault = .early (missing turn) := by
  induction changes generalizing working with
  | nil => cases h
  | cons change rest ih =>
    rw [resolve] at h
    split at h
    · rename_i t hb
      obtain ⟨turn, hf, he⟩ := ih h
      rw [current_set] at hf
      exact ⟨turn, (applyBlocks_ok hb).append_fails hf, he⟩
    · rename_i k hb
      cases h
      obtain ⟨edit, hf⟩ := applyBlocks_error hb
      exact ⟨⟨change.path, k, edit⟩, hf.append _, rfl⟩

/-- The distinct files are written, each once. -/
theorem resolve_distinct (h : resolve backups working changes = .ok working') :
    (∀ p, p ∈ working'.keys ↔ p ∈ working.keys ∨ p ∈ changes.map (·.path)) ∧
      (working.keys.Nodup → working'.keys.Nodup) := by
  induction changes generalizing working with
  | nil =>
    rw [resolve] at h
    cases h
    simp
  | cons change rest ih =>
    rw [resolve] at h
    split at h
    · obtain ⟨hmem, hnodup⟩ := ih h
      refine ⟨fun p => ?_, fun hn => hnodup (Table.nodup_keys_set hn _ _)⟩
      rw [hmem, Table.mem_keys_set, List.map_cons, List.mem_cons, or_assoc, or_left_comm]
    · cases h

theorem resolve_length (h : resolve backups [] changes = .ok working) :
    working.length = (changes.map (·.path)).dedup.length := by
  obtain ⟨hmem, hnodup⟩ := resolve_distinct h
  have hperm : working.keys.Perm (changes.map (·.path)).dedup := by
    refine (List.perm_ext_iff_of_nodup (hnodup List.nodup_nil) (List.nodup_dedup _)).mpr fun p => ?_
    rw [hmem, List.mem_dedup]
    simp [Table.keys]
  rw [← hperm.length_eq, Table.keys, List.length_map]

def start (d : Disk) (p : Path) : Text := (d.readText p).toOption.getD []

def Readable (d : Disk) (p : Path) : Prop :=
  (∃ t, d.readText p = .ok t) ∨ ∃ q, d.readText p = .error (.system .noEntry q)

theorem Readable.snapshot (h : Readable d p) : ∃ kept, snapshot d p = .ok kept ∧ kept.getD [] = start d p := by
  unfold Transaction.snapshot start
  rcases h with ⟨t, ht⟩ | ⟨q, hq⟩
  · exact ⟨some t, by rw [ht], by rw [ht]; rfl⟩
  · exact ⟨none, by rw [hq], by rw [hq]; rfl⟩

theorem backUp_ok (h : ∀ change ∈ changes, Readable d change.path) (backups : Backups) :
    ∃ backups', backUp d backups changes = .ok backups' := by
  induction changes generalizing backups with
  | nil => exact ⟨backups, rfl⟩
  | cons change rest ih =>
    obtain ⟨hchange, hrest⟩ := List.forall_mem_cons.mp h
    rw [backUp]
    split
    · exact ih hrest backups
    · obtain ⟨kept, hs, -⟩ := hchange.snapshot
      rw [hs]
      exact ih hrest _

/-- The sequence starts from what the backups hold. -/
theorem current_start (h : ∀ change ∈ changes, Readable d change.path) (hb : backUp d [] changes = .ok backups) :
    ∀ p ∈ changes.map (·.path), current backups [] p = start d p := by
  intro p hp
  obtain ⟨change, hc, rfl⟩ := List.mem_map.mp hp
  obtain ⟨kept, hk⟩ := Option.isSome_iff_exists.mp (backUp_covers hb change hc)
  have hs := backUp_faithful (fun p kept hp => by cases hp) hb _ _ hk
  obtain ⟨kept', hs', he⟩ := (h change hc).snapshot
  rw [hs] at hs'
  cases hs'
  simp only [current, Table.get?, hk, Option.join_some, he]

theorem turnsFrom_path {turn : Turn} (h : turn ∈ turnsFrom p n blocks) : turn.path = p := by
  induction blocks generalizing n with
  | nil => cases h
  | cons edit rest ih =>
    rcases List.mem_cons.mp h with rfl | h
    · rfl
    · exact ih h

theorem turns_path {turn : Turn} (h : turn ∈ turns changes) : turn.path ∈ changes.map (·.path) := by
  obtain ⟨change, hc, hm⟩ := List.mem_flatMap.mp h
  rw [turnsFrom_path hm]
  exact List.mem_map_of_mem hc

section Agreeing

variable {S : List Path} {xs : List Turn}

theorem update_agrees (hs : ∀ p ∈ S, texts p = texts' p) (q : Path) (t : Text) :
    ∀ p ∈ S, Function.update texts q t p = Function.update texts' q t p := by
  intro p hp
  by_cases hq : p = q
  · rw [hq, Function.update_self, Function.update_self]
  · rw [Function.update_of_ne hq, Function.update_of_ne hq]
    exact hs p hp

/-- A sequence asks for the texts of its files only. -/
theorem Runs.agree (h : Runs texts xs final) (hs : ∀ p ∈ S, texts p = texts' p) (hx : ∀ turn ∈ xs, turn.path ∈ S) :
    ∃ final', Runs texts' xs final' ∧ ∀ p ∈ S, final p = final' p := by
  induction h generalizing texts' with
  | nil => exact ⟨texts', .nil, hs⟩
  | cons here tail ih =>
    obtain ⟨hturn, hrest⟩ := List.forall_mem_cons.mp hx
    obtain ⟨final', hfinal, he⟩ := ih (update_agrees hs _ _) hrest
    rw [hs _ hturn] at here
    exact ⟨final', .cons here hfinal, he⟩

theorem Fails.agree {failed : Turn} (h : Fails texts xs failed) (hs : ∀ p ∈ S, texts p = texts' p)
    (hx : ∀ turn ∈ xs, turn.path ∈ S) : Fails texts' xs failed := by
  induction h generalizing texts' with
  | here missing =>
    rw [hs _ (hx _ List.mem_cons_self)] at missing
    exact .here missing
  | later here tail ih =>
    obtain ⟨hturn, hrest⟩ := List.forall_mem_cons.mp hx
    rw [hs _ hturn] at here
    exact .later here (ih (update_agrees hs _ _) hrest)

end Agreeing

/-- Written alone, a file is opened at a place: the directories above it can be made, and then it can be
opened. -/
def Opened (d : Disk) (p : Path) (x : Place) : Prop :=
  ∃ d₁ d₂, d.ensureDirectories p.parent = (d₁, .ok ()) ∧ d₁.openForWriting p = .ok (x, d₂)

theorem Opened.unique (h : Opened d p x) (h' : Opened d p y) : x = y := by
  obtain ⟨d₁, d₂, hd, ho⟩ := h
  obtain ⟨d₁', d₂', hd', ho'⟩ := h'
  rw [hd] at hd'
  cases hd'
  rw [ho] at ho'
  cases ho'
  rfl

def above (d : Disk) (p : Path) : Disk := (d.ensureDirectories p.parent).1

/-- Before a transaction: every target is a text or absent and can be written, distinct targets stand at distinct
places, and none stands where a directory is made for another. -/
structure Ready (d : Disk) (changes : List FileChange) : Prop where
  readable : ∀ change ∈ changes, Readable d change.path
  writable : ∀ change ∈ changes, ∃ x, Opened d change.path x
  distinct : ∀ a ∈ changes, ∀ b ∈ changes, ∀ x, Opened d a.path x → Opened d b.path x → a.path = b.path
  apart : ∀ a ∈ changes, ∀ b ∈ changes, ∀ x, Opened d a.path x → (above d b.path).lookup? x ≠ some .directory

theorem Opened.cases (h : Opened d p x) :
    d.ensureDirectories p.parent = (above d p, .ok ()) ∧ (above d p).locate true p = .ok x ∧
      (above d p).lookup? x ≠ some .directory := by
  obtain ⟨d₁, d₂, hd, ho⟩ := h
  have habove : above d p = d₁ := congrArg Prod.fst hd
  obtain ⟨hl, hfree, -⟩ := openForWriting_iff.mp ho
  rw [habove]
  exact ⟨hd, hl, hfree⟩

theorem Opened.fills (h : Opened d p x) : Fills (above d p) d (above d p) := ensureDirectories_fills h.cases.1

/-- While the files are written: what the disk held is there, the files that are `done` are written, and besides
them only directories of targets were made. -/
structure Stage (d : Disk) (targets : List Path) (done : Table Path Text) (e : Disk) : Prop where
  more : Extends d e
  led : ∀ q ∈ done.keys, Extends (above d q) e
  written : ∀ entry ∈ done, ∃ x bytes, Opened d entry.1 x ∧ Utf8.encode entry.2 = .ok bytes ∧
    e.lookup? x = some (.file bytes)
  outside : ∀ y, e.lookup? y = d.lookup? y ∨ (∃ q ∈ done.keys, Opened d q y) ∨
    d.lookup? y = none ∧ e.lookup? y = some .directory ∧
      ∃ q ∈ targets, (above d q).lookup? y = some .directory

theorem Stage.nil (d : Disk) (targets : List Path) : Stage d targets [] d where
  more := Extends.refl d
  led := nofun
  written := nofun
  outside _ := Or.inl rfl

section Writing

variable {targets : List Path} {done rest : Table Path Text} {bytes : Bytes}

/-- Where a target stands, apart from the others. -/
structure Alone (d : Disk) (targets : List Path) (done : Table Path Text) (p : Path) (x : Place) : Prop where
  opened : Opened d p x
  target : p ∈ targets
  noDirectory : ∀ q ∈ targets, (above d q).lookup? x ≠ some .directory
  noTarget : ∀ q ∈ done.keys, ∀ y, Opened d q y → y ≠ x ∧ (above d p).lookup? y ≠ some .directory

/-- The directories above a target can still be made. -/
theorem Stage.room (h : Stage d targets done e) (ha : Alone d targets done p x) : Room (above d p) e := by
  intro y hy
  rcases ha.opened.fills.spread y with he | ⟨hn, -, -⟩
  · exact Or.inr (h.more.directory y (he ▸ hy))
  · rcases h.outside y with he | ⟨q, hq, ho⟩ | ⟨-, hd, -⟩
    · exact Or.inl (he.trans hn)
    · exact absurd hy (ha.noTarget q hq y ho).2
    · exact Or.inr hd

/-- No directory has come where a target is to be. -/
theorem Stage.free (h : Stage d targets done e) (ha : Alone d targets done p x) :
    e.lookup? x ≠ some .directory := by
  intro hd
  rcases h.outside x with he | ⟨q, hq, ho⟩ | ⟨-, -, q, hq, habove⟩
  · rw [he] at hd
    exact ha.opened.cases.2.2 (ha.opened.fills.extends.directory x hd)
  · exact (ha.noTarget q hq x ho).1 rfl
  · exact ha.noDirectory q hq habove

/-- With no refusal ahead a file is written as the disk has it. -/
theorem writeFile_unrefused {d₁ d' : Disk} (made : d.ensureDirectories p.parent = (d₁, .ok ()))
    (written : d₁.writeText p t = (d', .ok ())) : writeFile ⟨d, []⟩ p t = (⟨d', []⟩, .ok ()) := by
  have hvolume : (⟨d, []⟩ : Volume).ensureDirectories p.parent = (⟨d₁, []⟩, .ok ()) := by
    simp only [Volume.ensureDirectories, Volume.next, List.head?_nil, Option.join_none, List.tail_nil, made]
  have hwrite : (⟨d₁, []⟩ : Volume).writeText p t = (⟨d', []⟩, .ok ()) := by
    simp only [Volume.writeText, Volume.next, List.head?_nil, Option.join_none, List.tail_nil, written]
  simp only [writeFile, hvolume, hwrite]

/-- A text is written, and what was written before it stays. -/
theorem Stage.write (h : Stage d targets done e) (ha : Alone d targets done p x) (ht : Utf8.encode t = .ok bytes) :
    ∃ e', writeFile ⟨e, []⟩ p t = (⟨e', []⟩, .ok ()) ∧ Stage d targets (done ++ [(p, t)]) e' := by
  obtain ⟨hmade, hlocate, hfree⟩ := ha.opened.cases
  obtain ⟨e₁, hmade', hmore, hfills⟩ := ensureDirectories_extends h.more hmade (h.room ha)
  have hlocate' := locate_extends hmore hlocate
  have hfree' : e₁.lookup? x ≠ some .directory := by
    rcases hfills.spread x with he | ⟨-, -, hd⟩
    · rw [he]
      exact h.free ha
    · exact absurd hd hfree
  obtain ⟨e', hwritten, hput, hself, hother⟩ := writeText_located hlocate' hfree' ht
  refine ⟨e', ?_, ?_⟩
  · exact writeFile_unrefused hmade' hwritten
  · have hkeys : (done ++ [(p, t)]).keys = done.keys ++ [p] := by simp [Table.keys]
    refine ⟨h.more.trans (hfills.extends.trans hput), ?_, ?_, ?_⟩
    · intro q hq
      rw [hkeys, List.mem_append, List.mem_singleton] at hq
      rcases hq with hq | rfl
      · exact (h.led q hq).trans (hfills.extends.trans hput)
      · exact hmore.trans hput
    · intro entry hentry
      rcases List.mem_append.mp hentry with hentry | hentry
      · obtain ⟨y, bytes', ho, hb, hy⟩ := h.written entry hentry
        have hne := (ha.noTarget entry.1 (List.mem_map_of_mem hentry) y ho).1
        refine ⟨y, bytes', ho, hb, ?_⟩
        rw [hother y hne]
        rcases hfills.spread y with he | ⟨hn, -, -⟩
        · rw [he, hy]
        · rw [hy] at hn
          cases hn
      · rw [List.mem_singleton.mp hentry]
        exact ⟨x, bytes, ha.opened, ht, hself⟩
    · intro y
      rw [hkeys]
      by_cases hy : y = x
      · exact Or.inr (Or.inl ⟨p, by simp, hy ▸ ha.opened⟩)
      · rw [hother y hy]
        rcases hfills.spread y with he | ⟨hn, hd, habove⟩
        · rw [he]
          refine (h.outside y).imp_right (Or.imp_left ?_)
          rintro ⟨q, hq, ho⟩
          exact ⟨q, List.mem_append_left _ hq, ho⟩
        · exact Or.inr (Or.inr ⟨h.more.none hn, hd, p, ha.target, habove⟩)

/-- All texts are written, one after the other. -/
theorem Stage.writeAll (hready : Ready d changes) (h : Stage d (changes.map (·.path)) done e)
    (hnodup : (done ++ rest).keys.Nodup) (htargets : ∀ p ∈ (done ++ rest).keys, p ∈ changes.map (·.path))
    (hencode : ∀ entry ∈ rest, ∃ bytes, Utf8.encode entry.2 = .ok bytes) (named : List Path) :
    ∃ e', writeAll named rest ⟨e, []⟩ = (⟨e', []⟩, .ok ()) ∧ Stage d (changes.map (·.path)) (done ++ rest) e' := by
  induction rest generalizing done e named with
  | nil => exact ⟨e, rfl, by rwa [List.append_nil]⟩
  | cons entry rest ih =>
    obtain ⟨p, t⟩ := entry
    obtain ⟨⟨bytes, ht⟩, hrest⟩ := List.forall_mem_cons.mp hencode
    have hlist : done ++ (p, t) :: rest = done ++ [(p, t)] ++ rest := by simp
    have hp : p ∈ (done ++ (p, t) :: rest).keys := by simp [Table.keys]
    obtain ⟨change, hchange, rfl⟩ := List.mem_map.mp (htargets p hp)
    obtain ⟨x, hx⟩ := hready.writable change hchange
    have hsplit : (done ++ (change.path, t) :: rest).keys = done.keys ++ change.path :: Table.keys rest := by
      simp [Table.keys]
    have halone : Alone d (changes.map (·.path)) done change.path x := by
      refine ⟨hx, htargets _ hp, ?_, ?_⟩
      · intro q hq
        obtain ⟨other, hother, rfl⟩ := List.mem_map.mp hq
        exact hready.apart change hchange other hother x hx
      · intro q hq y hy
        obtain ⟨other, hother, rfl⟩ := List.mem_map.mp (htargets q (by rw [hsplit]; exact List.mem_append_left _ hq))
        refine ⟨?_, hready.apart other hother change hchange y hy⟩
        rintro rfl
        rw [hready.distinct other hother change hchange y hy hx] at hq
        rw [hsplit] at hnodup
        exact (List.nodup_append.mp hnodup).2.2 _ hq _ List.mem_cons_self rfl
    obtain ⟨e₁, hwrite, hstage⟩ := h.write halone ht
    rw [hlist] at hnodup htargets ⊢
    obtain ⟨e', hall, hstage'⟩ := ih hstage hnodup htargets hrest (named ++ [change.path])
    refine ⟨e', ?_, hstage'⟩
    rw [Transaction.writeAll, hwrite]
    exact hall

end Writing

section Encodable
open Utf8

/-- Line ends in one form have no other letters than the text. -/
theorem mem_normalizeNewlines {c : CodePoint} (h : c ∈ Text.normalizeNewlines t) : c = Text.newline ∨ c ∈ t := by
  induction t using Text.normalizeNewlines.induct with
  | case1 => cases h
  | case2 a =>
    rw [Text.normalizeNewlines, List.mem_singleton] at h
    split at h
    · exact Or.inl h
    · exact Or.inr (List.mem_singleton.mpr h)
  | case3 r ih =>
    rw [Text.normalizeNewlines, if_pos rfl, if_pos rfl, List.mem_cons] at h
    rcases h with h | h
    · exact Or.inl h
    · exact (ih h).imp_right fun hm => List.mem_cons_of_mem _ (List.mem_cons_of_mem _ hm)
  | case4 b r hb ih =>
    rw [Text.normalizeNewlines, if_pos rfl, if_neg hb, List.mem_cons] at h
    rcases h with h | h
    · exact Or.inl h
    · exact (ih h).imp_right (List.mem_cons_of_mem _)
  | case5 a b r ha ih =>
    rw [Text.normalizeNewlines, if_neg ha, List.mem_cons] at h
    rcases h with h | h
    · exact Or.inr (h ▸ List.mem_cons_self)
    · exact (ih h).imp_right (List.mem_cons_of_mem _)

theorem normalizeNewlines_encodable (h : Encodable t) : Encodable (Text.normalizeNewlines t) := by
  intro c hc
  rcases mem_normalizeNewlines hc with rfl | hc
  · decide
  · exact h c hc

/-- What was read can be written. -/
theorem start_encodable (d : Disk) (p : Path) : Encodable (start d p) := by
  unfold start readText
  cases d.readBytes p with
  | error fault => nofun
  | ok bytes =>
    dsimp only
    cases hd : decode bytes with
    | error fault => nofun
    | ok t => exact normalizeNewlines_encodable (decode_ok hd).2

theorem Replaces.encodable (h : Replaces edit t t') (ht : Encodable t) (he : Encodable edit.replacement) :
    Encodable t' := by
  obtain ⟨before, after, rfl, rfl, -⟩ := h
  intro c hc
  simp only [List.mem_append] at hc
  rcases hc with (hc | hc) | hc
  · exact ht c (by simp [hc])
  · exact he c hc
  · exact ht c (by simp [hc])

/-- If all replacements can be written, so can everything that comes of them. -/
theorem Runs.encodable {xs : List Turn} (h : Runs texts xs final) (ht : ∀ p, Encodable (texts p))
    (hx : ∀ turn ∈ xs, Encodable turn.edit.replacement) : ∀ p, Encodable (final p) := by
  induction h with
  | nil => exact ht
  | @cons texts final turn rest t here tail ih =>
    obtain ⟨hturn, hrest⟩ := List.forall_mem_cons.mp hx
    refine ih (fun p => ?_) hrest
    by_cases hp : p = turn.path
    · rw [hp, Function.update_self]
      exact here.encodable (ht _) hturn
    · rw [Function.update_of_ne hp]
      exact ht p

end Encodable

/-- What a transaction leaves that was made: every target holds its text, and elsewhere only directories came. -/
structure Applied (d : Disk) (changes : List FileChange) (texts : Path → Text) (d' : Disk) : Prop where
  holds : ∀ change ∈ changes, ∃ bytes, Utf8.encode (texts change.path) = .ok bytes ∧
    d'.stat change.path = .ok (.file bytes)
  untouched : ∀ y, (∀ change ∈ changes, ¬ Opened d change.path y) →
    d'.lookup? y = d.lookup? y ∨ d.lookup? y = none ∧ d'.lookup? y = some .directory

/-- A file that was written is found where its path leads. -/
theorem Stage.stat {targets : List Path} {done : Table Path Text} (h : Stage d targets done e)
    (hentry : (p, t) ∈ done) : ∃ bytes, Utf8.encode t = .ok bytes ∧ e.stat p = .ok (.file bytes) := by
  obtain ⟨x, bytes, ho, hb, hx⟩ := h.written _ hentry
  refine ⟨bytes, hb, ?_⟩
  have hl := locate_extends (h.led p (List.mem_map_of_mem hentry)) ho.cases.2.1
  simp only [Disk.stat, hl, hx]

/-- Changes that are resolved and can be encoded are all written. -/
theorem apply_resolved (ready : Ready d changes) (hb : backUp d [] changes = .ok backups)
    (hr : resolve backups [] changes = .ok working)
    (hencode : ∀ entry ∈ working, ∃ bytes, Utf8.encode entry.2 = .ok bytes) :
    ∃ d', apply d changes = (d', .ok working.length) ∧ Applied d changes (current backups working) d' := by
  obtain ⟨hkeys, hnodup⟩ := resolve_distinct hr
  have hmem : ∀ p, p ∈ working.keys ↔ p ∈ changes.map (·.path) := fun p => by rw [hkeys p]; simp [Table.keys]
  obtain ⟨d', hwrite, hstage⟩ : ∃ d', writeAll [] working ⟨d, []⟩ = (⟨d', []⟩, .ok ()) ∧
      Stage d (changes.map (·.path)) ([] ++ working) d' :=
    (Stage.nil d _).writeAll ready (hnodup List.nodup_nil) (fun p => (hmem p).mp) hencode []
  refine ⟨d', by simp only [apply, applyOn, hb, hr, hwrite], ⟨fun change hc => ?_, fun y hy => ?_⟩⟩
  · have hkey := (hmem change.path).mpr (List.mem_map_of_mem hc)
    cases ht : working.get? change.path with
    | none => exact absurd ht (Table.mem_keys_iff.mp hkey)
    | some t =>
      have htext : current backups working change.path = t := by simp only [current, ht]
      rw [htext]
      exact hstage.stat (Table.mem_of_get? ht)
  · rcases hstage.outside y with he | ⟨q, hq, ho⟩ | ⟨hn, hd, -⟩
    · exact Or.inl he
    · obtain ⟨change, hc, rfl⟩ := List.mem_map.mp ((hmem q).mp hq)
      exact absurd ho (hy change hc)
    · exact Or.inr ⟨hn, hd⟩

/-- A transaction does what its blocks do one after the other: if every search text occurs at its turn, every
target holds what the sequence has made of it and the distinct targets are counted; else the first block that
fails is named, and the disk is as it was. -/
theorem apply_sequential (ready : Ready d changes)
    (encodable : ∀ texts, Runs (start d) (turns changes) texts → ∀ change ∈ changes,
        Utf8.Encodable (texts change.path)) :
    (∃ texts d', Runs (start d) (turns changes) texts ∧
      apply d changes = (d', .ok (changes.map (·.path)).dedup.length) ∧ Applied d changes texts d') ∨
    ∃ turn, Fails (start d) (turns changes) turn ∧ apply d changes = (d, .error (.early (missing turn))) := by
  obtain ⟨backups, hb⟩ := backUp_ok ready.readable []
  have hstart := current_start ready.readable hb
  have hturns : ∀ turn ∈ turns changes, turn.path ∈ changes.map (·.path) := fun turn => turns_path
  cases hr : resolve backups [] changes with
  | error fault =>
    obtain ⟨turn, hfails, rfl⟩ := resolve_error hr
    exact Or.inr ⟨turn, hfails.agree hstart hturns, by simp only [apply, applyOn, hb, hr]⟩
  | ok working =>
    obtain ⟨texts, hruns, hsame⟩ := (resolve_ok hr).agree hstart hturns
    have hencode : ∀ entry ∈ working, ∃ bytes, Utf8.encode entry.2 = .ok bytes := by
      rintro ⟨p, t⟩ hentry
      obtain ⟨hkeys, hnodup⟩ := resolve_distinct hr
      have hp : p ∈ changes.map (·.path) :=
        ((hkeys p).mp (List.mem_map_of_mem hentry)).resolve_left (by simp [Table.keys])
      have htext : texts p = t := by
        rw [← hsame p hp, current, Table.get?_of_mem (hnodup List.nodup_nil) hentry]
      obtain ⟨change, hc, rfl⟩ := List.mem_map.mp hp
      exact (encode_ok_iff t).mpr (htext ▸ encodable texts hruns change hc)
    obtain ⟨d', happly, hd'⟩ := apply_resolved ready hb hr hencode
    refine Or.inl ⟨texts, d', hruns, by rw [happly, resolve_length hr], ⟨fun change hc => ?_, hd'.untouched⟩⟩
    rw [← hsame change.path (List.mem_map_of_mem hc)]
    exact hd'.holds change hc

def oneText : Disk := ⟨[(["a"], .file [120])]⟩

def threeChanges : List FileChange :=
  [⟨topLevel "a", [⟨"x", "y"⟩]⟩, ⟨topLevel "b", [⟨"", "z"⟩]⟩, ⟨topLevel "a", [⟨"y", "w"⟩]⟩]

/-- Nothing stands in the way of the three changes. -/
theorem three_changes_ready : Ready oneText threeChanges := by
  have hpaths : ∀ change ∈ threeChanges, change.path = topLevel "a" ∨ change.path = topLevel "b" := by
    simp [threeChanges]
  have ha : Opened oneText (topLevel "a") ["a"] := ⟨_, _, by cbv, by cbv⟩
  have hb : Opened oneText (topLevel "b") ["b"] := ⟨_, _, by cbv, by cbv⟩
  have habove : ∀ change ∈ threeChanges, above oneText change.path = oneText := by
    intro change hc
    rcases hpaths change hc with he | he <;> rw [he] <;> cbv
  refine ⟨fun change hc => ?_, fun change hc => ?_, fun a hac b hbc x hxa hxb => ?_, fun a hac b hbc x hx => ?_⟩
  · rcases hpaths change hc with he | he <;> rw [he]
    · exact Or.inl ⟨"x", by cbv⟩
    · exact Or.inr ⟨topLevel "b", by cbv⟩
  · rcases hpaths change hc with he | he <;> rw [he]
    · exact ⟨_, ha⟩
    · exact ⟨_, hb⟩
  · rcases hpaths a hac with he | he <;> rcases hpaths b hbc with he' | he' <;> rw [he] at hxa ⊢ <;>
      rw [he'] at hxb ⊢
    · exact absurd ((ha.unique hxa).trans (hxb.unique hb)) (by decide)
    · exact absurd ((hb.unique hxa).trans (hxb.unique ha)) (by decide)
  · rw [habove b hbc]
    rcases hpaths a hac with he | he <;> rw [he] at hx
    · rw [← ha.unique hx]
      decide
    · rw [← hb.unique hx]
      decide

theorem three_changes_made :
    ∃ texts d', Runs (start oneText) (turns threeChanges) texts ∧ apply oneText threeChanges = (d', .ok 2) ∧
      Applied oneText threeChanges texts d' := by
  have hturns : ∀ turn ∈ turns threeChanges, Utf8.Encodable turn.edit.replacement := by
    unfold Utf8.Encodable
    decide
  have happly : (apply oneText threeChanges).2 = .ok 2 := by cbv
  rcases apply_sequential three_changes_ready
    (fun texts hruns change _ => hruns.encodable (start_encodable oneText) hturns change.path) with h | ⟨turn, -, he⟩
  · exact h
  · rw [he] at happly
    cases happly

end CodeAgent.Transaction
