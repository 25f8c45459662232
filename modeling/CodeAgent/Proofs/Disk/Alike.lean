import CodeAgent.Proofs.Disk.Outside
import CodeAgent.Disk.Volume

namespace CodeAgent.Disk

/-- What an operation leaves on a disk with own directories and on the disk without them: the same outside, and the
same answer. -/
inductive Alike (home : Path) {α : Type} : Disk × α → Disk × α → Prop
  | mk {d : Disk} (reserved : d.Reserved home) (a : α) : Alike home (d, a) (d.outside, a)

/-- The same of an operation that leaves the disk as it was when it fails. -/
inductive AlikeOr (home : Path) {ε : Type} : Except ε Disk → Except ε Disk → Prop
  | ok {d : Disk} (reserved : d.Reserved home) : AlikeOr home (.ok d) (.ok d.outside)
  | error (fault : ε) : AlikeOr home (.error fault) (.error fault)

variable {d : Disk} {home p : Path} {x : Place} {e : Entry} {names : List Text} {t : Text}

theorem put_outside (hx : Outside x) (d : Disk) (e : Entry) : d.outside.put x e = (d.put x e).outside := by
  have hset := Table.filter_set (fun y => decide (Outside y)) d.entries x e
  rw [if_pos (decide_eq_true hx)] at hset
  exact congrArg Disk.mk hset.symm

/-- What is put into an own directory, or as one, is not seen outside. -/
theorem outside_put_own (hx : ¬ Outside x) (d : Disk) (e : Entry) : (d.put x e).outside = d.outside := by
  have hset := Table.filter_set (fun y => decide (Outside y)) d.entries x e
  rw [if_neg (by simpa using hx)] at hset
  exact congrArg Disk.mk hset

theorem erase_outside (d : Disk) (x : Place) : d.outside.erase x = (d.erase x).outside := by
  simp only [erase, Table.erase, outside, List.filter_filter, Bool.and_comm]

/-- An entry may be put where it is no link and takes no directory of the program's own away. -/
theorem Reserved.put (h : d.Reserved home) (hlink : ∀ target, e ≠ .link target)
    (hdirectory : d.lookup? x = some .directory → e = .directory) (hown : ∀ y, x = y ++ [ownName] → e = .directory) :
    (d.put x e).Reserved home where
  distinct := Table.nodup_keys_set h.distinct x e
  own y e' hm := by
    rcases Table.mem_set hm with hm | he
    · exact h.own y e' hm
    · obtain ⟨rfl, rfl⟩ := Prod.mk.inj he
      exact hown y rfl
  links y target hm := by
    rcases Table.mem_set hm with hm | he
    · exact h.links y target hm
    · exact absurd (Prod.mk.inj he).2.symm (hlink target)
  home y hy := by
    by_cases hroot : y = []
    · rw [hroot]
      rfl
    by_cases hyx : y = x
    · subst hyx
      rw [lookup?_put_self d hroot, hdirectory (h.home y hy)]
    · rw [lookup?_put_of_ne d hyx]
      exact h.home y hy

theorem Reserved.erase (h : d.Reserved home) (hx : d.lookup? x ≠ some .directory) : (d.erase x).Reserved home where
  distinct := h.distinct.sublist (List.filter_sublist.map Prod.fst)
  own y e hm := h.own y e (Table.mem_of_mem_erase hm)
  links y target hm := h.links y target (Table.mem_of_mem_erase hm)
  home y hy := by
    have hyx : y ≠ x := by
      rintro rfl
      exact hx (h.home y hy)
    rw [lookup?_erase_of_ne d hyx]
    exact h.home y hy

theorem Outside.not_own (hx : Outside x) (y : Place) : x ≠ y ++ [ownName] := by
  rintro rfl
  exact hx (List.mem_append_right _ List.mem_cons_self)

theorem Reserved.put_file (h : d.Reserved home) (hx : Outside x) (hfree : d.lookup? x ≠ some .directory)
    (bytes : Bytes) : (d.put x (.file bytes)).Reserved home :=
  h.put nofun (fun hd => absurd hd hfree) fun y he => absurd he (hx.not_own y)

theorem free_put_file (hfree : d.lookup? x ≠ some .directory) (bytes : Bytes) :
    (d.put x (.file bytes)).lookup? x ≠ some .directory := by
  have hroot : x ≠ [] := by
    rintro rfl
    exact hfree rfl
  rw [lookup?_put_self d hroot]
  nofun

section
variable (h : d.Reserved home) (hp : Outside p.parts)
include h hp

theorem makeDirectory_alike : AlikeOr home (d.makeDirectory p) (d.outside.makeDirectory p) := by
  rw [makeDirectory, makeDirectory, locate_outside h hp]
  cases hl : d.locate false p with
  | error fault => exact .error fault
  | ok x =>
    have hx := locate_ok_outside h hp hl
    dsimp only
    rw [lookup?_outside hx]
    cases d.lookup? x with
    | some e => exact .error _
    | none =>
      dsimp only
      rw [put_outside hx]
      exact .ok (h.put (fun target he => by cases he) (fun _ => rfl) fun _ _ => rfl)

theorem ensureDirectory_alike : AlikeOr home (d.ensureDirectory p) (d.outside.ensureDirectory p) := by
  have hmade := makeDirectory_alike h hp
  rw [ensureDirectory, ensureDirectory, isDirectory_outside h hp]
  generalize d.makeDirectory p = r, d.outside.makeDirectory p = r' at hmade ⊢
  cases hmade with
  | ok reserved => exact .ok reserved
  | error fault =>
    dsimp only
    split
    · rcases d.isDirectory p with fault' | _ | _
      · exact .error fault'
      · exact .error fault
      · exact .ok h
    · exact .error fault

end

/-- Directories are made alike with and without the own directories. -/
theorem ensureBelow_alike (h : d.Reserved home) (root : Text) (hn : Outside names) :
    Alike home (ensureBelow root names d) (ensureBelow root names d.outside) := by
  induction names with
  | nil =>
    have hmade := ensureDirectory_alike (p := ⟨root, []⟩) h Outside.nil
    rw [ensureBelow, ensureBelow]
    generalize d.ensureDirectory ⟨root, []⟩ = r, d.outside.ensureDirectory ⟨root, []⟩ = r' at hmade ⊢
    cases hmade with
    | ok reserved => exact .mk reserved _
    | error fault => exact .mk h _
  | cons name outer ih =>
    have hp : Outside (⟨root, (name :: outer).reverse⟩ : Path).parts := fun hm => hn (List.mem_reverse.mp hm)
    have hmade := makeDirectory_alike h hp
    have houter := ih (outside_cons.mp hn).2
    rw [ensureBelow, ensureBelow, isDirectory_outside h hp]
    generalize d.makeDirectory ⟨root, (name :: outer).reverse⟩ = r,
      d.outside.makeDirectory ⟨root, (name :: outer).reverse⟩ = r' at hmade ⊢
    cases hmade with
    | ok reserved => exact .mk reserved _
    | error fault =>
      split
      · rename_i he
        cases he
      · rename_i q he
        cases he
        generalize ensureBelow root outer d = r, ensureBelow root outer d.outside = r' at houter ⊢
        obtain @⟨d₁, reserved, result⟩ := houter
        cases result with
        | error fault => exact .mk reserved _
        | ok _ =>
          have hlast := ensureDirectory_alike reserved hp
          dsimp only
          generalize d₁.ensureDirectory ⟨root, (name :: outer).reverse⟩ = r,
            d₁.outside.ensureDirectory ⟨root, (name :: outer).reverse⟩ = r' at hlast ⊢
          cases hlast with
          | ok reserved => exact .mk reserved _
          | error fault => exact .mk reserved _
      · rename_i he
        cases he
        split
        · rcases d.isDirectory ⟨root, (name :: outer).reverse⟩ with fault' | _ | _
          · exact .mk h _
          · exact .mk h _
          · exact .mk h _
        · exact .mk h _

section
variable (h : d.Reserved home) (hp : Outside p.parts)
include h hp

theorem ensureDirectories_alike : Alike home (d.ensureDirectories p) (d.outside.ensureDirectories p) :=
  ensureBelow_alike h p.root fun hm => hp (List.mem_reverse.mp hm)

/-- A file that is opened stands outside, and can be written over. -/
theorem openForWriting_outside : (∃ fault, d.openForWriting p = .error fault ∧
      d.outside.openForWriting p = .error fault) ∨
    ∃ x, Outside x ∧ d.lookup? x ≠ some .directory ∧ d.openForWriting p = .ok (x, d.put x (.file [])) ∧
      d.outside.openForWriting p = .ok (x, (d.put x (.file [])).outside) := by
  rw [openForWriting, openForWriting, locate_outside h hp]
  cases hl : d.locate true p with
  | error fault => exact Or.inl ⟨fault, rfl, rfl⟩
  | ok x =>
    have hx := locate_ok_outside h hp hl
    dsimp only
    rw [lookup?_outside hx, put_outside hx]
    split
    · exact Or.inl ⟨_, rfl, rfl⟩
    · rename_i hfree
      exact Or.inr ⟨x, hx, hfree, rfl, rfl⟩

theorem writeBytes_alike (bytes : Bytes) : AlikeOr home (d.writeBytes p bytes) (d.outside.writeBytes p bytes) := by
  rw [writeBytes, writeBytes]
  rcases openForWriting_outside h hp with ⟨fault, hopen, hopen'⟩ | ⟨x, hx, hfree, hopen, hopen'⟩
  · rw [hopen, hopen']
    exact .error fault
  · rw [hopen, hopen']
    dsimp only
    rw [put_outside hx]
    exact .ok ((h.put_file hx hfree []).put_file hx (free_put_file hfree []) bytes)

theorem writeText_alike (t : Text) : Alike home (d.writeText p t) (d.outside.writeText p t) := by
  rw [writeText, writeText]
  rcases openForWriting_outside h hp with ⟨fault, hopen, hopen'⟩ | ⟨x, hx, hfree, hopen, hopen'⟩
  · rw [hopen, hopen']
    exact .mk h _
  · rw [hopen, hopen']
    have hreserved := h.put_file hx hfree []
    cases Utf8.encode t with
    | error fault => exact .mk hreserved _
    | ok bytes =>
      dsimp only
      rw [put_outside hx]
      exact .mk (hreserved.put_file hx (free_put_file hfree []) bytes) _

theorem remove_alike : AlikeOr home (d.remove p) (d.outside.remove p) := by
  rw [remove, remove, locate_outside h hp]
  cases hl : d.locate false p with
  | error fault => exact .error fault
  | ok x =>
    dsimp only
    rw [lookup?_outside (locate_ok_outside h hp hl), erase_outside]
    cases he : d.lookup? x with
    | none => exact .error _
    | some e =>
      cases e with
      | directory => exact .error _
      | file bytes => exact .ok (h.erase (by simp [he]))
      | link target => exact .ok (h.erase (by simp [he]))

theorem removeIfPresent_alike : AlikeOr home (d.removeIfPresent p) (d.outside.removeIfPresent p) := by
  have hremoved := remove_alike h hp
  rw [removeIfPresent, removeIfPresent]
  generalize d.remove p = r, d.outside.remove p = r' at hremoved ⊢
  cases hremoved with
  | ok reserved => exact .ok reserved
  | error fault =>
    split
    · rename_i q he
      cases he
      exact .ok h
    · rename_i hother
      exact .error fault

end

end CodeAgent.Disk
