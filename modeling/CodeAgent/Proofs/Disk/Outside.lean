import CodeAgent.Proofs.Disk.Change
import CodeAgent.Proofs.Disk.Extend
import CodeAgent.Proofs.Disk.Name
import Mathlib.Data.List.Perm.Subperm

namespace CodeAgent.Disk

def ownName : Text := ".codewright"

def Outside (names : List Text) : Prop := ownName ∉ names

instance (names : List Text) : Decidable (Outside names) := inferInstanceAs (Decidable (ownName ∉ names))

def outside (d : Disk) : Disk := ⟨d.entries.filter fun entry => Outside entry.1⟩

variable {d : Disk} {home p q : Path} {x at_ : Place} {names rest : List Text} {name : Text} {e : Entry}
variable {follow : Bool} {n m : Nat}

theorem Outside.nil : Outside [] := List.not_mem_nil

theorem outside_append : Outside (names ++ rest) ↔ Outside names ∧ Outside rest := by
  simp [Outside]

theorem outside_cons : Outside (name :: rest) ↔ name ≠ ownName ∧ Outside rest := by
  rw [Outside, List.mem_cons, not_or, ne_comm]
  rfl

theorem Outside.up (h : Outside x) : Outside x.dropLast := fun hm => h (List.dropLast_subset x hm)

theorem Outside.child (h : Outside x) (hn : name ≠ ownName) : Outside (x ++ [name]) :=
  outside_append.mpr ⟨h, outside_cons.mpr ⟨hn, Outside.nil⟩⟩

theorem Outside.start (h : Outside x) (b : Bool) : Outside (if b then [] else x) := by
  split
  · exact Outside.nil
  · exact h

/-- What is the program's own is only in directories of its name, and only the program knows its way there: no link
stands in them or leads into them. -/
structure Reserved (d : Disk) (home : Path) : Prop where
  distinct : (Table.keys d.entries).Nodup
  own : ∀ x e, (x ++ [ownName], e) ∈ d.entries → e = .directory
  links : ∀ x target, (x, .link target) ∈ d.entries → Outside x ∧ Outside (Path.ofText target).parts
  home : d.Solid home.parts

theorem Reserved.target {target : Text} (h : d.Reserved home) (hl : d.lookup? x = some (.link target)) :
    Outside (Path.ofText target).parts := by
  have hx : x ≠ [] := by
    rintro rfl
    cases hl
  exact (h.links x target (mem_of_lookup? hl hx)).2

/-- What is outside the own directories stays where it is. -/
theorem lookup?_outside (hx : Outside x) : d.outside.lookup? x = d.lookup? x := by
  by_cases hroot : x = []
  · rw [hroot]
    rfl
  rw [lookup?_of_ne hroot, lookup?_of_ne hroot]
  obtain ⟨entries⟩ := d
  induction entries with
  | nil => rfl
  | cons entry entries ih =>
    obtain ⟨y, e⟩ := entry
    rw [Table.get?]
    by_cases hy : y = x
    · subst hy
      rw [outside, List.filter_cons_of_pos (by simpa using hx), Table.get?, if_pos rfl, if_pos rfl]
    · rw [if_neg hy, ← ih]
      simp only [outside, List.filter_cons]
      split
      · rw [Table.get?, if_neg hy]
      · rfl

/-- A walk that begins outside never comes to the own directories. -/
theorem walk_outside {enter enter' : Place → List Text → Except Errno Place} (h : d.Reserved home)
    (henter : ∀ start way, Outside start → Outside way → enter' start way = enter start way)
    (hat : Outside at_) (hrest : Outside rest) :
    walk d.outside follow enter' at_ rest = walk d follow enter at_ rest := by
  induction rest generalizing at_ with
  | nil => rfl
  | cons name rest ih =>
    obtain ⟨hname, hrest⟩ := outside_cons.mp hrest
    rw [walk, walk]
    refine ite_congr rfl (fun _ => ih hat.up hrest) fun _ => ite_congr rfl (fun _ => rfl) fun _ => ?_
    dsimp only
    rw [lookup?_outside (hat.child hname)]
    cases hl : d.lookup? (at_ ++ [name]) with
    | none => rfl
    | some e =>
      cases e with
      | file bytes => rfl
      | directory => exact ih (hat.child hname) hrest
      | link target =>
        refine ite_congr rfl (fun _ => rfl) fun _ => henter _ _ (hat.start _) ?_
        exact outside_append.mpr ⟨h.target hl, hrest⟩

theorem walkLinks_outside (h : d.Reserved home) (hat : Outside at_) (hrest : Outside rest) :
    walkLinks d.outside follow n at_ rest = walkLinks d follow n at_ rest := by
  induction n generalizing at_ rest with
  | zero => exact walk_outside h (fun _ _ _ _ => rfl) hat hrest
  | succ n ih => exact walk_outside h (fun start way hs hw => ih hs hw) hat hrest

theorem locate_outside (h : d.Reserved home) (hp : Outside p.parts) :
    d.outside.locate follow p = d.locate follow p := by
  simp only [locate, walkLinks_outside h Outside.nil hp]

theorem Walks.outside (hw : Walks d follow n at_ rest x) (h : d.Reserved home) (hat : Outside at_)
    (hrest : Outside rest) : Outside x := by
  induction hw with
  | done => exact hat
  | up tail ih => exact ih hat.up (outside_cons.mp hrest).2
  | down notUp size here tail ih =>
    obtain ⟨hname, hrest⟩ := outside_cons.mp hrest
    exact ih (hat.child hname) hrest
  | last => exact hat.child (outside_cons.mp hrest).1
  | stay => exact hat.child (outside_cons.mp hrest).1
  | link notUp size here followed tail ih =>
    exact ih (hat.start _) (outside_append.mpr ⟨h.target here, (outside_cons.mp hrest).2⟩)

/-- A path that leads past the own directories leads to a place outside them. -/
theorem locate_ok_outside (h : d.Reserved home) (hp : Outside p.parts) (hl : d.locate follow p = .ok x) : Outside x :=
  (locate_iff.mp hl).2.2.outside h Outside.nil hp

/-- Only links are entered, so rewriting depends on nothing else that is done there. -/
theorem rewrite_congr {enter enter' : Place → Place → List Text → Except Stuck Place}
    (henter : ∀ link target start way, d.lookup? link = some (.link target) →
      enter' link start way = enter link start way) :
    rewrite d enter' at_ rest = rewrite d enter at_ rest := by
  induction rest generalizing at_ with
  | nil => rfl
  | cons name rest ih =>
    rw [rewrite, rewrite]
    refine ite_congr rfl (fun _ => ih) fun _ => ?_
    dsimp only
    cases checkPath ⟨[Path.slash], at_ ++ [name]⟩ with
    | error fault => rfl
    | ok _ =>
      dsimp only
      cases hl : d.lookup? (at_ ++ [name]) with
      | none => exact ih
      | some e =>
        cases e with
        | file bytes => exact ih
        | directory => exact ih
        | link target =>
          dsimp only
          rw [henter _ _ _ _ hl]
          split
          · exact ih
          · rfl
          · rfl

/-- Where links are being followed and no other link is left, more room for them makes no difference. -/
theorem rewriteLinks_succ {following : List Place} (hdistinct : following.Nodup)
    (hstand : following ⊆ Table.keys d.entries) (hroom : d.entries.length ≤ m + following.length) :
    rewriteLinks d (m + 1) following at_ rest = rewriteLinks d m following at_ rest := by
  have hkey {link : Place} {target : Text} (hl : d.lookup? link = some (.link target)) :
      link ∈ Table.keys d.entries := by
    refine List.mem_map_of_mem (f := Prod.fst) (mem_of_lookup? hl ?_)
    rintro rfl
    cases hl
  induction m generalizing following at_ rest with
  | zero =>
    rw [rewriteLinks, rewriteLinks]
    refine rewrite_congr fun link target start way hl => if_pos ?_
    have hall : Table.keys d.entries ⊆ following := by
      refine (hdistinct.subperm hstand).perm_of_length_le ?_ |>.symm.subset
      rw [Table.keys, List.length_map]
      omega
    exact hall (hkey hl)
  | succ m ih =>
    rw [rewriteLinks, rewriteLinks]
    refine rewrite_congr fun link target start way hl => ite_congr rfl (fun _ => rfl) fun hnew => ?_
    refine ih (List.nodup_cons.mpr ⟨hnew, hdistinct⟩) (List.cons_subset.mpr ⟨hkey hl, hstand⟩) ?_
    rw [List.length_cons]
    omega

theorem rewriteLinks_room (hm : d.entries.length ≤ m) :
    rewriteLinks d m [] at_ rest = rewriteLinks d d.entries.length [] at_ rest := by
  induction m, hm using Nat.le_induction with
  | base => rfl
  | succ m hm ih => exact (rewriteLinks_succ List.nodup_nil (List.nil_subset _) hm).trans ih

theorem kept_outside (h : d.Reserved home) : Kept d (· ≠ ownName) Outside where
  root := Outside.nil
  up _ hx := hx.up
  down _ _ hx hn _ _ _ := hx.child hn
  target _ _ hl _ hm he := h.target hl (he ▸ hm)

theorem forall_ne_iff : (∀ name ∈ names, name ≠ ownName) ↔ Outside names :=
  ⟨fun h hm => h _ hm rfl, fun h _ hm he => h (he ▸ hm)⟩

/-- A path outside is resolved the same without the own directories. -/
theorem rewrite_outside {enter enter' : Place → Place → List Text → Except Stuck Place} (h : d.Reserved home)
    (henter : ∀ link start way, Outside start → Outside way → enter' link start way = enter link start way)
    (hkept : ∀ link start way place, Outside start → Outside way → enter link start way = .ok place → Outside place)
    (hat : Outside at_) (hrest : Outside rest) : rewrite d.outside enter' at_ rest = rewrite d enter at_ rest := by
  induction rest generalizing at_ with
  | nil => rfl
  | cons name rest ih =>
    obtain ⟨hname, hrest⟩ := outside_cons.mp hrest
    rw [rewrite, rewrite]
    refine ite_congr rfl (fun _ => ih hat.up hrest) fun _ => ?_
    dsimp only
    cases checkPath ⟨[Path.slash], at_ ++ [name]⟩ with
    | error fault => rfl
    | ok _ =>
      dsimp only
      rw [lookup?_outside (hat.child hname)]
      cases hl : d.lookup? (at_ ++ [name]) with
      | none => exact ih (hat.child hname) hrest
      | some e =>
        cases e with
        | file bytes => exact ih (hat.child hname) hrest
        | directory => exact ih (hat.child hname) hrest
        | link target =>
          dsimp only
          rw [henter _ _ _ (hat.start _) (h.target hl)]
          cases he : enter (at_ ++ [name]) (if (Path.ofText target).isAbsolute then [] else at_)
              (Path.ofText target).parts with
          | ok place => exact ih (hkept _ _ _ _ (hat.start _) (h.target hl) he) hrest
          | error stuck => cases stuck <;> rfl

theorem rewriteLinks_outside {following : List Place} (h : d.Reserved home) (hat : Outside at_)
    (hrest : Outside rest) :
    rewriteLinks d.outside m following at_ rest = rewriteLinks d m following at_ rest := by
  induction m generalizing following at_ rest with
  | zero => exact rewrite_outside h (fun _ _ _ _ _ => rfl) (fun _ _ _ _ _ _ => nofun) hat hrest
  | succ m ih =>
    refine rewrite_outside h (fun link start way hs hw => ite_congr rfl (fun _ => rfl) fun _ => ih hs hw) ?_ hat hrest
    intro link start way place hs hw he
    split at he
    · cases he
    · exact (kept_outside h).rewriteLinks hs (forall_ne_iff.mpr hw) he

theorem resolve_outside (h : d.Reserved home) (hp : Outside p.parts) : d.outside.resolve p = d.resolve p := by
  have hroom : d.outside.entries.length ≤ d.entries.length := List.length_filter_le _ _
  have hsame : rewriteLinks d.outside d.outside.entries.length [] [] p.parts =
      rewriteLinks d d.entries.length [] [] p.parts := by
    rw [← rewriteLinks_room hroom, rewriteLinks_outside h Outside.nil hp]
  rw [resolve, resolve, hsame]

theorem resolve_ok_outside (h : d.Reserved home) (hp : Outside p.parts) (hq : d.resolve p = .ok q) :
    Outside q.parts :=
  ((kept_outside h).resolve (forall_ne_iff.mpr hp) hq).1

section
variable (h : d.Reserved home) (hp : Outside p.parts)
include h hp

theorem stat_outside : d.outside.stat p = d.stat p := by
  rw [stat, stat, locate_outside h hp]
  cases hl : d.locate true p with
  | error fault => rfl
  | ok x =>
    dsimp only
    rw [lookup?_outside (locate_ok_outside h hp hl)]

theorem ask_outside (question : Entry → Bool) : d.outside.ask p question = d.ask p question := by
  rw [ask, ask, stat_outside h hp]

theorem exists?_outside : d.outside.exists? p = d.exists? p := ask_outside h hp _

theorem isDirectory_outside : d.outside.isDirectory p = d.isDirectory p := ask_outside h hp _

theorem isFile_outside : d.outside.isFile p = d.isFile p := ask_outside h hp _

theorem readBytes_outside : d.outside.readBytes p = d.readBytes p := by
  rw [readBytes, readBytes, stat_outside h hp]

theorem readText_outside : d.outside.readText p = d.readText p := by
  rw [readText, readText, readBytes_outside h hp]

theorem readTextLossy_outside : d.outside.readTextLossy p = d.readTextLossy p := by
  rw [readTextLossy, readTextLossy, readBytes_outside h hp]

end

end CodeAgent.Disk
