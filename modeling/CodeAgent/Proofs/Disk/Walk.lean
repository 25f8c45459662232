import CodeAgent.Disk.Locate
import CodeAgent.Proofs.Disk.Tree

namespace CodeAgent.Disk

variable {d d' : Disk} {p : Path} {x y at_ : Place} {e : Entry} {follow : Bool}
variable {enter : Place → List Text → Except Errno Place}

/-- No double dots in a place, and no link at it or above it. -/
structure Plain (d : Disk) (x : Place) : Prop where
  noDots : (".." : Text) ∉ x
  noLink : ∀ y, y <+: x → ∀ target, d.lookup? y ≠ some (.link target)

theorem Plain.root (d : Disk) : d.Plain [] := by
  refine ⟨by simp, ?_⟩
  intro y hy target
  rw [List.prefix_nil.mp hy, lookup?_root]
  exact fun h => Entry.noConfusion (Option.some.inj h)

theorem Plain.of_prefix (h : d.Plain y) (hp : x <+: y) : d.Plain x :=
  ⟨fun hm => h.noDots (hp.subset hm), fun z hz => h.noLink z (hz.trans hp)⟩

theorem Plain.child (h : d.Plain x) {name : Text} (hn : name ≠ (".." : Text))
    (hl : ∀ target, d.lookup? (x ++ [name]) ≠ some (.link target)) : d.Plain (x ++ [name]) := by
  refine ⟨?_, ?_⟩
  · intro hm
    rcases List.mem_append.mp hm with hm | hm
    · exact h.noDots hm
    · exact hn (List.mem_singleton.mp hm).symm
  · intro y hy
    rcases List.prefix_concat_iff.mp hy with rfl | hy
    · exact hl
    · exact h.noLink y hy

theorem Plain.entry_cases (h : d.Plain x) :
    d.lookup? x = none ∨ d.lookup? x = some .directory ∨ ∃ bytes, d.lookup? x = some (.file bytes) := by
  cases he : d.lookup? x with
  | none => exact Or.inl rfl
  | some e =>
    cases e with
    | file bytes => exact Or.inr (Or.inr ⟨bytes, rfl⟩)
    | directory => exact Or.inr (Or.inl rfl)
    | link target => exact absurd he (h.noLink x List.prefix_rfl target)

/-- A walk that ends has crossed directories only, each by a name that is short enough. -/
theorem walk_ok {rest : List Text} (h : d.Plain (at_ ++ rest))
    (hw : walk d follow enter at_ rest = .ok x) :
    x = at_ ++ rest ∧ (d.lookup? at_ = some .directory → rest ≠ [] →
      d.lookup? x.dropLast = some .directory) ∧ ∀ name ∈ rest, nameSize name ≤ maxName := by
  induction rest generalizing at_ with
  | nil =>
    simp only [walk, Except.ok.injEq] at hw
    subst hw
    simp
  | cons name rest ih =>
    have hd : name ≠ (".." : Text) := by
      rintro rfl
      exact h.noDots (by simp)
    have hlist : at_ ++ name :: rest = at_ ++ [name] ++ rest := by simp
    have hhere : d.Plain (at_ ++ [name]) := h.of_prefix (by rw [hlist]; exact List.prefix_append _ _)
    rw [walk, if_neg hd] at hw
    split at hw
    · cases hw
    rename_i hlong
    have hsize : nameSize name ≤ maxName := Nat.le_of_not_lt hlong
    rcases hhere.entry_cases with he | he | ⟨bytes, he⟩
    · simp only [he] at hw
      split at hw
      · rename_i hr
        rw [List.isEmpty_iff] at hr
        subst hr
        cases hw
        refine ⟨rfl, ?_, by simpa using hsize⟩
        intro hat _
        simpa using hat
      · cases hw
    · simp only [he] at hw
      rw [hlist] at h
      obtain ⟨hx, hparent, hnames⟩ := ih h hw
      refine ⟨by rw [hlist]; exact hx, ?_, by simpa using ⟨hsize, hnames⟩⟩
      intro hat _
      by_cases hr : rest = []
      · subst hr
        rw [hx]
        simpa using hat
      · exact hparent he hr
    · simp only [he] at hw
      split at hw
      · rename_i hr
        rw [List.isEmpty_iff] at hr
        subst hr
        cases hw
        refine ⟨rfl, ?_, by simpa using hsize⟩
        intro hat _
        simpa using hat
      · cases hw

/-- A walk to what stands on a tree can be refused for the length of a name only. -/
theorem walk_found {rest : List Text} (tree : d.IsTree) (h : d.Plain (at_ ++ rest))
    (he : d.lookup? (at_ ++ rest) = some e) :
    walk d follow enter at_ rest =
      if ∀ name ∈ rest, nameSize name ≤ maxName then .ok (at_ ++ rest) else .error .nameTooLong := by
  induction rest generalizing at_ with
  | nil => simp [walk]
  | cons name rest ih =>
    have hd : name ≠ (".." : Text) := by
      rintro rfl
      exact h.noDots (by simp)
    have hlist : at_ ++ name :: rest = at_ ++ [name] ++ rest := by simp
    have hp : at_ ++ [name] <+: at_ ++ name :: rest := by rw [hlist]; exact List.prefix_append _ _
    rw [walk, if_neg hd]
    by_cases hlong : maxName < nameSize name
    · rw [if_pos hlong, if_neg]
      intro hall
      exact absurd (hall name (by simp)) (Nat.not_le.mpr hlong)
    have hsize : nameSize name ≤ maxName := Nat.le_of_not_lt hlong
    rw [if_neg hlong]
    have hall : (∀ n ∈ name :: rest, nameSize n ≤ maxName) ↔ ∀ n ∈ rest, nameSize n ≤ maxName := by
      simp [hsize]
    by_cases hr : rest = []
    · subst hr
      rcases (h.of_prefix hp).entry_cases with hn | hn | ⟨bytes, hn⟩
      · rw [hn] at he
        cases he
      · simp [hn, walk, hsize]
      · simp [hn, hsize]
    · have hdirectory : d.lookup? (at_ ++ [name]) = some .directory :=
        tree.above he hp (by simpa using hr)
      simp only [hdirectory, hall]
      rw [hlist] at h he ⊢
      exact ih h he

theorem walkLinks_found (tree : d.IsTree) (h : d.Plain x) (he : d.lookup? x = some e) :
    walkLinks d follow maxLinks [] x =
      if ∀ name ∈ x, nameSize name ≤ maxName then .ok x else .error .nameTooLong :=
  walk_found tree (show d.Plain ([] ++ x) from h) he

/-- A path that the system accepts wherever it leads. -/
structure Nameable (p : Path) : Prop where
  accepted : checkPath p = .ok ()
  size : nameSize p.text < maxPath
  names : ∀ name ∈ p.parts, nameSize name ≤ maxName

/-- Where no link is on the way a path leads to its own place, in a directory. -/
theorem locate_ok (h : d.Plain p.parts) (hl : d.locate follow p = .ok x) :
    x = p.parts ∧ d.lookup? p.parts.dropLast = some .directory ∧ Nameable p := by
  unfold locate at hl
  split at hl
  · cases hl
  rename_i hc
  split at hl
  · cases hl
  rename_i hs
  split at hl
  · rename_i place hw
    cases hl
    obtain ⟨hx, hparent, hnames⟩ := walk_ok (show d.Plain ([] ++ p.parts) from h) hw
    refine ⟨hx, ?_, hc, Nat.lt_of_not_le hs, hnames⟩
    by_cases hr : p.parts = []
    · simp [hr]
    · rw [hx] at hparent
      exact hparent (lookup?_root d) hr
  · cases hl

theorem locate_found (tree : d.IsTree) (h : d.Plain p.parts) (he : d.lookup? p.parts = some e)
    (hn : Nameable p) : d.locate follow p = .ok p.parts := by
  have hw : walkLinks d follow maxLinks [] p.parts = .ok p.parts := by
    rw [walkLinks_found tree h he, if_pos hn.names]
  unfold locate
  rw [hn.accepted]
  simp only [Nat.not_le.mpr hn.size, ↓reduceIte, hw]

theorem checkText_error {t : Text} {fault : DiskFault} (h : checkText t = .error fault) :
    fault.refusesText = true := by
  unfold checkText at h
  split at h
  · cases h
    rfl
  · split at h
    · cases h
      rfl
    · cases h

/-- The text of a path is refused before the system is asked. -/
theorem checkPath_error {fault : DiskFault} (h : checkPath p = .error fault) :
    fault.isSystem = false := by
  have hrefused := checkText_error h
  cases fault with
  | system => cases hrefused
  | _ => rfl

/-- What the system does not find is not there. -/
theorem lookup?_of_noEntry {q : Path} (tree : d.IsTree) (h : d.Plain p.parts)
    (hl : d.locate follow p = .error (.system .noEntry q)) : d.lookup? p.parts = none := by
  cases he : d.lookup? p.parts with
  | none => rfl
  | some e =>
    unfold locate at hl
    split at hl
    · rename_i fault hc
      cases hl
      exact absurd (checkPath_error hc) (by simp [DiskFault.isSystem])
    split at hl
    · cases hl
    split at hl
    · cases hl
    · rename_i errno hw
      simp only [Except.error.injEq, DiskFault.system.injEq] at hl
      obtain ⟨rfl, -⟩ := hl
      rw [walkLinks_found tree h he] at hw
      split at hw <;> cases hw

/-- A walk by short names stops where nothing stands or where a file does. -/
theorem walk_error {rest : List Text} {errno : Errno} (h : d.Plain (at_ ++ rest))
    (hn : ∀ name ∈ rest, nameSize name ≤ maxName) (hw : walk d follow enter at_ rest = .error errno) :
    errno = .noEntry ∨ errno = .notDirectory := by
  induction rest generalizing at_ with
  | nil => cases hw
  | cons name rest ih =>
    obtain ⟨hsize, hn⟩ := List.forall_mem_cons.mp hn
    have hlist : at_ ++ name :: rest = at_ ++ [name] ++ rest := by simp
    have hup : name ≠ (".." : Text) := by
      rintro rfl
      exact h.noDots (by simp)
    rw [walk, if_neg hup, if_neg (Nat.not_lt.mpr hsize)] at hw
    rw [hlist] at h
    rcases (h.of_prefix (List.prefix_append _ _)).entry_cases with he | he | ⟨bytes, he⟩
    · simp only [he] at hw
      split at hw
      · cases hw
      · cases hw
        exact Or.inl rfl
    · simp only [he] at hw
      exact ih h hn hw
    · simp only [he] at hw
      split at hw
      · cases hw
      · cases hw
        exact Or.inr rfl

theorem locate_error {fault : DiskFault} (h : d.Plain p.parts) (hn : Nameable p)
    (hl : d.locate follow p = .error fault) : fault.meansAbsent = true := by
  unfold locate at hl
  simp only [hn.accepted, Nat.not_le.mpr hn.size, ↓reduceIte] at hl
  split at hl
  · cases hl
  · rename_i errno hw
    cases hl
    rcases walk_error (show d.Plain ([] ++ p.parts) from h) hn.names hw with rfl | rfl <;> rfl

theorem stat_ok (h : d.Plain p.parts) (hs : d.stat p = .ok e) :
    d.lookup? p.parts = some e ∧ Nameable p := by
  unfold stat at hs
  split at hs
  · cases hs
  rename_i place hl
  obtain ⟨rfl, -, hn⟩ := locate_ok h hl
  split at hs
  · rename_i he
    cases hs
    exact ⟨he, hn⟩
  · cases hs

theorem stat_found (tree : d.IsTree) (h : d.Plain p.parts) (he : d.lookup? p.parts = some e)
    (hn : Nameable p) : d.stat p = .ok e := by
  unfold stat
  rw [locate_found tree h he hn]
  simp only [he]

/-- What stands at a place to which no link leads is found, or refused, on every tree on which it stands there. -/
theorem stat_eq (tree : d.IsTree) (tree' : d'.IsTree) (h : d.Plain p.parts) (h' : d'.Plain p.parts)
    (he : d.lookup? p.parts = some e) (he' : d'.lookup? p.parts = some e) : d'.stat p = d.stat p := by
  have hlocate : d'.locate true p = d.locate true p := by
    unfold locate
    rw [walkLinks_found tree h he, walkLinks_found tree' h' he']
  unfold stat
  rw [hlocate]
  cases hl : d.locate true p with
  | error fault => rfl
  | ok place =>
    obtain ⟨rfl, -, -⟩ := locate_ok h hl
    dsimp only
    rw [he, he']

/-- Either the text of a path is refused or the system tells what is wrong with it. -/
theorem stat_error {fault : DiskFault} (hs : d.stat p = .error fault) :
    checkPath p = .error fault ∨ ∃ errno, fault = .system errno p := by
  unfold stat locate at hs
  split at hs
  · rename_i hl
    cases hs
    split at hl
    · rename_i hc
      cases hl
      exact Or.inl hc
    · split at hl
      · cases hl
        exact Or.inr ⟨_, rfl⟩
      · split at hl <;> cases hl
        exact Or.inr ⟨_, rfl⟩
  · split at hs <;> cases hs
    exact Or.inr ⟨_, rfl⟩

theorem isFile_of_file {bytes : Bytes} (tree : d.IsTree) (h : d.Plain p.parts) (hn : Nameable p)
    (he : d.lookup? p.parts = some (.file bytes)) : d.isFile p = .ok true := by
  unfold isFile ask
  rw [stat_found tree h he hn]

/-- Where no file stands the system can be asked for one. -/
theorem isFile_of_no_file (h : d.Plain p.parts) (hn : Nameable p)
    (he : ∀ bytes, d.lookup? p.parts ≠ some (.file bytes)) : d.isFile p = .ok false := by
  unfold isFile ask
  cases hs : d.stat p with
  | ok e =>
    obtain ⟨hl, -⟩ := stat_ok h hs
    cases e with
    | file bytes => exact absurd hl (he bytes)
    | directory => rfl
    | link target => rfl
  | error fault =>
    have habsent : fault.meansAbsent = true := by
      unfold stat at hs
      split at hs
      · rename_i hl
        cases hs
        exact locate_error h hn hl
      · split at hs <;> cases hs
        rfl
    simp only [habsent, ↓reduceIte]

/-- What a path names on two trees is the same if the same stands at its place. -/
theorem stat_congr (tree : d.IsTree) (tree' : d'.IsTree) (h : d.Plain p.parts) (h' : d'.Plain p.parts)
    (he : d'.lookup? p.parts = d.lookup? p.parts) : (d'.stat p).toOption = (d.stat p).toOption := by
  cases hs : d.stat p with
  | ok e =>
    obtain ⟨hd, hn⟩ := stat_ok h hs
    rw [hd] at he
    rw [stat_found tree' h' he hn]
  | error fault =>
    cases hs' : d'.stat p with
    | error fault' => rfl
    | ok e =>
      obtain ⟨hd', hn⟩ := stat_ok h' hs'
      rw [hd'] at he
      rw [stat_found tree h he.symm hn] at hs
      cases hs

/-- What holds of a place on the way also holds one directory up, and one name down that is no link. `Q` is
what is known of the names. -/
structure Kept (d : Disk) (Q : Text → Prop) (P : Place → Prop) : Prop where
  root : P []
  up : ∀ x, P x → P x.dropLast
  down : ∀ x name, P x → Q name → name ≠ (".." : Text) → checkPath ⟨[Path.slash], x ++ [name]⟩ = .ok () →
    (∀ target, d.lookup? (x ++ [name]) ≠ some (.link target)) → P (x ++ [name])
  target : ∀ x target, d.lookup? x = some (.link target) → ∀ name ∈ (Path.ofText target).parts, Q name

section
variable {P : Place → Prop} {Q : Text → Prop} {rest : List Text}

/-- The resolution of a path keeps what each of its steps keeps. -/
theorem Kept.rewrite {enter : Place → Place → List Text → Except Stuck Place} (hk : Kept d Q P)
    (henter : ∀ link start way place, P start → (∀ name ∈ way, Q name) →
      enter link start way = .ok place → P place)
    (hat : P at_) (hrest : ∀ name ∈ rest, Q name) (hr : rewrite d enter at_ rest = .ok x) : P x := by
  induction rest generalizing at_ with
  | nil =>
    simp only [Disk.rewrite, Except.ok.injEq] at hr
    exact hr ▸ hat
  | cons name rest ih =>
    obtain ⟨hname, hrest⟩ := List.forall_mem_cons.mp hrest
    rw [Disk.rewrite] at hr
    split at hr
    · exact ih (hk.up _ hat) hrest hr
    rename_i hd
    simp only at hr
    split at hr
    · cases hr
    rename_i hc
    split at hr
    · rename_i target hl
      split at hr
      · rename_i place he
        have hstart : P (if (Path.ofText target).isAbsolute = true then [] else at_) := by
          split
          · exact hk.root
          · exact hat
        exact ih (henter _ _ _ _ hstart (hk.target _ target hl) he) hrest hr
      · cases hr
      · cases hr
    · rename_i hl
      exact ih (hk.down _ _ hat hname hd hc hl) hrest hr

theorem Kept.rewriteLinks {links : Nat} {following : List Place} (hk : Kept d Q P) (hat : P at_)
    (hrest : ∀ name ∈ rest, Q name) (hr : rewriteLinks d links following at_ rest = .ok x) : P x := by
  induction links generalizing following at_ rest x with
  | zero =>
    refine hk.rewrite ?_ hat hrest hr
    intro link start way place _ _ he
    cases he
  | succ n ih =>
    refine hk.rewrite ?_ hat hrest hr
    intro link start way place hs hw he
    split at he
    · cases he
    · exact ih hs hw he

/-- Where a path resolves to. -/
theorem Kept.resolve {q : Path} (hk : Kept d Q P) (hq : ∀ name ∈ q.parts, Q name)
    (h : d.resolve q = .ok p) : P p.parts ∧ p.root = [Path.slash] := by
  unfold Disk.resolve at h
  split at h
  · rename_i place hr
    cases h
    exact ⟨hk.rewriteLinks hk.root hq hr, rfl⟩
  · cases h
  · cases h

end

theorem kept_plain (d : Disk) : Kept d (fun _ => True) d.Plain where
  root := Plain.root d
  up _ h := h.of_prefix (List.dropLast_prefix _)
  down _ _ h _ hn _ hl := h.child hn hl
  target _ _ _ _ _ := trivial

def Resolved (d : Disk) (p : Path) : Prop := ∃ q, d.resolve q = .ok p

theorem Resolved.cases (h : d.Resolved p) : d.Plain p.parts ∧ p.root = [Path.slash] := by
  obtain ⟨q, hq⟩ := h
  exact (kept_plain d).resolve (fun _ _ => trivial) hq

/-- A resolved path crosses no link. -/
theorem Resolved.plain (h : d.Resolved p) : d.Plain p.parts := h.cases.1

/-- Resolved paths that name one place are one path. -/
theorem Resolved.eq_of_parts {q : Path} (hp : d.Resolved p) (hq : d.Resolved q)
    (h : p.parts = q.parts) : p = q := by
  obtain ⟨root, parts⟩ := p
  obtain ⟨root', parts'⟩ := q
  obtain rfl : root = [Path.slash] := hp.cases.2
  obtain rfl : root' = [Path.slash] := hq.cases.2
  obtain rfl : parts = parts' := h
  rfl

end CodeAgent.Disk
