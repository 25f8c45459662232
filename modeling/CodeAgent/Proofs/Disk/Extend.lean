import CodeAgent.Proofs.Disk.Change
import CodeAgent.Proofs.Disk.Name

namespace CodeAgent.Disk

variable {d e e' f : Disk} {p : Path} {x y at_ : Place} {rest : List Text} {name : Text} {follow : Bool} {n : Nat}

/-- A walk that ends, step by step; `n` links at most are followed on it. -/
inductive Walks (d : Disk) (follow : Bool) : Nat → Place → List Text → Place → Prop where
  | done {n : Nat} {at_ : Place} : Walks d follow n at_ [] at_
  | up {n : Nat} {at_ x : Place} {rest : List Text} (tail : Walks d follow n at_.dropLast rest x) :
      Walks d follow n at_ ((".." : Text) :: rest) x
  | down {n : Nat} {at_ x : Place} {name : Text} {rest : List Text} (notUp : name ≠ (".." : Text))
      (size : nameSize name ≤ maxName) (here : d.lookup? (at_ ++ [name]) = some .directory)
      (tail : Walks d follow n (at_ ++ [name]) rest x) : Walks d follow n at_ (name :: rest) x
  | last {n : Nat} {at_ : Place} {name : Text} (notUp : name ≠ (".." : Text)) (size : nameSize name ≤ maxName)
      (here : d.lookup? (at_ ++ [name]) = none ∨ ∃ bytes, d.lookup? (at_ ++ [name]) = some (.file bytes)) :
      Walks d follow n at_ [name] (at_ ++ [name])
  | stay {n : Nat} {at_ : Place} {name target : Text} (notUp : name ≠ (".." : Text)) (size : nameSize name ≤ maxName)
      (here : d.lookup? (at_ ++ [name]) = some (.link target)) (unfollowed : follow = false) :
      Walks d follow n at_ [name] (at_ ++ [name])
  | link {n : Nat} {at_ x : Place} {name target : Text} {rest : List Text} (notUp : name ≠ (".." : Text))
      (size : nameSize name ≤ maxName) (here : d.lookup? (at_ ++ [name]) = some (.link target))
      (followed : rest ≠ [] ∨ follow = true)
      (tail : Walks d follow n (if (Path.ofText target).isAbsolute then [] else at_)
        ((Path.ofText target).parts ++ rest) x) :
      Walks d follow (n + 1) at_ (name :: rest) x

/-- A walk that succeeds is a chain of steps, with no more links than were allowed. -/
theorem walks_of_walk {enter : Place → List Text → Except Errno Place}
    (henter : ∀ start way, enter start way = .ok x → ∃ m, n = m + 1 ∧ Walks d follow m start way x)
    (hw : walk d follow enter at_ rest = .ok x) : Walks d follow n at_ rest x := by
  induction rest generalizing at_ with
  | nil =>
    rw [walk] at hw
    cases hw
    exact .done
  | cons name rest ih =>
    rw [walk] at hw
    split at hw
    · rename_i hup
      rw [hup]
      exact .up (ih hw)
    rename_i hup
    split at hw
    · cases hw
    rename_i hlong
    have hsize := Nat.le_of_not_lt hlong
    dsimp only at hw
    split at hw
    · rename_i here
      exact .down hup hsize here (ih hw)
    · rename_i target here
      split at hw
      · rename_i hstay
        rw [Bool.and_eq_true, List.isEmpty_iff, Bool.not_eq_true'] at hstay
        obtain ⟨rfl, hfollow⟩ := hstay
        cases hw
        exact .stay hup hsize here hfollow
      · rename_i hgo
        rw [Bool.and_eq_true, List.isEmpty_iff, Bool.not_eq_true', not_and_or, Bool.not_eq_false] at hgo
        obtain ⟨m, rfl, htail⟩ := henter _ _ hw
        exact .link hup hsize here hgo htail
    · rename_i bytes here
      split at hw
      · rename_i hrest
        rw [List.isEmpty_iff] at hrest
        subst hrest
        cases hw
        exact .last hup hsize (Or.inr ⟨bytes, here⟩)
      · cases hw
    · rename_i here
      split at hw
      · rename_i hrest
        rw [List.isEmpty_iff] at hrest
        subst hrest
        cases hw
        exact .last hup hsize (Or.inl here)
      · cases hw

section
variable (d follow n at_ rest)

theorem walkLinks_up : walkLinks d follow n at_ ((".." : Text) :: rest) = walkLinks d follow n at_.dropLast rest := by
  cases n <;>
  · rw [walkLinks, walk, if_pos rfl]

variable {name : Text} (notUp : name ≠ (".." : Text)) (size : nameSize name ≤ maxName)
include notUp size

theorem walkLinks_down (here : d.lookup? (at_ ++ [name]) = some .directory) :
    walkLinks d follow n at_ (name :: rest) = walkLinks d follow n (at_ ++ [name]) rest := by
  cases n <;>
  · rw [walkLinks, walk, if_neg notUp, if_neg (Nat.not_lt.mpr size)]
    dsimp only
    rw [here]

theorem walkLinks_missing (here : d.lookup? (at_ ++ [name]) = none) (hrest : rest ≠ []) :
    walkLinks d follow n at_ (name :: rest) = .error .noEntry := by
  have hgo : rest.isEmpty = false := by simpa using hrest
  cases n <;>
  · rw [walkLinks, walk, if_neg notUp, if_neg (Nat.not_lt.mpr size)]
    dsimp only
    rw [here]
    dsimp only
    rw [hgo, if_neg Bool.false_ne_true]

theorem walkLinks_link {target : Text} (here : d.lookup? (at_ ++ [name]) = some (.link target))
    (followed : rest ≠ [] ∨ follow = true) :
    walkLinks d follow (n + 1) at_ (name :: rest) =
      walkLinks d follow n (if (Path.ofText target).isAbsolute then [] else at_)
        ((Path.ofText target).parts ++ rest) := by
  have hgo : (rest.isEmpty && !follow) = false := by
    rcases followed with hr | hf
    · simp [hr]
    · simp [hf]
  rw [walkLinks, walk, if_neg notUp, if_neg (Nat.not_lt.mpr size)]
  dsimp only
  rw [here]
  dsimp only
  rw [hgo, if_neg Bool.false_ne_true]

end

/-- The walks that end are the ones that the system can make. -/
theorem walks_iff : walkLinks d follow n at_ rest = .ok x ↔ Walks d follow n at_ rest x := by
  constructor
  · intro hw
    induction n generalizing at_ rest with
    | zero =>
      rw [walkLinks] at hw
      exact walks_of_walk (fun _ _ he => by cases he) hw
    | succ n ih => exact walks_of_walk (fun start way he => ⟨n, rfl, ih he⟩) hw
  · intro hw
    induction hw with
    | @done n at_ => cases n <;> rfl
    | up tail ih => rw [walkLinks_up, ih]
    | down notUp size here tail ih => rw [walkLinks_down _ _ _ _ _ notUp size here, ih]
    | @last n at_ name notUp size here =>
      cases n <;>
      · rw [walkLinks, walk, if_neg notUp, if_neg (Nat.not_lt.mpr size)]
        dsimp only
        rcases here with here | ⟨bytes, here⟩ <;> rw [here] <;> rfl
    | @stay n at_ name target notUp size here unfollowed =>
      cases n <;>
      · rw [walkLinks, walk, if_neg notUp, if_neg (Nat.not_lt.mpr size)]
        dsimp only
        rw [here]
        simp [unfollowed]
    | link notUp size here followed tail ih => rw [walkLinks_link _ _ _ _ _ notUp size here followed, ih]

theorem locate_iff : d.locate follow p = .ok x ↔
    checkPath p = .ok () ∧ nameSize p.text < maxPath ∧ Walks d follow maxLinks [] p.parts x := by
  rw [← walks_iff]
  unfold locate
  cases hc : checkPath p with
  | error fault => simp
  | ok _ =>
    by_cases hs : maxPath ≤ nameSize p.text
    · simp [hs, Nat.not_lt.mpr hs]
    · rw [if_neg hs]
      cases hw : walkLinks d follow maxLinks [] p.parts with
      | ok y => simp [Nat.lt_of_not_le hs]
      | error errno => simp

/-- Every directory on the way to a place, itself included, is one. -/
def Solid (d : Disk) (x : Place) : Prop := ∀ y, y <+: x → d.lookup? y = some .directory

theorem Solid.root (d : Disk) : d.Solid [] := by
  intro y hy
  rw [List.prefix_nil.mp hy]
  rfl

theorem Solid.self (h : d.Solid x) : d.lookup? x = some .directory := h x List.prefix_rfl

theorem Solid.up (h : d.Solid x) : d.Solid x.dropLast := fun y hy => h y (hy.trans (List.dropLast_prefix x))

theorem Solid.down (h : d.Solid x) (hd : d.lookup? (x ++ [name]) = some .directory) : d.Solid (x ++ [name]) := by
  intro y hy
  rcases List.prefix_concat_iff.mp hy with rfl | hy
  · exact hd
  · exact h y hy

theorem Solid.start (h : d.Solid x) (b : Bool) : d.Solid (if b then [] else x) := by
  split
  · exact Solid.root d
  · exact h

/-- A walk that follows links ends at no link. -/
theorem Walks.not_link (h : Walks d true n at_ rest x) (hat : d.Solid at_) (target : Text) :
    d.lookup? x ≠ some (.link target) := by
  induction h with
  | done =>
    rw [hat.self]
    nofun
  | up tail ih => exact ih hat.up
  | down _ _ here tail ih => exact ih (hat.down here)
  | last _ _ here =>
    rcases here with here | ⟨bytes, here⟩ <;> rw [here] <;> nofun
  | stay _ _ _ unfollowed => cases unfollowed
  | link _ _ _ _ tail ih => exact ih (hat.start _)

/-- What stands before the last name of a path that leads somewhere leads to a directory. -/
theorem Walks.parent {init : List Text} (h : Walks d follow n at_ (init ++ [name]) x) (hat : d.Solid at_) :
    ∃ y, Walks d true n at_ init y ∧ d.Solid y := by
  generalize hrest : init ++ [name] = rest at h
  induction h generalizing init with
  | done => simp at hrest
  | up tail ih =>
    cases init with
    | nil => exact ⟨_, .done, hat⟩
    | cons c init =>
      obtain ⟨rfl, rfl⟩ := List.cons.inj hrest
      obtain ⟨y, hy, hs⟩ := ih hat.up rfl
      exact ⟨y, .up hy, hs⟩
  | down notUp size here tail ih =>
    cases init with
    | nil => exact ⟨_, .done, hat⟩
    | cons c init =>
      obtain ⟨rfl, rfl⟩ := List.cons.inj hrest
      obtain ⟨y, hy, hs⟩ := ih (hat.down here) rfl
      exact ⟨y, .down notUp size here hy, hs⟩
  | last =>
    cases init with
    | nil => exact ⟨_, .done, hat⟩
    | cons c init => simp at hrest
  | stay =>
    cases init with
    | nil => exact ⟨_, .done, hat⟩
    | cons c init => simp at hrest
  | link notUp size here followed tail ih =>
    cases init with
    | nil => exact ⟨_, .done, hat⟩
    | cons c init =>
      obtain ⟨rfl, rfl⟩ := List.cons.inj hrest
      obtain ⟨y, hy, hs⟩ := ih (hat.start _) (List.append_assoc _ _ _)
      exact ⟨y, .link notUp size here (Or.inr rfl) hy, hs⟩

/-- Without following the last link a walk comes to a link or to where it came before. -/
theorem Walks.unfollowed (h : Walks d true n at_ rest y) (hy : d.lookup? y ≠ none) :
    ∃ x, Walks d false n at_ rest x ∧ d.lookup? x ≠ none := by
  induction h with
  | done => exact ⟨_, .done, hy⟩
  | up tail ih =>
    obtain ⟨x, hx, hn⟩ := ih hy
    exact ⟨x, .up hx, hn⟩
  | down notUp size here tail ih =>
    obtain ⟨x, hx, hn⟩ := ih hy
    exact ⟨x, .down notUp size here hx, hn⟩
  | last notUp size here => exact ⟨_, .last notUp size here, hy⟩
  | stay notUp size here => exact ⟨_, .stay notUp size here rfl, by rw [here]; nofun⟩
  | @link n at_ y name target rest notUp size here followed tail ih =>
    by_cases hr : rest = []
    · subst hr
      exact ⟨_, .stay notUp size here rfl, by rw [here]; nofun⟩
    · obtain ⟨x, hx, hn⟩ := ih hy
      exact ⟨x, .link notUp size here (Or.inl hr) hx, hn⟩

/-- If no link stands at its end, following links makes no difference to a walk. -/
theorem Walks.followed (h : Walks d follow n at_ rest x) (hx : ∀ target, d.lookup? x ≠ some (.link target)) :
    Walks d true n at_ rest x := by
  induction h with
  | done => exact .done
  | up tail ih => exact .up (ih hx)
  | down notUp size here tail ih => exact .down notUp size here (ih hx)
  | last notUp size here => exact .last notUp size here
  | stay _ _ here => exact absurd here (hx _)
  | link notUp size here followed tail ih => exact .link notUp size here (Or.inr rfl) (ih hx)

/-- Directories and links stay, a file stays a file, and no link comes in. -/
structure Extends (d e : Disk) : Prop where
  directory : ∀ x, d.lookup? x = some .directory → e.lookup? x = some .directory
  link : ∀ x target, d.lookup? x = some (.link target) → e.lookup? x = some (.link target)
  file : ∀ x bytes, d.lookup? x = some (.file bytes) → ∃ bytes', e.lookup? x = some (.file bytes')
  noLink : ∀ x target, e.lookup? x = some (.link target) → d.lookup? x = some (.link target)

theorem Extends.refl (d : Disk) : Extends d d :=
  ⟨fun _ h => h, fun _ _ h => h, fun _ bytes h => ⟨bytes, h⟩, fun _ _ h => h⟩

theorem Extends.trans (h : Extends d e) (h' : Extends e f) : Extends d f where
  directory x hd := h'.directory x (h.directory x hd)
  link x target hl := h'.link x target (h.link x target hl)
  file x bytes hf := by
    obtain ⟨bytes', hf'⟩ := h.file x bytes hf
    exact h'.file x bytes' hf'
  noLink x target hl := h.noLink x target (h'.noLink x target hl)

/-- A path that leads somewhere leads to the same place on a disk that holds more. -/
theorem Walks.extends (h : Extends d e) (hw : Walks d follow n at_ rest x) : Walks e follow n at_ rest x := by
  induction hw with
  | done => exact .done
  | up tail ih => exact .up ih
  | down notUp size here tail ih => exact .down notUp size (h.directory _ here) ih
  | @last n at_ name notUp size here =>
    rcases here with here | ⟨bytes, here⟩
    · cases he : e.lookup? (at_ ++ [name]) with
      | none => exact .last notUp size (Or.inl he)
      | some entry =>
        cases entry with
        | file bytes => exact .last notUp size (Or.inr ⟨bytes, he⟩)
        | directory => exact .down notUp size he .done
        | link target =>
          rw [h.noLink _ _ he] at here
          cases here
    · exact .last notUp size (Or.inr (h.file _ _ here))
  | stay notUp size here unfollowed => exact .stay notUp size (h.link _ _ here) unfollowed
  | link notUp size here followed tail ih => exact .link notUp size (h.link _ _ here) followed ih

theorem locate_extends (h : Extends d e) (hl : d.locate follow p = .ok x) : e.locate follow p = .ok x := by
  rw [locate_iff] at hl ⊢
  exact ⟨hl.1, hl.2.1, hl.2.2.extends h⟩

theorem locate_followed (h : d.locate false p = .ok x) (hx : d.lookup? x = some .directory) :
    d.locate true p = .ok x := by
  rw [locate_iff] at h ⊢
  refine ⟨h.1, h.2.1, h.2.2.followed fun target hl => ?_⟩
  rw [hx] at hl
  cases hl

theorem isDirectory_iff :
    d.isDirectory p = .ok true ↔ ∃ x, d.locate true p = .ok x ∧ d.lookup? x = some .directory := by
  unfold isDirectory ask stat
  cases hl : d.locate true p with
  | error fault =>
    simp only [reduceCtorEq, false_and, exists_false, iff_false]
    split <;> nofun
  | ok x =>
    simp only [Except.ok.injEq, exists_eq_left']
    cases he : d.lookup? x with
    | none => simp [DiskFault.meansAbsent]
    | some entry => simp

/-- Where a directory is, none is made. -/
theorem makeDirectory_of_isDirectory (h : d.isDirectory p = .ok true) :
    d.makeDirectory p = .error (.system .exists_ p) := by
  obtain ⟨y, hl, hy⟩ := isDirectory_iff.mp h
  obtain ⟨hc, hs, hw⟩ := locate_iff.mp hl
  obtain ⟨x, hx, hn⟩ := hw.unfollowed (by rw [hy]; nofun)
  rw [makeDirectory, locate_iff.mpr ⟨hc, hs, hx⟩]
  dsimp only
  split
  · rfl
  · rename_i hnone
    exact absurd hnone hn

theorem ensureDirectory_of_isDirectory (h : d.isDirectory p = .ok true) : d.ensureDirectory p = .ok d := by
  simp only [ensureDirectory, makeDirectory_of_isDirectory h, DiskFault.isSystem, ↓reduceIte, h]

theorem makeDirectory_ok (h : d.makeDirectory p = .ok e) :
    ∃ x, d.locate false p = .ok x ∧ d.lookup? x = none ∧ x ≠ [] ∧ e = d.put x .directory := by
  unfold makeDirectory at h
  split at h
  · cases h
  · rename_i x hl
    split at h
    · cases h
    · rename_i hnone
      cases h
      refine ⟨x, hl, hnone, ?_, rfl⟩
      rintro rfl
      cases hnone

/-- Directories were added where nothing stood, each at a place where `f` has one. -/
structure Fills (f d e : Disk) : Prop where
  spread : ∀ x, e.lookup? x = d.lookup? x ∨
    d.lookup? x = none ∧ e.lookup? x = some .directory ∧ f.lookup? x = some .directory

theorem Fills.refl (f d : Disk) : Fills f d d := ⟨fun _ => Or.inl rfl⟩

/-- A disk whose file is filled in has all that it had. -/
theorem Fills.extends (h : Fills f d e) : Extends d e where
  directory x hd := by
    rcases h.spread x with he | ⟨hn, -, -⟩
    · rw [he, hd]
    · rw [hd] at hn
      cases hn
  link x target hl := by
    rcases h.spread x with he | ⟨hn, -, -⟩
    · rw [he, hl]
    · rw [hl] at hn
      cases hn
  file x bytes hf := by
    rcases h.spread x with he | ⟨hn, -, -⟩
    · exact ⟨bytes, by rw [he, hf]⟩
    · rw [hf] at hn
      cases hn
  noLink x target hl := by
    rcases h.spread x with he | ⟨-, hd, -⟩
    · rw [← he, hl]
    · rw [hd] at hl
      cases hl

theorem Fills.trans {g : Disk} (h : Fills f d e) (h' : Fills f e g) : Fills f d g := by
  constructor
  intro x
  rcases h'.spread x with he' | ⟨hn', hd', hf'⟩
  · rw [he']
    exact h.spread x
  · rcases h.spread x with he | ⟨-, hd, -⟩
    · exact Or.inr ⟨by rw [← he, hn'], hd', hf'⟩
    · rw [hd] at hn'
      cases hn'

/-- Directories can be made where `d` has them: nothing stands there, or a directory does. -/
def Room (d e : Disk) : Prop :=
  ∀ x, d.lookup? x = some .directory → e.lookup? x = none ∨ e.lookup? x = some .directory

theorem Fills.mono (h : Fills d e e') (hx : Extends d f) : Fills f e e' :=
  ⟨fun x => (h.spread x).imp_right fun ⟨hn, he, hd⟩ => ⟨hn, he, hx.directory x hd⟩⟩

theorem fills_put (hx : x ≠ []) (hn : e.lookup? x = none) (hf : f.lookup? x = some .directory) :
    Fills f e (e.put x .directory) := by
  constructor
  intro y
  by_cases hy : y = x
  · subst hy
    exact Or.inr ⟨hn, lookup?_put_self e hx, hf⟩
  · exact Or.inl (lookup?_put_of_ne e hy)

/-- A directory that the larger disk has may be put into the smaller one. -/
theorem Extends.put_directory (h : Extends d e) (hx : x ≠ [])
    (he : e.lookup? x = some .directory) : Extends (d.put x .directory) e where
  directory y hd := by
    by_cases hy : y = x
    · rw [hy, he]
    · rw [lookup?_put_of_ne d hy] at hd
      exact h.directory y hd
  link y target hl := by
    by_cases hy : y = x
    · rw [hy, lookup?_put_self d hx] at hl
      cases hl
    · rw [lookup?_put_of_ne d hy] at hl
      exact h.link y target hl
  file y bytes hf := by
    by_cases hy : y = x
    · rw [hy, lookup?_put_self d hx] at hf
      cases hf
    · rw [lookup?_put_of_ne d hy] at hf
      exact h.file y bytes hf
  noLink y target hl := by
    by_cases hy : y = x
    · rw [hy, he] at hl
      cases hl
    · rw [lookup?_put_of_ne d hy]
      exact h.noLink y target hl

/-- A directory is made, or was there. -/
theorem ensureDirectory_ok (h : d.ensureDirectory p = .ok e) :
    d.makeDirectory p = .ok e ∨ e = d ∧ d.isDirectory p = .ok true := by
  unfold ensureDirectory at h
  split at h
  · rename_i hm
    cases h
    exact Or.inl hm
  · split at h
    · split at h
      · rename_i hd
        cases h
        exact Or.inr ⟨rfl, hd⟩
      · cases h
      · cases h
    · cases h

theorem ensureDirectory_of_makeDirectory (h : d.makeDirectory p = .ok e) : d.ensureDirectory p = .ok e := by
  simp only [ensureDirectory, h]

theorem ensureDirectory_locate (h : d.ensureDirectory p = .ok e) : ∃ x, d.locate false p = .ok x := by
  rcases ensureDirectory_ok h with hm | ⟨rfl, hp⟩
  · obtain ⟨x, hl, -⟩ := makeDirectory_ok hm
    exact ⟨x, hl⟩
  · obtain ⟨y, hl, hy⟩ := isDirectory_iff.mp hp
    obtain ⟨hc, hs, hw⟩ := locate_iff.mp hl
    obtain ⟨x, hx, -⟩ := hw.unfollowed (by rw [hy]; nofun)
    exact ⟨x, locate_iff.mpr ⟨hc, hs, hx⟩⟩

theorem ensureDirectory_fills (h : d.ensureDirectory p = .ok e) : Fills e d e := by
  rcases ensureDirectory_ok h with hm | ⟨rfl, -⟩
  · obtain ⟨x, -, hn, hx, rfl⟩ := makeDirectory_ok hm
    exact fills_put hx hn (lookup?_put_self d hx)
  · exact Fills.refl e e

/-- A directory that was made, or is one, can be made or is one on a disk that holds more and has room for it. -/
theorem ensureDirectory_extends {d' : Disk} (h : Extends d e) (hd : d.ensureDirectory p = .ok d') (room : Room d' e) :
    ∃ e', e.ensureDirectory p = .ok e' ∧ Extends d' e' ∧ Fills d' e e' := by
  rcases ensureDirectory_ok hd with hm | ⟨rfl, hp⟩
  · obtain ⟨x, hl, hn, hx, rfl⟩ := makeDirectory_ok hm
    have hl' := locate_extends h hl
    rcases room x (lookup?_put_self d hx) with he | he
    · have hmake : e.makeDirectory p = .ok (e.put x .directory) := by simp only [makeDirectory, hl', he]
      have hfills : Fills (d.put x .directory) e (e.put x .directory) := fills_put hx he (lookup?_put_self d hx)
      exact ⟨_, ensureDirectory_of_makeDirectory hmake,
        (h.trans hfills.extends).put_directory hx (lookup?_put_self e hx), hfills⟩
    · have hp := isDirectory_iff.mpr ⟨x, locate_followed hl' he, he⟩
      exact ⟨e, ensureDirectory_of_isDirectory hp, h.put_directory hx he, Fills.refl _ e⟩
  · obtain ⟨x, hl, hx⟩ := isDirectory_iff.mp hp
    have hp' := isDirectory_iff.mpr ⟨x, locate_extends h hl, h.directory x hx⟩
    exact ⟨e, ensureDirectory_of_isDirectory hp', h, Fills.refl _ e⟩

/-- What can be found once directories were added was found before, or was missing. -/
theorem Walks.before (h : Fills f d e) (hw : Walks e follow n at_ rest x) :
    (∃ y, Walks d follow n at_ rest y) ∨ walkLinks d follow n at_ rest = .error .noEntry := by
  induction hw with
  | done => exact Or.inl ⟨_, .done⟩
  | up tail ih =>
    rw [walkLinks_up]
    exact ih.imp_left fun ⟨y, hy⟩ => ⟨y, .up hy⟩
  | @down n at_ x name rest notUp size here tail ih =>
    rcases h.spread (at_ ++ [name]) with he | ⟨hn, -, -⟩
    · rw [he] at here
      rw [walkLinks_down _ _ _ _ _ notUp size here]
      exact ih.imp_left fun ⟨y, hy⟩ => ⟨y, .down notUp size here hy⟩
    · by_cases hr : rest = []
      · subst hr
        exact Or.inl ⟨_, .last notUp size (Or.inl hn)⟩
      · exact Or.inr (walkLinks_missing _ _ _ _ _ notUp size hn hr)
  | @last n at_ name notUp size here =>
    rcases h.spread (at_ ++ [name]) with he | ⟨-, hd, -⟩
    · exact Or.inl ⟨_, .last notUp size (he ▸ here)⟩
    · rw [hd] at here
      rcases here with here | ⟨bytes, here⟩ <;> cases here
  | stay notUp size here unfollowed => exact Or.inl ⟨_, .stay notUp size (h.extends.noLink _ _ here) unfollowed⟩
  | link notUp size here followed tail ih =>
    have here' := h.extends.noLink _ _ here
    rw [walkLinks_link _ _ _ _ _ notUp size here' followed]
    exact ih.imp_left fun ⟨y, hy⟩ => ⟨y, .link notUp size here' followed hy⟩

section
variable {root : Text} {init names outer : List Text}

theorem nameSize_le {t u : Text} (h : t <+: u) : nameSize t ≤ nameSize u := by
  obtain ⟨v, rfl⟩ := h
  simp [nameSize, Utf8.encodeAny]

theorem joinWith_concat (init : List Text) (name : Text) :
    Text.joinWith [Path.slash] init <+: Text.joinWith [Path.slash] (init ++ [name]) := by
  induction init with
  | nil => exact List.nil_prefix
  | cons c init ih =>
    cases init with
    | nil =>
      rw [List.singleton_append, Text.joinWith, Text.joinWith, List.intercalate_cons_cons, List.append_assoc]
      simp
    | cons c' init =>
      rw [List.cons_append, List.cons_append, Text.joinWith, Text.joinWith, List.intercalate_cons_cons,
        List.intercalate_cons_cons]
      exact (List.prefix_append_right_inj _).mpr ih

/-- The text of a path starts with the text of what is above, but for a dot. -/
theorem text_parent (root : Text) (init : List Text) (name : Text) :
    Path.text ⟨root, init⟩ = "." ∨ Path.text ⟨root, init⟩ <+: Path.text ⟨root, init ++ [name]⟩ := by
  have htext (q : List Text) (hq : q ≠ [] ∨ root ≠ []) :
      Path.text ⟨root, q⟩ = root ++ Text.joinWith [Path.slash] q := by
    unfold Path.text
    split
    · rename_i hr hp
      rcases hq with hq | hq
      · exact absurd hp hq
      · exact absurd hr hq
    · rfl
  by_cases hempty : init = [] ∧ root = []
  · obtain ⟨rfl, rfl⟩ := hempty
    exact Or.inl rfl
  · rw [not_and_or] at hempty
    rw [htext init hempty, htext (init ++ [name]) (Or.inl (by simp))]
    exact Or.inr ((List.prefix_append_right_inj root).mpr (joinWith_concat init name))

/-- A path that leads somewhere has a directory above it. -/
theorem isDirectory_parent (h : d.locate follow ⟨root, init ++ [name]⟩ = .ok x) :
    d.isDirectory ⟨root, init⟩ = .ok true := by
  obtain ⟨hc, hs, hw⟩ := locate_iff.mp h
  obtain ⟨y, hy, hsolid⟩ := hw.parent (Solid.root d)
  have hc' : checkPath ⟨root, init⟩ = .ok () := by
    rw [checkPath, checkText_ok_iff] at hc ⊢
    rcases text_parent root init name with he | hp
    · rw [he]
      intro c hm
      obtain rfl := List.mem_singleton.mp hm
      decide
    · exact fun c hm => hc c (hp.subset hm)
  have hs' : nameSize (Path.text ⟨root, init⟩) < maxPath := by
    rcases text_parent root init name with he | hp
    · rw [he]
      decide
    · exact Nat.lt_of_le_of_lt (nameSize_le hp) hs
  exact isDirectory_iff.mpr ⟨y, locate_iff.mpr ⟨hc', hs', hy⟩, hsolid.self⟩

/-- Making a directory and those above it does nothing where it is one. -/
theorem ensureBelow_of_isDirectory (h : d.isDirectory ⟨root, names.reverse⟩ = .ok true) :
    ensureBelow root names d = (d, .ok ()) := by
  cases names with
  | nil =>
    have hd := ensureDirectory_of_isDirectory h
    rw [List.reverse_nil] at hd
    simp only [ensureBelow, hd]
  | cons name outer =>
    simp only [ensureBelow, makeDirectory_of_isDirectory h, DiskFault.isSystem, ↓reduceIte, h]

/-- The outermost directories are made first. -/
theorem ensureBelow_outer (h : ensureBelow root (name :: outer) d = (e, .ok ())) :
    ∃ d₁, ensureBelow root outer d = (d₁, .ok ()) ∧
      d₁.ensureDirectory ⟨root, (name :: outer).reverse⟩ = .ok e := by
  have habove {x : Place} {follow : Bool} (hl : d.locate follow ⟨root, (name :: outer).reverse⟩ = .ok x) :
      ensureBelow root outer d = (d, .ok ()) := by
    rw [List.reverse_cons] at hl
    exact ensureBelow_of_isDirectory (isDirectory_parent hl)
  unfold ensureBelow at h
  dsimp only at h
  split at h
  · rename_i d' hm
    cases h
    obtain ⟨x, hl, -⟩ := makeDirectory_ok hm
    exact ⟨d, habove hl, ensureDirectory_of_makeDirectory hm⟩
  · split at h
    · simp at h
    · rename_i d₁ _ hb
      split at h
      · rename_i hd
        cases h
        exact ⟨d₁, hb, hd⟩
      · simp at h
  · split at h
    · split at h
      · rename_i hp
        cases h
        obtain ⟨x, hl, -⟩ := isDirectory_iff.mp hp
        exact ⟨d, habove hl, ensureDirectory_of_isDirectory hp⟩
      · simp at h
      · simp at h
    · simp at h

theorem ensureBelow_fills (h : ensureBelow root names d = (e, .ok ())) : Fills e d e := by
  induction names generalizing e with
  | nil =>
    unfold ensureBelow at h
    split at h
    · rename_i hd
      cases h
      exact ensureDirectory_fills hd
    · simp at h
  | cons name outer ih =>
    obtain ⟨d₁, hb, hd⟩ := ensureBelow_outer h
    have hlast := ensureDirectory_fills hd
    exact ((ih hb).mono hlast.extends).trans hlast

/-- Whether a directory is tried first or those above it come first, it is made. -/
theorem ensureBelow_of_outer {d₁ : Disk} (hb : ensureBelow root outer d = (d₁, .ok ()))
    (hd : d₁.ensureDirectory ⟨root, (name :: outer).reverse⟩ = .ok e) :
    ensureBelow root (name :: outer) d = (e, .ok ()) := by
  have habove {x : Place} (hl : d.locate false ⟨root, (name :: outer).reverse⟩ = .ok x) : d₁ = d := by
    rw [List.reverse_cons] at hl
    rw [ensureBelow_of_isDirectory (isDirectory_parent hl)] at hb
    exact (Prod.mk.inj hb).1.symm
  unfold ensureBelow
  dsimp only
  split
  · rename_i d' hm
    obtain ⟨x, hl, -⟩ := makeDirectory_ok hm
    rw [habove hl, ensureDirectory_of_makeDirectory hm] at hd
    cases hd
    rfl
  · rw [hb]
    dsimp only
    rw [hd]
  · rename_i fault hentry hm
    obtain ⟨x, hl⟩ := ensureDirectory_locate hd
    obtain ⟨hc, hs, hw⟩ := locate_iff.mp hl
    rcases hw.before (ensureBelow_fills hb) with ⟨y, hy⟩ | hmissing
    · rw [habove (locate_iff.mpr ⟨hc, hs, hy⟩)] at hd
      rcases ensureDirectory_ok hd with hm' | ⟨rfl, hp⟩
      · rw [hm] at hm'
        cases hm'
      · rw [makeDirectory_of_isDirectory hp] at hm
        cases hm
        simp only [DiskFault.isSystem, ↓reduceIte, hp]
    · have hl' : d.locate false ⟨root, (name :: outer).reverse⟩ =
          .error (.system .noEntry ⟨root, (name :: outer).reverse⟩) := by
        simp only [locate, hc, Nat.not_le.mpr hs, ↓reduceIte, hmissing]
      rw [makeDirectory, hl'] at hm
      cases hm
      exact absurd rfl (hentry _)

/-- Directories that can be made on a disk can be made on one that holds more and has room for them. -/
theorem ensureBelow_extends {d' : Disk} (h : Extends d e) (hd : ensureBelow root names d = (d', .ok ()))
    (room : Room d' e) :
    ∃ e', ensureBelow root names e = (e', .ok ()) ∧ Extends d' e' ∧ Fills d' e e' := by
  induction names generalizing d' with
  | nil =>
    unfold ensureBelow at hd ⊢
    split at hd
    · rename_i hd'
      cases hd
      obtain ⟨e', he, hx, hf⟩ := ensureDirectory_extends h hd' room
      exact ⟨e', by rw [he], hx, hf⟩
    · simp at hd
  | cons name outer ih =>
    obtain ⟨d₁, hb, hlast⟩ := ensureBelow_outer hd
    have hmore := (ensureDirectory_fills hlast).extends
    obtain ⟨e₁, hb', hx₁, hf₁⟩ := ih hb fun x hx => room x (hmore.directory x hx)
    have hf₁' := hf₁.mono hmore
    have room₁ : Room d' e₁ := by
      intro x hx
      rcases hf₁.spread x with he | ⟨-, he, -⟩
      · rw [he]
        exact room x hx
      · exact Or.inr he
    obtain ⟨e', hlast', hx, hf⟩ := ensureDirectory_extends hx₁ hlast room₁
    exact ⟨e', ensureBelow_of_outer hb' hlast', hx, hf₁'.trans hf⟩

end

theorem ensureDirectories_fills (h : d.ensureDirectories p = (e, .ok ())) : Fills e d e := ensureBelow_fills h

theorem ensureDirectories_extends {d' : Disk} (h : Extends d e) (hd : d.ensureDirectories p = (d', .ok ()))
    (room : Room d' e) :
    ∃ e', e.ensureDirectories p = (e', .ok ()) ∧ Extends d' e' ∧ Fills d' e e' :=
  ensureBelow_extends h hd room

/-- A file can be opened where no directory stands, and is empty then. -/
theorem openForWriting_iff : d.openForWriting p = .ok (x, e) ↔
    d.locate true p = .ok x ∧ d.lookup? x ≠ some .directory ∧ e = d.put x (.file []) := by
  unfold openForWriting
  cases hl : d.locate true p with
  | error fault => simp
  | ok y =>
    simp only [Except.ok.injEq]
    split
    · rename_i hd
      simp only [reduceCtorEq, false_iff]
      rintro ⟨rfl, hfree, -⟩
      exact hfree hd
    · rename_i hfree
      simp only [Except.ok.injEq, Prod.mk.injEq]
      constructor
      · rintro ⟨rfl, rfl⟩
        exact ⟨rfl, hfree, rfl⟩
      · rintro ⟨rfl, -, rfl⟩
        exact ⟨rfl, rfl⟩

/-- What is missing from the larger disk is missing from the smaller one. -/
theorem Extends.none (h : Extends d e) (he : e.lookup? x = none) : d.lookup? x = none := by
  cases hd : d.lookup? x with
  | none => rfl
  | some entry =>
    cases entry with
    | directory =>
      rw [h.directory x hd] at he
      cases he
    | link target =>
      rw [h.link x target hd] at he
      cases he
    | file bytes =>
      obtain ⟨bytes', hf⟩ := h.file x bytes hd
      rw [hf] at he
      cases he

/-- A file may be put where no directory and no link stands. -/
theorem extends_put_file (hd : d.lookup? x ≠ some .directory) (hl : ∀ target, d.lookup? x ≠ some (.link target))
    (bytes : Bytes) : Extends d (d.put x (.file bytes)) := by
  have hx : x ≠ [] := by
    rintro rfl
    exact hd rfl
  refine ⟨fun y hy => ?_, fun y target hy => ?_, fun y other hy => ?_, fun y target hy => ?_⟩
  · have hne : y ≠ x := by
      rintro rfl
      exact hd hy
    rw [lookup?_put_of_ne d hne, hy]
  · have hne : y ≠ x := by
      rintro rfl
      exact hl target hy
    rw [lookup?_put_of_ne d hne, hy]
  · by_cases hne : y = x
    · exact ⟨bytes, by rw [hne, lookup?_put_self d hx]⟩
    · exact ⟨other, by rw [lookup?_put_of_ne d hne, hy]⟩
  · by_cases hne : y = x
    · rw [hne, lookup?_put_self d hx] at hy
      cases hy
    · rw [lookup?_put_of_ne d hne] at hy
      exact hy

theorem locate_not_link (h : d.locate true p = .ok x) (target : Text) : d.lookup? x ≠ some (.link target) :=
  (locate_iff.mp h).2.2.not_link (Solid.root d) target

/-- A text that has bytes is written where the file is opened. -/
theorem writeText_opened_ok {bytes : Bytes} {t : Text} (h : d.openForWriting p = .ok (x, e))
    (ht : Utf8.encode t = .ok bytes) : d.writeText p t = (e.put x (.file bytes), .ok ()) := by
  simp only [writeText, h, ht]

/-- Writing a text that has bytes changes what stands where the path leads, and every path leads where it led. -/
theorem writeText_located {bytes : Bytes} {t : Text} (hl : d.locate true p = .ok x)
    (hfree : d.lookup? x ≠ some .directory) (ht : Utf8.encode t = .ok bytes) :
    ∃ e, d.writeText p t = (e, .ok ()) ∧ Extends d e ∧ e.lookup? x = some (.file bytes) ∧
      ∀ y, y ≠ x → e.lookup? y = d.lookup? y := by
  have hx : x ≠ [] := by
    rintro rfl
    exact hfree rfl
  have hopen : d.openForWriting p = .ok (x, d.put x (.file [])) := openForWriting_iff.mpr ⟨hl, hfree, rfl⟩
  refine ⟨_, writeText_opened_ok hopen ht, ?_, lookup?_put_self _ hx, fun y hy => ?_⟩
  · have hopened := extends_put_file hfree (locate_not_link hl) []
    apply hopened.trans
    apply extends_put_file <;> simp [lookup?_put_self _ hx]
  · rw [lookup?_put_of_ne _ hy, lookup?_put_of_ne _ hy]

end CodeAgent.Disk
