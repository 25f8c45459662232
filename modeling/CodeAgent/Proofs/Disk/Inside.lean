import CodeAgent.Proofs.Disk.Extend

namespace CodeAgent.Disk

variable {d e : Disk} {p dir : Path} {x y at_ : Place} {rest init : List Text} {name : Text} {follow : Bool} {n : Nat}

theorem Walks.unique (h : Walks d follow n at_ rest x) (h' : Walks d follow n at_ rest y) : x = y := by
  rw [← walks_iff] at h h'
  rw [h] at h'
  exact Except.ok.inj h'

theorem locate_unique (h : d.locate follow p = .ok x) (h' : d.locate follow p = .ok y) : x = y := by
  rw [h] at h'
  exact Except.ok.inj h'

/-- A walk that ends is by names that are short enough. -/
theorem Walks.sizes (h : Walks d follow n at_ rest x) : ∀ name ∈ rest, nameSize name ≤ maxName := by
  induction h with
  | done => simp
  | up tail ih => exact List.forall_mem_cons.mpr ⟨by decide, ih⟩
  | down _ size _ _ ih => exact List.forall_mem_cons.mpr ⟨size, ih⟩
  | last _ size => simpa using size
  | stay _ size => simpa using size
  | link _ size _ _ _ ih => exact List.forall_mem_cons.mpr ⟨size, fun name hm => ih name (List.mem_append_right _ hm)⟩

theorem locate_nameable (h : d.locate follow p = .ok x) : Nameable p := by
  obtain ⟨hc, hs, hw⟩ := locate_iff.mp h
  exact ⟨hc, hs, hw.sizes⟩

/-- A walk to a directory has directories only above its end. -/
theorem Walks.solid (h : Walks d follow n at_ rest x) (hat : d.Solid at_) (hx : d.lookup? x = some .directory) :
    d.Solid x := by
  induction h with
  | done => exact hat
  | up tail ih => exact ih hat.up hx
  | down _ _ here tail ih => exact ih (hat.down here) hx
  | last _ _ here =>
    rw [hx] at here
    rcases here with here | ⟨bytes, here⟩ <;> cases here
  | stay _ _ here =>
    rw [hx] at here
    cases here
  | link _ _ _ _ tail ih => exact ih (hat.start _) hx

/-- Where a path leads to a directory, a name more leads to what stands there under the name. -/
theorem Walks.child (h : Walks d true n at_ init x) (hx : d.lookup? x = some .directory) (hup : name ≠ (".." : Text))
    (hsize : nameSize name ≤ maxName) (hl : follow = true → ∀ target, d.lookup? (x ++ [name]) ≠ some (.link target)) :
    Walks d follow n at_ (init ++ [name]) (x ++ [name]) := by
  induction h with
  | done =>
    rename_i n at_
    cases he : d.lookup? (at_ ++ [name]) with
    | none => exact .last hup hsize (Or.inl he)
    | some entry =>
      cases entry with
      | file bytes => exact .last hup hsize (Or.inr ⟨bytes, he⟩)
      | directory => exact .down hup hsize he .done
      | link target =>
        cases follow with
        | false => exact .stay hup hsize he rfl
        | true => exact absurd he (hl rfl target)
  | up tail ih => exact .up (ih hx hl)
  | down notUp size here tail ih => exact .down notUp size here (ih hx hl)
  | last _ _ here =>
    rw [hx] at here
    rcases here with here | ⟨bytes, here⟩ <;> cases here
  | stay _ _ _ unfollowed => cases unfollowed
  | link notUp size here followed tail ih =>
    refine .link notUp size here (Or.inl (by simp)) ?_
    have htail := ih hx hl
    rwa [List.append_assoc] at htail

/-- What stands before the last name of a path leads to a directory, and the name to what is inside it, unless
it leads up or is that of a link. -/
theorem Walks.inside (h : Walks d follow n at_ (init ++ [name]) y) (hat : d.Solid at_) :
    ∃ x, Walks d true n at_ init x ∧ d.Solid x ∧
      (name = (".." : Text) ∧ d.Solid y ∨ name ≠ (".." : Text) ∧
        (y = x ++ [name] ∨ follow = true ∧ ∃ target, d.lookup? (x ++ [name]) = some (.link target))) := by
  generalize hrest : init ++ [name] = rest at h
  induction h generalizing init with
  | done => simp at hrest
  | up tail ih =>
    cases init with
    | nil =>
      obtain ⟨rfl, rfl⟩ := List.cons.inj hrest
      cases tail
      exact ⟨_, .done, hat, Or.inl ⟨rfl, hat.up⟩⟩
    | cons c init =>
      obtain ⟨rfl, rfl⟩ := List.cons.inj hrest
      obtain ⟨x, hx, hs, hy⟩ := ih hat.up rfl
      exact ⟨x, .up hx, hs, hy⟩
  | down notUp size here tail ih =>
    cases init with
    | nil =>
      obtain ⟨rfl, rfl⟩ := List.cons.inj hrest
      cases tail
      exact ⟨_, .done, hat, Or.inr ⟨notUp, Or.inl rfl⟩⟩
    | cons c init =>
      obtain ⟨rfl, rfl⟩ := List.cons.inj hrest
      obtain ⟨x, hx, hs, hy⟩ := ih (hat.down here) rfl
      exact ⟨x, .down notUp size here hx, hs, hy⟩
  | last notUp =>
    cases init with
    | nil =>
      obtain ⟨rfl, -⟩ := List.cons.inj hrest
      exact ⟨_, .done, hat, Or.inr ⟨notUp, Or.inl rfl⟩⟩
    | cons c init => simp at hrest
  | stay notUp =>
    cases init with
    | nil =>
      obtain ⟨rfl, -⟩ := List.cons.inj hrest
      exact ⟨_, .done, hat, Or.inr ⟨notUp, Or.inl rfl⟩⟩
    | cons c init => simp at hrest
  | link notUp size here followed tail ih =>
    cases init with
    | nil =>
      obtain ⟨rfl, rfl⟩ := List.cons.inj hrest
      exact ⟨_, .done, hat, Or.inr ⟨notUp, Or.inr ⟨followed.resolve_left (by simp), _, here⟩⟩⟩
    | cons c init =>
      obtain ⟨rfl, rfl⟩ := List.cons.inj hrest
      obtain ⟨x, hx, hs, hy⟩ := ih (hat.start _) (List.append_assoc _ _ _)
      exact ⟨x, .link notUp size here (Or.inr rfl) hx, hs, hy⟩

/-- A path leads to a directory. -/
structure Leads (d : Disk) (p : Path) (x : Place) : Prop where
  located : d.locate true p = .ok x
  directory : d.lookup? x = some .directory

theorem Leads.isDirectory (h : d.Leads p x) : d.isDirectory p = .ok true :=
  isDirectory_iff.mpr ⟨x, h.located, h.directory⟩

theorem Leads.solid (h : d.Leads p x) : d.Solid x :=
  (locate_iff.mp h.located).2.2.solid (Solid.root d) h.directory

theorem Leads.extends (h : d.Leads p x) (hx : Extends d e) : e.Leads p x :=
  ⟨locate_extends hx h.located, hx.directory x h.directory⟩

section
variable (h : d.Leads dir x)
include h

/-- A name in a directory is located there. -/
theorem Leads.locate_child (hn : Nameable (dir.child name)) (hup : name ≠ (".." : Text))
    (hl : follow = true → ∀ target, d.lookup? (x ++ [name]) ≠ some (.link target)) :
    d.locate follow (dir.child name) = .ok (x ++ [name]) := by
  refine locate_iff.mpr ⟨hn.accepted, hn.size, ?_⟩
  exact (locate_iff.mp h.located).2.2.child h.directory hup (hn.names name (by simp [Path.child])) hl

theorem Leads.locate_child_iff (hup : name ≠ (".." : Text)) :
    d.locate false (dir.child name) = .ok y ↔ Nameable (dir.child name) ∧ y = x ++ [name] := by
  constructor
  · intro hy
    have hn := locate_nameable hy
    exact ⟨hn, locate_unique hy (h.locate_child hn hup (by simp))⟩
  · rintro ⟨hn, rfl⟩
    exact h.locate_child hn hup (by simp)

/-- Whether something stands under a name in a directory. -/
theorem Leads.stands_child (hup : name ≠ (".." : Text)) :
    d.stands (dir.child name) = true ↔ Nameable (dir.child name) ∧ d.lookup? (x ++ [name]) ≠ none := by
  unfold stands
  split
  · rename_i y hy
    obtain ⟨hn, rfl⟩ := (h.locate_child_iff hup).mp hy
    rw [Option.isSome_iff_ne_none]
    exact (and_iff_right hn).symm
  · rename_i fault hfault
    simp only [Bool.false_eq_true, false_iff, not_and]
    intro hn
    rw [(h.locate_child_iff hup).mpr ⟨hn, rfl⟩] at hfault
    cases hfault

end

/-- What is found under a path and is not a directory stands in one, under the last name of the path. -/
theorem locate_inside (hl : d.locate false p = .ok y) (hfree : d.lookup? y ≠ some .directory) :
    ∃ init name x, p.parts = init ++ [name] ∧ name ≠ (".." : Text) ∧ Walks d true maxLinks [] init x ∧ d.Solid x ∧
      y = x ++ [name] := by
  obtain ⟨-, -, hw⟩ := locate_iff.mp hl
  rcases List.eq_nil_or_concat p.parts with hnil | ⟨init, name, hconcat⟩
  · rw [hnil] at hw
    cases hw
    exact absurd rfl hfree
  · rw [List.concat_eq_append] at hconcat
    rw [hconcat] at hw
    obtain ⟨x, hx, hsolid, ⟨-, hy⟩ | ⟨hup, rfl | ⟨hfollow, -⟩⟩⟩ := hw.inside (Solid.root d)
    · exact absurd hy.self hfree
    · exact ⟨init, name, x, hconcat, hup, hx, hsolid, rfl⟩
    · cases hfollow

/-- The same where the directory above the path is known. -/
theorem Leads.child_of_locate (h : d.Leads p.parent x) (hl : d.locate false p = .ok y)
    (hfree : d.lookup? y ≠ some .directory) :
    ∃ name, p = p.parent.child name ∧ name ≠ (".." : Text) ∧ y = x ++ [name] := by
  obtain ⟨init, name, x', hparts, hup, hx', -, rfl⟩ := locate_inside hl hfree
  obtain ⟨-, -, hx⟩ := locate_iff.mp h.located
  have hinit : p.parent.parts = init := by simp [Path.parent, hparts]
  rw [hinit] at hx
  obtain rfl := hx'.unique hx
  refine ⟨name, ?_, hup, rfl⟩
  obtain ⟨root, parts⟩ := p
  dsimp only at hparts
  subst hparts
  simp [Path.parent, Path.child]

/-- A new directory stands in a directory, under the last name of its path. -/
theorem makeDirectory_inside (h : d.makeDirectory p = .ok e) :
    ∃ init name x, p.parts = init ++ [name] ∧ name ≠ (".." : Text) ∧ Nameable p ∧ d.Solid x ∧
      d.lookup? (x ++ [name]) = none ∧ e = d.put (x ++ [name]) .directory := by
  obtain ⟨y, hl, hnone, -, rfl⟩ := makeDirectory_ok h
  obtain ⟨init, name, x, hparts, hup, -, hsolid, rfl⟩ := locate_inside hl (by simp [hnone])
  exact ⟨init, name, x, hparts, hup, locate_nameable hl, hsolid, hnone, rfl⟩

section
variable {root : Text} {names : List Text} {P : Disk → Prop}

/-- What the making of one directory keeps, the making of a directory and those above it keeps. -/
theorem ensureBelow_induct
    (hmake : ∀ p : Path, p.parts <+: names.reverse → ∀ d e, P d → d.makeDirectory p = .ok e → P e)
    (h : ensureBelow root names d = (e, .ok ())) (hd : P d) : P e := by
  have hstep {p : Path} {d e : Disk} (hp : p.parts <+: names.reverse) (hd : P d) (h : d.ensureDirectory p = .ok e) :
      P e := by
    rcases ensureDirectory_ok h with hm | ⟨rfl, -⟩
    · exact hmake p hp d e hd hm
    · exact hd
  induction names generalizing e with
  | nil =>
    unfold ensureBelow at h
    split at h
    · rename_i hlast
      cases h
      exact hstep List.prefix_rfl hd hlast
    · simp at h
  | cons name outer ih =>
    obtain ⟨d₁, hb, hlast⟩ := ensureBelow_outer h
    have habove : outer.reverse <+: (name :: outer).reverse := by
      rw [List.reverse_cons]
      exact List.prefix_append _ _
    have houter : P d₁ := by
      refine ih (fun p hp => hmake p (hp.trans habove)) hb fun hp => ?_
      exact hstep (hp.trans habove)
    exact hstep List.prefix_rfl houter hlast

theorem isDirectory_of_ensureDirectory (h : d.ensureDirectory p = .ok e) : e.isDirectory p = .ok true := by
  rcases ensureDirectory_ok h with hm | ⟨rfl, hp⟩
  · obtain ⟨x, hl, hnone, hx, rfl⟩ := makeDirectory_ok hm
    have hmore := (fills_put hx hnone (lookup?_put_self d hx)).extends
    have hd : (d.put x .directory).lookup? x = some .directory := lookup?_put_self d hx
    exact isDirectory_iff.mpr ⟨x, locate_followed (locate_extends hmore hl) hd, hd⟩
  · exact hp

/-- The directories that were made lead to a place. -/
theorem leads_of_ensureDirectories (h : d.ensureDirectories p = (e, .ok ())) : ∃ x, e.Leads p x := by
  have hp : e.isDirectory p = .ok true := by
    obtain ⟨root, parts⟩ := p
    unfold ensureDirectories at h
    dsimp only at h
    cases hr : parts.reverse with
    | nil =>
      rw [hr] at h
      obtain rfl := List.reverse_eq_nil_iff.mp hr
      unfold ensureBelow at h
      split at h
      · rename_i hd
        cases h
        exact isDirectory_of_ensureDirectory hd
      · simp at h
    | cons name outer =>
      rw [hr] at h
      obtain ⟨d₁, -, hlast⟩ := ensureBelow_outer h
      rw [← hr, List.reverse_reverse] at hlast
      exact isDirectory_of_ensureDirectory hlast
  obtain ⟨x, hl, hx⟩ := isDirectory_iff.mp hp
  exact ⟨x, hl, hx⟩

theorem Leads.ensureDirectories (h : d.Leads p x) : d.ensureDirectories p = (d, .ok ()) := by
  refine ensureBelow_of_isDirectory ?_
  rw [List.reverse_reverse]
  exact h.isDirectory

theorem ensureDirectories_induct
    (hmake : ∀ q : Path, q.parts <+: p.parts → ∀ d e, P d → d.makeDirectory q = .ok e → P e)
    (h : d.ensureDirectories p = (e, .ok ())) (hd : P d) : P e :=
  ensureBelow_induct (fun q hq => hmake q (List.reverse_reverse p.parts ▸ hq)) h hd

end

/-- A disk as a system keeps it: a tree, with one entry at a place, under names that can be asked about. -/
structure Tidy (d : Disk) : Prop where
  tree : d.IsTree
  distinct : (Table.keys d.entries).Nodup
  clean : ∀ entry ∈ d.entries, Clean entry.1

theorem Tidy.clean_of_lookup (h : d.Tidy) {entry : Entry} (hx : d.lookup? x = some entry) : Clean x := by
  by_cases hempty : x = []
  · exact hempty ▸ ⟨by simp, by simp⟩
  · exact h.clean _ (mem_of_lookup? hx hempty)

/-- A disk stays tidy when an entry is put into one of its directories. -/
theorem Tidy.put (h : d.Tidy) {entry : Entry} (hx : d.lookup? x = some .directory) (hname : IsName name)
    (ha : IsAccepted name) (hfree : d.lookup? (x ++ [name]) = some .directory → entry = .directory) :
    (d.put (x ++ [name]) entry).Tidy := by
  have hclean : Clean (x ++ [name]) := by
    obtain ⟨hnames, haccepted⟩ := h.clean_of_lookup hx
    refine ⟨fun part hm => ?_, fun part hm => ?_⟩
    · rcases List.mem_append.mp hm with hm | hm
      · exact hnames part hm
      · exact List.mem_singleton.mp hm ▸ hname
    · rcases List.mem_append.mp hm with hm | hm
      · exact haccepted part hm
      · exact List.mem_singleton.mp hm ▸ ha
  refine ⟨h.tree.put (by rwa [List.dropLast_concat]) hfree, Table.nodup_keys_set h.distinct _ _, ?_⟩
  intro entry hm
  rcases Table.mem_set hm with hm | rfl
  · exact h.clean entry hm
  · exact hclean

/-- Directories at written paths keep a disk tidy. -/
theorem Tidy.ensureDirectories (h : d.Tidy) (hp : p.Written) (hd : d.ensureDirectories p = (e, .ok ())) : e.Tidy := by
  refine ensureDirectories_induct (fun q hq d e htidy hmake => ?_) hd h
  obtain ⟨init, name, x, hparts, hup, hn, hsolid, hnone, rfl⟩ := makeDirectory_inside hmake
  have hm : name ∈ q.parts := by simp [hparts]
  refine htidy.put hsolid.self ⟨hp.parts name (hq.subset hm), hup⟩ (accepted_of_checkPath hn.accepted name hm)
      fun _ => rfl

/-- Making directories grows a disk, whatever links lead to them. -/
theorem ensureDirectories_grown (h : d.ensureDirectories p = (e, .ok ())) : Grows [] d e := by
  refine ensureDirectories_induct (fun q _ f e hgrows hmake => ?_) h (Touches.refl [] d).toGrows
  obtain ⟨init, name, x, -, -, -, hsolid, hnone, rfl⟩ := makeDirectory_inside hmake
  have hne : x ++ [name] ≠ [] := by simp
  have hfills := fills_put hne hnone (lookup?_put_self (e := .directory) f hne)
  refine hgrows.trans ⟨hfills.extends.noLink, fun tree => ?_, fun y _ => ?_⟩
  · exact tree.put (by rw [List.dropLast_concat]; exact hsolid.self) fun _ => rfl
  · exact (hfills.spread y).imp_right fun ⟨hn, hd, _⟩ => ⟨hn, hd⟩

end CodeAgent.Disk
