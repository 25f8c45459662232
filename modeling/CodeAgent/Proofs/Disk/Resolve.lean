import CodeAgent.Proofs.Disk.Inside
import Mathlib.Data.Nat.Find

namespace CodeAgent.Disk

variable {d : Disk} {p : Path} {x y at_ : Place} {a b rest : List Text} {name target : Text} {follow : Bool} {n m : Nat}
variable {following : List Place} {e : Entry}

theorem Walks.eq_of_nil (h : Walks d follow n at_ [] x) : x = at_ := by
  cases h
  rfl

theorem Walks.mono (h : Walks d follow n at_ rest x) (hn : n ≤ m) : Walks d follow m at_ rest x := by
  induction h generalizing m with
  | done => exact .done
  | up _ ih => exact .up (ih hn)
  | down notUp size here _ ih => exact .down notUp size here (ih hn)
  | last notUp size here => exact .last notUp size here
  | stay notUp size here unfollowed => exact .stay notUp size here unfollowed
  | link notUp size here followed _ ih =>
    obtain ⟨k, rfl⟩ : ∃ k, m = k + 1 := ⟨m - 1, by omega⟩
    exact .link notUp size here followed (ih (Nat.le_of_succ_le_succ hn))

/-- A walk by two rows of names is one by the first and then one by the second, and the links are shared out. -/
theorem Walks.split (h : Walks d true n at_ (a ++ b) x) (hat : d.Solid at_) : ∃ y k, k ≤ n ∧
    Walks d true k at_ a y ∧ Walks d true (n - k) y b x ∧ (d.Solid y ∨ b = []) := by
  generalize hl : a ++ b = names at h
  induction h generalizing a with
  | done =>
    obtain ⟨rfl, rfl⟩ := List.append_eq_nil_iff.mp hl
    exact ⟨_, 0, Nat.zero_le _, .done, .done, Or.inl hat⟩
  | up tail ih =>
    cases a with
    | nil =>
      cases hl
      exact ⟨_, 0, Nat.zero_le _, .done, .up tail, Or.inl hat⟩
    | cons name a =>
      cases hl
      obtain ⟨y, k, hk, hfirst, hsecond, hy⟩ := ih hat.up rfl
      exact ⟨y, k, hk, .up hfirst, hsecond, hy⟩
  | down notUp size here tail ih =>
    cases a with
    | nil =>
      cases hl
      exact ⟨_, 0, Nat.zero_le _, .done, .down notUp size here tail, Or.inl hat⟩
    | cons name a =>
      cases hl
      obtain ⟨y, k, hk, hfirst, hsecond, hy⟩ := ih (hat.down here) rfl
      exact ⟨y, k, hk, .down notUp size here hfirst, hsecond, hy⟩
  | last notUp size here =>
    cases a with
    | nil =>
      cases hl
      exact ⟨_, 0, Nat.zero_le _, .done, .last notUp size here, Or.inl hat⟩
    | cons name a =>
      obtain ⟨rfl, hnil⟩ := List.cons_eq_cons.mp hl
      obtain ⟨rfl, rfl⟩ := List.append_eq_nil_iff.mp hnil
      exact ⟨_, 0, Nat.zero_le _, .last notUp size here, .done, Or.inr rfl⟩
  | stay _ _ _ unfollowed => cases unfollowed
  | @link n at_ x name target rest notUp size here followed tail ih =>
    cases a with
    | nil =>
      cases hl
      exact ⟨_, 0, Nat.zero_le _, .done, .link notUp size here followed tail, Or.inl hat⟩
    | cons name a =>
      cases hl
      obtain ⟨y, k, hk, hfirst, hsecond, hy⟩ := ih (hat.start _) (List.append_assoc _ _ _)
      refine ⟨y, k + 1, Nat.succ_le_succ hk, .link notUp size here (Or.inr rfl) hfirst, ?_, hy⟩
      rwa [Nat.add_sub_add_right]

section
variable (d m following at_ rest)

theorem rewriteLinks_up :
    rewriteLinks d m following at_ ((".." : Text) :: rest) = rewriteLinks d m following at_.dropLast rest := by
  cases m <;>
  · rw [rewriteLinks, rewrite, if_pos rfl]

variable (notUp : name ≠ (".." : Text)) (accepted : checkPath ⟨[Path.slash], at_ ++ [name]⟩ = .ok ())
include notUp accepted

theorem rewriteLinks_plain (here : ∀ target, d.lookup? (at_ ++ [name]) ≠ some (.link target)) :
    rewriteLinks d m following at_ (name :: rest) = rewriteLinks d m following (at_ ++ [name]) rest := by
  cases m <;>
  · rw [rewriteLinks, rewrite, if_neg notUp]
    simp only [accepted]

theorem rewriteLinks_link (here : d.lookup? (at_ ++ [name]) = some (.link target)) (hnew : at_ ++ [name] ∉ following)
    (he : rewriteLinks d m ((at_ ++ [name]) :: following) (if (Path.ofText target).isAbsolute then [] else at_)
      (Path.ofText target).parts = .ok y) :
    rewriteLinks d (m + 1) following at_ (name :: rest) = rewriteLinks d (m + 1) following y rest := by
  rw [rewriteLinks, rewrite, if_neg notUp]
  simp only [accepted, here, hnew, he, ↓reduceIte]

end

/-- A path is resolved one part after the other. -/
theorem rewrite_append {enter : Place → Place → List Text → Except Stuck Place}
    (h : rewrite d enter at_ a = .ok y) : rewrite d enter at_ (a ++ b) = rewrite d enter y b := by
  induction a generalizing at_ with
  | nil =>
    cases h
    rfl
  | cons name a ih =>
    rw [rewrite] at h
    rw [List.cons_append, rewrite]
    split at h
    · rename_i hup
      rw [if_pos hup, ih h]
    rename_i hup
    rw [if_neg hup]
    dsimp only at h ⊢
    split at h
    · cases h
    split at h
    · split at h
      · exact ih h
      · cases h
      · cases h
    · exact ih h

theorem rewriteLinks_append (h : rewriteLinks d m following at_ a = .ok y) :
    rewriteLinks d m following at_ (a ++ b) = rewriteLinks d m following y b := by
  cases m <;> exact rewrite_append h

/-- Where links are being followed, each stands on the disk, and within `n` links none of them leads anywhere. -/
structure Pursuit (d : Disk) (m n : Nat) (following : List Place) : Prop where
  distinct : following.Nodup
  stand : following ⊆ Table.keys d.entries
  room : d.entries.length ≤ m + following.length
  astray : ∀ start name target, start ++ [name] ∈ following → d.lookup? (start ++ [name]) = some (.link target) →
    ∀ k < n, ∀ y, ¬ Walks d true k (if (Path.ofText target).isAbsolute then [] else start) (Path.ofText target).parts y

theorem Pursuit.mono {k : Nat} (h : Pursuit d m n following) (hk : k ≤ n) : Pursuit d m k following :=
  { h with astray := fun start name target hm hl j hj => h.astray start name target hm hl j (Nat.lt_of_lt_of_le hj hk) }

/-- There is room for one link more. -/
theorem Pursuit.succ (h : Pursuit d m n following) (hx : x ∈ Table.keys d.entries) (hnew : x ∉ following) :
    ∃ k, m = k + 1 := by
  have hlength := (List.nodup_cons.mpr ⟨hnew, h.distinct⟩).length_le_of_subset (List.cons_subset.mpr ⟨hx, h.stand⟩)
  have hroom := h.room
  simp only [List.length_cons, Table.keys, List.length_map] at hlength
  exact ⟨m - 1, by omega⟩

/-- A link that is followed with as few links as lead anywhere joins those that are being followed. -/
theorem Pursuit.add {j : Nat} (h : Pursuit d (m + 1) n following) (hnew : at_ ++ [name] ∉ following)
    (here : d.lookup? (at_ ++ [name]) = some (.link target)) (hj : j ≤ n)
    (hleast : ∀ i < j, ∀ y,
      ¬ Walks d true i (if (Path.ofText target).isAbsolute then [] else at_) (Path.ofText target).parts y) :
    Pursuit d m j ((at_ ++ [name]) :: following) where
  distinct := List.nodup_cons.mpr ⟨hnew, h.distinct⟩
  stand := List.cons_subset.mpr
    ⟨List.mem_map_of_mem (f := Prod.fst) (mem_of_lookup? here (by simp)), h.stand⟩
  room := by
    have := h.room
    simp only [List.length_cons]
    omega
  astray start name' target' hm hl i hi z hz := by
    rcases List.mem_cons.mp hm with he | hm
    · obtain ⟨rfl, hname⟩ := List.append_inj' he rfl
      obtain rfl := List.singleton_inj.mp hname
      rw [here] at hl
      cases hl
      exact hleast i hi z hz
    · exact h.astray start name' target' hm hl i (Nat.lt_of_lt_of_le hi hj) z hz

/-- Of the walks by a row of names one gets by with the fewest links. -/
theorem Walks.least (h : Walks d true n at_ a x) :
    ∃ k ≤ n, Walks d true k at_ a x ∧ ∀ i < k, ∀ y, ¬ Walks d true i at_ a y := by
  classical
  have hsome : ∃ k y, Walks d true k at_ a y := ⟨n, x, h⟩
  obtain ⟨y, hleast⟩ := Nat.find_spec hsome
  have hmin : Nat.find hsome ≤ n := Nat.find_min' hsome ⟨x, h⟩
  obtain rfl : y = x := (hleast.mono hmin).unique h
  exact ⟨Nat.find hsome, hmin, hleast, fun i hi z hz => Nat.find_min hsome hi ⟨z, hz⟩⟩

/-- What a walk finds is found by rewriting, whatever links are being followed. -/
theorem Walks.rewriteLinks (hclean : ∀ entry ∈ d.entries, ∀ name ∈ entry.1, IsAccepted name)
    (h : Walks d true n at_ rest x) (hat : d.Solid at_) (hx : d.lookup? x ≠ none) (hp : Pursuit d m n following) :
    rewriteLinks d m following at_ rest = .ok x := by
  have haccepted {z : Place} (hz : d.lookup? z ≠ none) : checkPath ⟨[Path.slash], z⟩ = .ok () := by
    obtain ⟨e, he⟩ := Option.ne_none_iff_exists'.mp hz
    rw [checkPath_ok_iff]
    by_cases hnil : z = []
    · simp [hnil]
    · exact hclean _ (mem_of_lookup? he hnil)
  -- On the links that are left, and between two links on the names. A link is followed with as few links as lead
  -- anywhere, so that it is not met again on the way.
  induction n using Nat.strong_induction_on generalizing at_ rest x m following with
  | _ n ihn =>
    induction rest generalizing at_ with
    | nil =>
      cases h
      cases m <;> rfl
    | cons name rest ih =>
      cases h with
      | up tail =>
        rw [rewriteLinks_up]
        exact ih tail hat.up
      | down notUp size here tail =>
        rw [rewriteLinks_plain _ _ _ _ _ notUp (haccepted (by simp [here])) (by simp [here])]
        exact ih tail (hat.down here)
      | last notUp size here =>
        have hlink : ∀ target, d.lookup? (at_ ++ [name]) ≠ some (.link target) := by
          rcases here with here | ⟨bytes, here⟩ <;> simp [here]
        rw [rewriteLinks_plain _ _ _ _ _ notUp (haccepted hx) hlink]
        cases m <;> rfl
      | stay _ _ _ unfollowed => cases unfollowed
      | @link k _ _ _ target _ notUp size here followed tail =>
        obtain ⟨y, i, hi, hway, hrest, hy⟩ := tail.split (hat.start _)
        have hnew : at_ ++ [name] ∉ following := fun hm =>
          hp.astray at_ name target hm here i (Nat.lt_succ_of_le hi) y hway
        have hkey : at_ ++ [name] ∈ Table.keys d.entries :=
          List.mem_map_of_mem (f := Prod.fst) (mem_of_lookup? here (by simp))
        obtain ⟨m, rfl⟩ := hp.succ hkey hnew
        obtain ⟨j, hmin, hfewest, hleast⟩ := hway.least
        have hpursuit : Pursuit d m j ((at_ ++ [name]) :: following) := hp.add hnew here (by omega) hleast
        have hthere : d.lookup? y ≠ none := by
          rcases hy with hy | hy
          · simp [hy.self]
          · subst hy
            exact hrest.eq_of_nil ▸ hx
        have hfirst := ihn j (by omega) hfewest (hat.start _) hthere hpursuit
        rw [rewriteLinks_link _ _ _ _ _ notUp (haccepted (by simp [here])) here hnew hfirst]
        rcases hy with hy | hy
        · exact ihn (k - i) (by omega) hrest hy hx (hp.mono (by omega))
        · subst hy
          rw [hrest.eq_of_nil]
          rfl

theorem resolve_iff : d.resolve p = .ok ⟨[Path.slash], x⟩ ↔ rewriteLinks d d.entries.length [] [] p.parts = .ok x := by
  unfold resolve
  cases rewriteLinks d d.entries.length [] [] p.parts with
  | ok place => simp
  | error stuck => cases stuck <;> simp

/-- A path that leads to an entry is rewritten to its place. -/
theorem resolve_of_locate (hclean : ∀ entry ∈ d.entries, ∀ name ∈ entry.1, IsAccepted name)
    (h : d.locate true p = .ok x) (hx : d.lookup? x ≠ none) : d.resolve p = .ok ⟨[Path.slash], x⟩ := by
  obtain ⟨-, -, hwalks⟩ := locate_iff.mp h
  have hpursuit : Pursuit d d.entries.length maxLinks [] := ⟨List.nodup_nil, by simp, by simp, by simp⟩
  exact resolve_iff.mpr (hwalks.rewriteLinks hclean (Solid.root d) hx hpursuit)

/-- Below the place that a path is rewritten to, names that cross no link are kept. -/
theorem resolve_join (h : d.resolve p = .ok ⟨[Path.slash], x⟩) (hplain : d.Plain (x ++ rest))
    (haccepted : ∀ name ∈ x ++ rest, IsAccepted name) :
    d.resolve (p.join ⟨[], rest⟩) = .ok ⟨[Path.slash], x ++ rest⟩ := by
  have hparts : (p.join ⟨[], rest⟩).parts = p.parts ++ rest := rfl
  have hlinks : ∃ enter, rewriteLinks d d.entries.length [] x rest = rewrite d enter x rest := by
    cases d.entries.length <;> exact ⟨_, rfl⟩
  obtain ⟨enter, henter⟩ := hlinks
  rw [resolve_iff, hparts, rewriteLinks_append (resolve_iff.mp h), henter]
  obtain ⟨hx, hrest⟩ := List.forall_mem_append.mp haccepted
  rcases rewrite_plain enter hplain hx with ⟨-, hr⟩ | ⟨hnot, -⟩
  · exact hr
  · exact absurd hrest hnot

end CodeAgent.Disk
