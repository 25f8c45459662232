import CodeAgent.Proofs.Disk.Outside
import CodeAgent.Proofs.Disk.Sources

namespace CodeAgent.Disk

variable {d : Disk} {home root p : Path} {x y : Place} {rule : ScanRule} {name : Text} {e : Entry} {n m : Nat}

theorem Reserved.distinct_outside (h : d.Reserved home) : (Table.keys d.outside.entries).Nodup :=
  h.distinct.sublist (List.filter_sublist.map Prod.fst)

/-- Outside, a directory has its entries but the own directory. -/
theorem children_outside (h : d.Reserved home) (hx : Outside x) :
    d.outside.children x = (d.children x).filter fun child => child.1 ≠ ownName := by
  have hnames : (d.outside.entries.filterMap fun entry => (nameIn? x entry.1).map (·, entry.2)) =
      (d.entries.filterMap fun entry => (nameIn? x entry.1).map (·, entry.2)).filter
        fun child => child.1 ≠ ownName := by
    rw [outside, List.filterMap_filter, List.filter_filterMap]
    refine List.filterMap_congr fun entry _ => ?_
    cases hn : nameIn? x entry.1 with
    | none => simp
    | some name =>
      have hplace : entry.1 = x ++ [name] := by
        unfold nameIn? at hn
        split at hn
        · rename_i hd
          obtain ⟨parent, hparent⟩ := List.getLast?_eq_some_iff.mp hn
          rw [hparent, List.dropLast_concat] at hd
          rw [hparent, hd]
        · cases hn
      have hout : Outside entry.1 ↔ name ≠ ownName := by
        rw [hplace, outside_append, outside_cons, and_iff_right hx, and_iff_left Outside.nil]
      by_cases hname : name = ownName <;> simp [hout, hname, Option.filter]
  have hperm : (d.outside.children x).Perm ((d.children x).filter fun child => child.1 ≠ ownName) := by
    refine (List.mergeSort_perm _ _).trans ?_
    change (d.outside.entries.filterMap fun entry => (nameIn? x entry.1).map (·, entry.2)).Perm _
    rw [hnames]
    exact ((List.mergeSort_perm _ _).filter _).symm
  refine hperm.eq_of_pairwise ?_ (children_ordered h.distinct_outside x) ((children_ordered h.distinct x).filter _)
  intro a b _ _ hab hba
  have hswap : Text.cmp b.1 a.1 = (Text.cmp a.1 b.1).swap := Std.OrientedCmp.eq_swap
  rw [hab, hba] at hswap
  cases hswap

theorem isLeaf_outside (h : d.Reserved home) (hx : Outside x) (e : Entry) : d.outside.isLeaf x e = d.isLeaf x e := by
  cases e with
  | directory => rfl
  | file bytes => rfl
  | link target =>
    have hdirectory := isDirectory_outside (p := ⟨[Path.slash], x⟩) h hx
    simp only [isLeaf, hdirectory]

/-- What is kept of a directory is the same outside, if the own directory is not kept. -/
theorem filter_children_outside {keeps keeps' : Text × Entry → Bool} (h : d.Reserved home) (hx : Outside x)
    (hown : ∀ child ∈ d.children x, child.1 = ownName → keeps child = false)
    (hsame : ∀ child ∈ d.children x, child.1 ≠ ownName → keeps' child = keeps child) :
    (d.outside.children x).filter keeps' = (d.children x).filter keeps := by
  rw [children_outside h hx, List.filter_filter]
  refine List.filter_congr fun child hm => ?_
  by_cases hname : child.1 = ownName
  · simp [hname, hown child hm hname]
  · simp [hname, hsame child hm hname]

/-- A scan that skips hidden directories does not see the own ones. -/
theorem filesBelow_outside (h : d.Reserved home) (hr : rule.hidden = false) (hx : Outside x) :
    filesBelow d.outside rule n x = filesBelow d rule n x := by
  induction n generalizing x with
  | zero => rfl
  | succ n ih =>
    have henters : rule.enters ownName = false := by
      have hdot : Text.startsWith ownName '.' = true := by decide
      rw [ScanRule.enters, hr, hdot, Bool.not_true, Bool.or_false, Bool.and_false]
    rw [filesBelow, filesBelow]
    refine congrArg₂ (· ++ ·) (congrArg _ (filter_children_outside h hx ?_ ?_)) ?_
    · rintro ⟨name, e⟩ hm rfl
      rw [h.own x e (mem_children hm)]
      rfl
    · rintro ⟨name, e⟩ hm hname
      dsimp only at hname ⊢
      rw [isLeaf_outside h (hx.child hname)]
    · dsimp only
      rw [filter_children_outside h hx]
      · refine List.flatMap_congr fun child hm => ?_
        obtain ⟨-, hentered⟩ := Bool.and_eq_true_iff.mp (List.mem_filter.mp hm).2
        refine ih (hx.child fun he => ?_)
        rw [he, henters] at hentered
        cases hentered
      · rintro ⟨name, e⟩ hm rfl
        dsimp only
        rw [henters, Bool.and_false]
      · exact fun child hm hname => rfl

/-- Deeper than the entries stand, a scan finds nothing more. -/
theorem filesBelow_room (hdeep : ∀ entry ∈ d.entries, entry.1.length ≤ x.length + n) (hm : n ≤ m) :
    filesBelow d rule m x = filesBelow d rule n x := by
  induction n generalizing m x with
  | zero =>
    have hempty : d.children x = [] := by
      refine List.eq_nil_iff_forall_not_mem.mpr fun child hc => ?_
      obtain ⟨name, e⟩ := child
      have := hdeep _ (mem_children hc)
      simp only [List.length_append, List.length_singleton] at this
      omega
    cases m with
    | zero => rfl
    | succ m =>
      rw [filesBelow, filesBelow, hempty]
      rfl
  | succ n ih =>
    obtain ⟨m, rfl⟩ : ∃ k, m = k + 1 := ⟨m - 1, by omega⟩
    rw [filesBelow, filesBelow]
    refine congrArg _ (List.flatMap_congr fun child _ => ih (fun entry hentry => ?_) (by omega))
    have := hdeep entry hentry
    simp only [List.length_append, List.length_singleton]
    omega

/-- The source files of a root outside are the same without the own directories. -/
theorem sourceFiles_outside (h : d.Reserved home) (hr : rule.hidden = false) (hroot : Outside root.parts) :
    d.outside.sourceFiles rule root = d.sourceFiles rule root := by
  have hdeep (d : Disk) (x : Place) : ∀ entry ∈ d.entries, entry.1.length ≤ x.length + (d.depth + 1) := by
    intro entry hm
    have := length_le_depth hm
    omega
  rw [sourceFiles, sourceFiles, locate_outside h hroot]
  cases hl : d.locate true root with
  | error fault => rfl
  | ok x =>
    have hx := locate_ok_outside h hroot hl
    have hsame : filesBelow d.outside rule (d.outside.depth + 1) x = filesBelow d rule (d.depth + 1) x := by
      rw [← filesBelow_room (hdeep d.outside x) (Nat.le_max_left _ (d.depth + 1)), filesBelow_outside h hr hx,
        filesBelow_room (hdeep d x) (Nat.le_max_right _ _)]
    dsimp only
    rw [hsame]

/-- What a scan yields is not in an own directory. -/
theorem outside_of_mem_sourceFiles (h : d.Reserved home) (hr : rule.hidden = false) (hroot : Outside root.parts)
    (hp : p ∈ d.sourceFiles rule root) : Outside p.parts := by
  rw [← sourceFiles_outside h hr hroot] at hp
  unfold sourceFiles at hp
  split at hp
  · obtain ⟨y, hy, rfl⟩ := List.mem_map.mp hp
    obtain ⟨-, e, he⟩ := mem_filesBelow hy
    have hout : Outside y := of_decide_eq_true (List.mem_filter.mp he).2
    exact outside_append.mpr ⟨hroot, fun hm => hout (List.mem_of_mem_drop hm)⟩
  · cases hp

theorem isExcluded_outside (h : d.Reserved home) (hroot : Outside root.parts) (hp : Outside p.parts) :
    d.outside.isExcluded root p = d.isExcluded root p := by
  rw [isExcluded, isExcluded, resolve_outside h hp, resolve_outside h hroot]

/-- The names in a directory in which no own directory stands. -/
theorem listing_outside (h : d.Reserved home) (hp : Outside p.parts)
    (hfree : ∀ x, d.locate true p = .ok x → d.lookup? (x ++ [ownName]) = none) :
    d.outside.listing p = d.listing p ∧ ∀ names, d.listing p = .ok names → Outside names := by
  rw [listing, listing, locate_outside h hp]
  cases hl : d.locate true p with
  | error fault => exact ⟨rfl, nofun⟩
  | ok x =>
    have hx := locate_ok_outside h hp hl
    have hnames : ∀ child ∈ d.children x, child.1 ≠ ownName := by
      intro child hm he
      obtain ⟨name, e⟩ := child
      obtain rfl : name = ownName := he
      have hnone := hfree x hl
      rw [lookup?_of_ne (by simp)] at hnone
      exact Table.mem_keys_iff.mp (List.mem_map_of_mem (f := Prod.fst) (mem_children hm)) hnone
    have hsame : d.outside.children x = d.children x := by
      rw [children_outside h hx, List.filter_eq_self]
      exact fun child hm => decide_eq_true (hnames child hm)
    dsimp only
    rw [lookup?_outside hx, hsame]
    refine ⟨rfl, fun names hn => ?_⟩
    split at hn
    · cases hn
      refine forall_ne_iff.mp fun name hm => ?_
      obtain ⟨child, hchild, rfl⟩ := List.mem_map.mp hm
      exact hnames child hchild
    · cases hn
    · cases hn

end CodeAgent.Disk
