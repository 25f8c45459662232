import CodeAgent.Disk.Scan
import CodeAgent.Proofs.Disk.Name

namespace CodeAgent.Disk

variable {d : Disk} {rule : ScanRule} {x y : Place} {e : Entry}

theorem mem_children {name : Text} (h : (name, e) ∈ d.children x) : (x ++ [name], e) ∈ d.entries := by
  obtain ⟨⟨place, e'⟩, hm, hn⟩ := List.mem_filterMap.mp (List.mem_mergeSort.mp h)
  obtain ⟨name', hname, he⟩ := Option.map_eq_some_iff.mp hn
  cases he
  unfold nameIn? at hname
  split at hname
  · rename_i hd
    obtain ⟨parent, rfl⟩ := List.getLast?_eq_some_iff.mp hname
    rw [List.dropLast_concat] at hd
    exact hd ▸ hm
  · cases hname

theorem mem_children_iff {name : Text} : (name, e) ∈ d.children x ↔ (x ++ [name], e) ∈ d.entries := by
  refine ⟨mem_children, fun h => List.mem_mergeSort.mpr (List.mem_filterMap.mpr ⟨(x ++ [name], e), h, ?_⟩)⟩
  simp [nameIn?]

theorem mem_filesBelow {depth : Nat} (h : y ∈ filesBelow d rule depth x) :
    x <+: y ∧ ∃ e, (y, e) ∈ d.entries := by
  induction depth generalizing x with
  | zero => cases h
  | succ n ih =>
    rw [filesBelow] at h
    rcases List.mem_append.mp h with h | h
    · obtain ⟨⟨name, e⟩, hm, rfl⟩ := List.mem_map.mp h
      exact ⟨List.prefix_append x [name], e, mem_children (List.mem_filter.mp hm).1⟩
    · obtain ⟨⟨name, e⟩, hm, hy⟩ := List.mem_flatMap.mp h
      obtain ⟨hp, he⟩ := ih hy
      exact ⟨(List.prefix_append x [name]).trans hp, he⟩

/-- A disk as a system keeps it, without links at a root, above it or below it. -/
structure Unlinked (root : Place) (d : Disk) : Prop where
  tree : d.IsTree
  named : ∀ entry ∈ d.entries, ∀ name ∈ entry.1, IsName name
  noLink : ∀ x, x <+: root ∨ root <+: x → ∀ target, d.lookup? x ≠ some (.link target)

/-- Everything at the root or below it is reached without a link. -/
theorem Unlinked.plain {root rest : Place} (h : d.Unlinked root) (hn : ∀ name ∈ root ++ rest, IsName name) :
    d.Plain (root ++ rest) := by
  refine ⟨fun hm => (hn _ hm).notUp rfl, ?_⟩
  intro y hy
  exact h.noLink y (List.prefix_or_prefix_of_prefix hy (List.prefix_append root rest))

/-- What a scan yields stands below its root. -/
theorem mem_sourceFiles {root p : Path} (hu : d.Unlinked root.parts) (hr : Clean root.parts)
    (hroot : root.root = [Path.slash]) (h : p ∈ d.sourceFiles rule root) :
    ∃ rest, p = ⟨[Path.slash], root.parts ++ rest⟩ ∧ (∀ name ∈ root.parts ++ rest, IsName name) ∧
      d.lookup? (root.parts ++ rest) ≠ none := by
  have hplain : d.Plain root.parts := by
    have hnames : ∀ name ∈ root.parts ++ [], IsName name := by simpa using hr.names
    simpa using hu.plain hnames
  unfold sourceFiles at h
  split at h
  · rename_i place hl
    obtain ⟨rfl, -, -⟩ := locate_ok hplain hl
    obtain ⟨y, hy, rfl⟩ := List.mem_map.mp h
    obtain ⟨⟨rest, rfl⟩, e, he⟩ := mem_filesBelow hy
    refine ⟨rest, ?_, hu.named _ he, ?_⟩
    · rw [List.drop_left]
      obtain ⟨r, parts⟩ := root
      obtain rfl : r = [Path.slash] := hroot
      rfl
    · by_cases hempty : root.parts ++ rest = []
      · simp [hempty]
      · rw [lookup?_of_ne hempty, ← Table.mem_keys_iff]
        exact List.mem_map_of_mem (f := Prod.fst) he
  · cases h

/-- A place below a directory at which a scan of the directory yields a file. -/
def ScanRule.Reaches (rule : ScanRule) (x y : Place) : Prop :=
  ∃ dirs name, y = x ++ (dirs ++ [name]) ∧ (∀ dir ∈ dirs, rule.enters dir = true) ∧ rule.keeps name = true

theorem ScanRule.Reaches.outer {name : Text} (hn : rule.enters name = true) (h : rule.Reaches (x ++ [name]) y) :
    rule.Reaches x y := by
  obtain ⟨dirs, last, rfl, hdirs, hlast⟩ := h
  exact ⟨name :: dirs, last, by simp, by simpa using ⟨hn, hdirs⟩, hlast⟩

theorem ScanRule.Reaches.length_lt (h : rule.Reaches x y) : x.length < y.length := by
  obtain ⟨dirs, last, rfl, -⟩ := h
  simp only [List.length_append, List.length_singleton]
  omega

theorem ScanRule.Reaches.ne_nil (h : rule.Reaches x y) : y ≠ [] := by
  obtain ⟨dirs, last, rfl, -⟩ := h
  simp

/-- Whatever links there are, a scan yields entries at places that it reaches. -/
theorem reaches_of_mem_filesBelow {depth : Nat} (h : y ∈ filesBelow d rule depth x) : rule.Reaches x y := by
  induction depth generalizing x with
  | zero => cases h
  | succ n ih =>
    rw [filesBelow] at h
    rcases List.mem_append.mp h with h | h
    · obtain ⟨⟨name, e⟩, hm, rfl⟩ := List.mem_map.mp h
      obtain ⟨-, hkeep⟩ := Bool.and_eq_true_iff.mp (List.mem_filter.mp hm).2
      exact ⟨[], name, by simp, by simp, hkeep⟩
    · obtain ⟨⟨name, e⟩, hm, hy⟩ := List.mem_flatMap.mp h
      obtain ⟨-, henter⟩ := Bool.and_eq_true_iff.mp (List.mem_filter.mp hm).2
      exact (ih hy).outer henter

/-- The files that a scan yields are named from its root, by directories that it enters and a name that it keeps. -/
theorem sourceFiles_below {root p : Path} (hn : ∀ entry ∈ d.entries, ∀ name ∈ entry.1, IsName name)
    (h : p ∈ d.sourceFiles rule root) :
    ∃ dirs name, p = root.join ⟨[], dirs ++ [name]⟩ ∧ (∀ dir ∈ dirs, rule.enters dir = true) ∧
      rule.keeps name = true ∧ ∀ part ∈ dirs ++ [name], IsName part := by
  unfold sourceFiles at h
  split at h
  · rename_i place hl
    obtain ⟨y, hy, rfl⟩ := List.mem_map.mp h
    obtain ⟨dirs, name, rfl, hdirs, hkeep⟩ := reaches_of_mem_filesBelow hy
    obtain ⟨-, e, he⟩ := mem_filesBelow hy
    rw [List.drop_left]
    exact ⟨dirs, name, rfl, hdirs, hkeep, fun part hm => hn _ he part (List.mem_append_right _ hm)⟩
  · cases h

/-- A disk as a system keeps it, with a directory to which no link leads and below which no link stands
where a scan would take it for a file. -/
structure Settled (rule : ScanRule) (x : Place) (d : Disk) : Prop where
  tree : d.IsTree
  distinct : (Table.keys d.entries).Nodup
  clean : ∀ entry ∈ d.entries, Clean entry.1
  root : d.Plain x
  noLink : ∀ y, rule.Reaches x y → ∀ target, d.lookup? y ≠ some (.link target)

section
variable {name : Text} {depth : Nat} {bytes : Bytes}

theorem Settled.lookup (h : d.Settled rule x) (hm : (y ++ [name], e) ∈ d.entries) :
    d.lookup? (y ++ [name]) = some e := by
  rw [lookup?_of_ne (by simp)]
  exact Table.get?_of_mem h.distinct hm

theorem Settled.clean_of_lookup (h : d.Settled rule x) (hy : d.lookup? y = some e) : Clean y := by
  by_cases hempty : y = []
  · exact hempty ▸ ⟨by simp, by simp⟩
  · exact h.clean _ (mem_of_lookup? hy hempty)

/-- A file is reached without a link. -/
theorem Settled.plain (h : d.Settled rule x) (hy : d.lookup? y = some (.file bytes)) : d.Plain y := by
  refine ⟨fun hm => ((h.clean_of_lookup hy).names _ hm).notUp rfl, ?_⟩
  intro z hz target hl
  by_cases he : z = y
  · rw [he, hy] at hl
    cases hl
  · rw [h.tree.above hy hz he] at hl
    cases hl

/-- The directories in which a scan looks are settled as well. -/
theorem Settled.enter (h : d.Settled rule x) (hn : rule.enters name = true)
    (hd : d.lookup? (x ++ [name]) = some .directory) : d.Settled rule (x ++ [name]) where
  tree := h.tree
  distinct := h.distinct
  clean := h.clean
  root := h.root.child (((h.clean_of_lookup hd).names name (by simp)).notUp) (by simp [hd])
  noLink y hy := h.noLink y (hy.outer hn)

/-- No place is deeper than the disk. -/
theorem length_le_depth (h : (y, e) ∈ d.entries) : y.length ≤ d.depth := by
  have go (f : Nat → Place × Entry → Nat) (hf : ∀ n entry, n ≤ f n entry ∧ entry.1.length ≤ f n entry)
      (entries : List (Place × Entry)) (n : Nat) :
      n ≤ entries.foldl f n ∧ ∀ entry ∈ entries, entry.1.length ≤ entries.foldl f n := by
    induction entries generalizing n with
    | nil => simp
    | cons entry rest ih =>
      obtain ⟨hn, hlen⟩ := hf n entry
      obtain ⟨hfrom, hrest⟩ := ih (f n entry)
      refine ⟨hn.trans hfrom, ?_⟩
      intro entry' hm
      rcases List.mem_cons.mp hm with rfl | hm
      · exact hlen.trans hfrom
      · exact hrest entry' hm
  exact (go _ (fun n entry => ⟨Nat.le_max_left _ _, Nat.le_max_right _ _⟩) d.entries 0).2 _ h

/-- A scan that is deep enough yields the files at the places that it reaches, and nothing else. -/
theorem mem_filesBelow_iff (h : d.Settled rule x) (hdeep : ∀ entry ∈ d.entries, entry.1.length ≤ x.length + depth) :
    y ∈ filesBelow d rule depth x ↔ rule.Reaches x y ∧ ∃ bytes, d.lookup? y = some (.file bytes) := by
  induction depth generalizing x with
  | zero =>
    simp only [filesBelow, List.not_mem_nil, false_iff]
    rintro ⟨hy, bytes, hl⟩
    have hlength := hdeep _ (mem_of_lookup? hl hy.ne_nil)
    exact absurd hy.length_lt (Nat.not_lt.mpr hlength)
  | succ n ih =>
    have hinner {name : Text} : ∀ entry ∈ d.entries, entry.1.length ≤ (x ++ [name]).length + n := by
      intro entry hm
      have := hdeep entry hm
      simp only [List.length_append, List.length_singleton]
      omega
    rw [filesBelow, List.mem_append]
    constructor
    · rintro (hm | hm)
      · obtain ⟨⟨name, e⟩, hentry, rfl⟩ := List.mem_map.mp hm
        obtain ⟨hchild, hyield⟩ := List.mem_filter.mp hentry
        obtain ⟨hleaf, hkeep⟩ := Bool.and_eq_true_iff.mp hyield
        have hreach : rule.Reaches x (x ++ [name]) := ⟨[], name, by simp, by simp, hkeep⟩
        have hl := h.lookup (mem_children hchild)
        refine ⟨hreach, ?_⟩
        cases e with
        | file bytes => exact ⟨bytes, hl⟩
        | directory => cases hleaf
        | link target => exact absurd hl (h.noLink _ hreach target)
      · obtain ⟨⟨name, e⟩, hentry, hy⟩ := List.mem_flatMap.mp hm
        obtain ⟨hchild, hinto⟩ := List.mem_filter.mp hentry
        obtain ⟨hd, henter⟩ := Bool.and_eq_true_iff.mp hinto
        have hl := h.lookup (mem_children hchild)
        rw [of_decide_eq_true hd] at hl
        obtain ⟨hreach, hfile⟩ := (ih (h.enter henter hl) hinner).mp hy
        exact ⟨hreach.outer henter, hfile⟩
    · rintro ⟨⟨dirs, last, rfl, hdirs, hlast⟩, bytes, hl⟩
      cases dirs with
      | nil =>
        left
        have hm := mem_of_lookup? hl (by simp)
        refine List.mem_map.mpr ⟨(last, .file bytes), List.mem_filter.mpr ⟨mem_children_iff.mpr hm, ?_⟩, rfl⟩
        simpa [isLeaf] using hlast
      | cons dir dirs =>
        right
        obtain ⟨henter, hdirs⟩ := List.forall_mem_cons.mp hdirs
        have hlist : x ++ (dir :: dirs ++ [last]) = x ++ [dir] ++ (dirs ++ [last]) := by simp
        have hd : d.lookup? (x ++ [dir]) = some .directory :=
          h.tree.above hl (hlist ▸ List.prefix_append _ _) (by simp)
        refine List.mem_flatMap.mpr ⟨(dir, .directory), List.mem_filter.mpr ⟨?_, ?_⟩, ?_⟩
        · exact mem_children_iff.mpr (mem_of_lookup? hd (by simp))
        · simpa using henter
        · exact (ih (h.enter henter hd) hinner).mpr ⟨⟨dirs, last, hlist, hdirs, hlast⟩, bytes, hl⟩

end

/-- The source files of a workspace are the files at the places that a scan of its root reaches. -/
theorem mem_sourceFiles_iff {root p : Path} (h : d.Settled rule root.parts) (hroot : root.root = [Path.slash])
    (hn : Nameable root) : p ∈ d.sourceFiles rule root ↔
      p.root = [Path.slash] ∧ rule.Reaches root.parts p.parts ∧ ∃ bytes, d.lookup? p.parts = some (.file bytes) := by
  have hbelow {y : Place} : y ∈ filesBelow d rule (d.depth + 1) root.parts ↔
      rule.Reaches root.parts y ∧ ∃ bytes, d.lookup? y = some (.file bytes) := by
    refine mem_filesBelow_iff h fun entry hm => ?_
    have hlength := length_le_depth hm
    omega
  have hjoin {rest : Place} : root.join ⟨[], (root.parts ++ rest).drop root.parts.length⟩ =
      ⟨[Path.slash], root.parts ++ rest⟩ := by
    rw [List.drop_left, ← hroot]
    rfl
  constructor
  · intro hm
    unfold sourceFiles at hm
    split at hm
    · rename_i place hl
      obtain ⟨rfl, -, -⟩ := locate_ok h.root hl
      obtain ⟨y, hy, rfl⟩ := List.mem_map.mp hm
      obtain ⟨hreach, hfile⟩ := hbelow.mp hy
      obtain ⟨dirs, last, rfl, -⟩ := id hreach
      rw [hjoin]
      exact ⟨rfl, hreach, hfile⟩
    · cases hm
  · rintro ⟨hp, hreach, bytes, hl⟩
    obtain ⟨dirs, last, hparts, -⟩ := id hreach
    have hd : d.lookup? root.parts = some .directory := by
      refine h.tree.above hl (hparts ▸ List.prefix_append _ _) fun he => ?_
      exact absurd hreach.length_lt (by rw [he]; exact Nat.lt_irrefl _)
    unfold sourceFiles
    rw [locate_found h.tree h.root hd hn]
    refine List.mem_map.mpr ⟨p.parts, hbelow.mpr ⟨hreach, bytes, hl⟩, ?_⟩
    rw [hparts, hjoin, ← hparts, ← hp]

/-- No directory hides a file just if a scan that leaves out hidden directories enters all of them. -/
theorem isBehindSkipped_concat (scan : ScanRule) (hscan : scan.hidden = false) (dirs : Place) (name : Text) :
    isBehindSkipped (dirs ++ [name]) = false ↔ ∀ dir ∈ dirs, scan.enters dir = true := by
  simp [isBehindSkipped, ScanRule.enters, hscan]

/-- Whether a path is excluded depends on where it and the root lead. -/
theorem isExcluded_of_resolve {p q root : Path} (hp : d.resolve p = .ok q) (hr : d.resolve root = .ok root) :
    d.isExcluded root p = .ok ((Path.below? root q).all isBehindSkipped) := by
  simp only [isExcluded, hp, hr, Except.map]

end CodeAgent.Disk
