import CodeAgent.Proofs.Disk.Resolve
import CodeAgent.Proofs.Disk.Scan
import Mathlib.Data.List.Nodup

namespace CodeAgent

namespace Text

variable {s t : Text}

/-- Texts are ordered as lists of numbers are. -/
theorem cmp_eq_compareLex (s t : Text) :
    cmp s t = (s.map CodePoint.val).compareLex compare (t.map CodePoint.val) := by
  induction s generalizing t with
  | nil => cases t <;> rfl
  | cons a s ih =>
    cases t with
    | nil => rfl
    | cons b t =>
      rw [cmp, ih, List.map_cons, List.map_cons, List.compareLex_cons_cons]
      rfl

instance : Std.TransCmp cmp where
  eq_swap {s t} := by
    rw [cmp_eq_compareLex, cmp_eq_compareLex]
    exact Std.OrientedCmp.eq_swap
  isLE_trans {r s t} := by
    rw [cmp_eq_compareLex, cmp_eq_compareLex, cmp_eq_compareLex]
    exact Std.TransCmp.isLE_trans

instance : Std.LawfulEqCmp cmp where
  eq_of_compare {s t} h := by
    rw [cmp_eq_compareLex] at h
    have hinjective : Function.Injective CodePoint.val := by
      rintro ⟨a, _⟩ ⟨b, _⟩ rfl
      rfl
    exact hinjective.list_map (Std.LawfulEqCmp.eq_of_compare h)

theorem ble_total (s t : Text) : (ble s t || ble t s) = true := by
  unfold ble
  have hswap : cmp t s = (cmp s t).swap := Std.OrientedCmp.eq_swap
  rw [hswap]
  cases cmp s t <;> rfl

theorem cmp_lt_of_ble (h : ble s t = true) (hne : s ≠ t) : cmp s t = .lt := by
  unfold ble at h
  cases hc : cmp s t with
  | lt => rfl
  | eq => exact absurd (Std.LawfulEqCmp.eq_of_compare hc) hne
  | gt =>
    rw [hc] at h
    cases h

end Text

namespace Disk

variable {d : Disk} {rule : ScanRule} {root p : Path} {x y z rest : Place} {e : Entry} {name : Text} {s t : Place}

/-- Which of two files below a directory a scan yields first, by the names that lead to them. The directory's own
files come by name, and after them what is below its directories, by the names of these. -/
def Before : Place → Place → Prop
  | [a], [b] => Text.cmp a b = .lt
  | [_], _ :: _ :: _ => True
  | a :: a' :: s, b :: b' :: t => Text.cmp a b = .lt ∨ a = b ∧ Before (a' :: s) (b' :: t)
  | _, _ => False

theorem Before.enter (h : Before s t) (name : Text) : Before (name :: s) (name :: t) := by
  cases s with
  | nil => simp [Before] at h
  | cons a s =>
    cases t with
    | nil => simp [Before] at h
    | cons b t => exact Or.inr ⟨rfl, h⟩

theorem Before.ne (h : Before s t) : s ≠ t := by
  rintro rfl
  induction s with
  | nil => simp [Before] at h
  | cons a s ih =>
    have hself : Text.cmp a a ≠ .lt := by simp [Std.ReflCmp.compare_self]
    cases s with
    | nil => exact hself h
    | cons a' s => exact h.elim hself fun h => ih h.2

/-- A directory has no name twice. -/
theorem nodup_children (h : (Table.keys d.entries).Nodup) (x : Place) : ((d.children x).map Prod.fst).Nodup := by
  have hnames : (d.entries.filterMap fun entry => (nameIn? x entry.1).map (·, entry.2)).map Prod.fst =
      (Table.keys d.entries).filterMap (nameIn? x) := by
    rw [List.map_filterMap, Table.keys, List.filterMap_map]
    congr 1
    funext entry
    simp [Function.comp_def]
  refine ((List.mergeSort_perm _ _).map Prod.fst).nodup_iff.mpr ?_
  rw [hnames]
  refine h.filterMap fun a b name ha hb => ?_
  have hplace {at_ : Place} (hn : nameIn? x at_ = some name) : at_ = x ++ [name] := by
    unfold nameIn? at hn
    split at hn
    · rename_i hd
      obtain ⟨parent, rfl⟩ := List.getLast?_eq_some_iff.mp hn
      rw [List.dropLast_concat] at hd
      rw [hd]
    · cases hn
  rw [hplace ha, hplace hb]

/-- The entries of a directory stand in the order of their names. -/
theorem children_ordered (h : (Table.keys d.entries).Nodup) (x : Place) :
    (d.children x).Pairwise fun a b => Text.cmp a.1 b.1 = .lt := by
  have hsorted : (d.children x).Pairwise fun a b => Text.ble a.1 b.1 = true :=
    List.pairwise_mergeSort (fun _ _ _ => Std.TransCmp.isLE_trans) (fun _ _ => Text.ble_total _ _) _
  have hdistinct := List.pairwise_map.mp (nodup_children h x)
  exact (hsorted.and hdistinct).imp fun hab => Text.cmp_lt_of_ble hab.1 hab.2

theorem below_of_mem_filesBelow {depth : Nat} (h : y ∈ filesBelow d rule depth (x ++ [name])) :
    ∃ next rest, y = x ++ name :: next :: rest := by
  obtain ⟨dirs, last, rfl, -⟩ := reaches_of_mem_filesBelow h
  cases dirs with
  | nil => exact ⟨last, [], by simp⟩
  | cons dir dirs => exact ⟨dir, dirs ++ [last], by simp⟩

/-- The files of a directory come before those of its directories, each in name order. -/
theorem filesBelow_ordered (h : (Table.keys d.entries).Nodup) (depth : Nat) (x : Place) :
    (filesBelow d rule depth x).Pairwise fun y z => ∃ s t, y = x ++ s ∧ z = x ++ t ∧ Before s t := by
  induction depth generalizing x with
  | zero => exact List.Pairwise.nil
  | succ n ih =>
    have hnames := children_ordered h x
    rw [filesBelow, List.pairwise_append, List.pairwise_map, List.pairwise_flatMap]
    refine ⟨(hnames.filter _).imp ?_, ⟨?_, (hnames.filter _).imp ?_⟩, ?_⟩
    · rintro ⟨a, _⟩ ⟨b, _⟩ hab
      exact ⟨[a], [b], rfl, rfl, hab⟩
    · rintro ⟨name, _⟩ _
      refine (ih (x ++ [name])).imp ?_
      rintro _ _ ⟨s, t, rfl, rfl, hst⟩
      exact ⟨name :: s, name :: t, by simp, by simp, hst.enter name⟩
    · rintro ⟨a, _⟩ ⟨b, _⟩ hab y hy z hz
      obtain ⟨a', s, rfl⟩ := below_of_mem_filesBelow hy
      obtain ⟨b', t, rfl⟩ := below_of_mem_filesBelow hz
      exact ⟨_, _, rfl, rfl, Or.inl hab⟩
    · intro y hy z hz
      obtain ⟨⟨a, _⟩, -, rfl⟩ := List.mem_map.mp hy
      obtain ⟨⟨b, _⟩, -, hz⟩ := List.mem_flatMap.mp hz
      obtain ⟨b', t, rfl⟩ := below_of_mem_filesBelow hz
      exact ⟨[a], _, rfl, rfl, trivial⟩

/-- A path leads to a directory below which only directories and files stand, whatever links lead to it. -/
structure PlainTree (d : Disk) (root : Path) (x : Place) : Prop extends Tidy d, Leads d root x where
  noLink : ∀ y, x <+: y → ∀ target, d.lookup? y ≠ some (.link target)

theorem PlainTree.plain (h : d.PlainTree root x) (hx : d.lookup? (x ++ rest) = some e) : d.Plain (x ++ rest) := by
  refine ⟨fun hm => ((h.clean_of_lookup hx).names _ hm).notUp rfl, fun y hy target hl => ?_⟩
  rcases List.prefix_or_prefix_of_prefix hy (List.prefix_append x rest) with hyx | hxy
  · rw [h.solid y hyx] at hl
    cases hl
  · exact h.noLink y hxy target hl

theorem PlainTree.settled (h : d.PlainTree root x) (rule : ScanRule) : d.Settled rule x where
  tree := h.tree
  distinct := h.distinct
  clean := h.clean
  root := by
    have hx : d.lookup? (x ++ []) = some .directory := by simpa using h.directory
    simpa using h.plain hx
  noLink y hy := by
    obtain ⟨dirs, last, rfl, -⟩ := hy
    exact h.noLink _ (List.prefix_append x _)

theorem PlainTree.resolve_root (h : d.PlainTree root x) : d.resolve root = .ok ⟨[Path.slash], x⟩ := by
  refine resolve_of_locate (fun entry hm => (h.clean entry hm).accepted) h.located ?_
  simp [h.directory]

theorem PlainTree.resolve_file (h : d.PlainTree root x) (hx : d.lookup? (x ++ rest) = some e) :
    d.resolve (root.join ⟨[], rest⟩) = .ok ⟨[Path.slash], x ++ rest⟩ :=
  resolve_join h.resolve_root (h.plain hx) (h.clean_of_lookup hx).accepted

/-- Of what stands in the tree it can be said whether it is excluded. -/
theorem PlainTree.isExcluded (h : d.PlainTree root x) (hx : d.lookup? (x ++ rest) = some e) :
    d.isExcluded root (root.join ⟨[], rest⟩) = .ok (isBehindSkipped rest) := by
  simp [Disk.isExcluded, h.resolve_file hx, h.resolve_root, Except.map, Path.below?]

theorem PlainTree.sourceFiles (h : d.PlainTree root x) : d.sourceFiles rule root =
    (filesBelow d rule (d.depth + 1) x).map fun y => root.join ⟨[], y.drop x.length⟩ := by
  unfold Disk.sourceFiles
  rw [h.located]

theorem join_injective (root : Path) (h : root.join ⟨[], s⟩ = root.join ⟨[], t⟩) : s = t :=
  List.append_cancel_left (congrArg Path.parts h)

theorem PlainTree.mem_sourceFiles_iff (h : d.PlainTree root x) : p ∈ d.sourceFiles rule root ↔
    ∃ dirs name bytes, p = root.join ⟨[], dirs ++ [name]⟩ ∧ (∀ dir ∈ dirs, rule.enters dir = true) ∧
      rule.keeps name = true ∧ d.lookup? (x ++ (dirs ++ [name])) = some (.file bytes) := by
  have hdeep : ∀ entry ∈ d.entries, entry.1.length ≤ x.length + (d.depth + 1) := by
    intro entry hm
    have := length_le_depth hm
    omega
  rw [h.sourceFiles, List.mem_map]
  simp only [mem_filesBelow_iff (h.settled rule) hdeep]
  constructor
  · rintro ⟨_, ⟨⟨dirs, name, rfl, hdirs, hname⟩, bytes, hfile⟩, rfl⟩
    exact ⟨dirs, name, bytes, by rw [List.drop_left], hdirs, hname, hfile⟩
  · rintro ⟨dirs, name, bytes, rfl, hdirs, hname, hfile⟩
    exact ⟨_, ⟨⟨dirs, name, rfl, hdirs, hname⟩, bytes, hfile⟩, by rw [List.drop_left]⟩

theorem PlainTree.sourceFiles_ordered (h : d.PlainTree root x) : (d.sourceFiles rule root).Pairwise fun p q =>
    ∃ s t, p = root.join ⟨[], s⟩ ∧ q = root.join ⟨[], t⟩ ∧ Before s t := by
  rw [h.sourceFiles, List.pairwise_map]
  refine (filesBelow_ordered h.distinct _ _).imp ?_
  rintro _ _ ⟨s, t, rfl, rfl, hst⟩
  exact ⟨s, t, by rw [List.drop_left], by rw [List.drop_left], hst⟩

theorem PlainTree.nodup_sourceFiles (h : d.PlainTree root x) : (d.sourceFiles rule root).Nodup := by
  refine h.sourceFiles_ordered.imp ?_
  rintro _ _ ⟨s, t, rfl, rfl, hst⟩ he
  exact hst.ne (join_injective root he)

/-- What is to be yielded of a directory: each of its files once if it has one of the extensions that are wanted
and is not excluded, nothing else, and in the order of a scan. -/
structure Yields (d : Disk) (root : Path) (x : Place) (wanted : List Text) (files : List Path) : Prop where
  once : ∀ dirs name bytes, d.lookup? (x ++ (dirs ++ [name])) = some (.file bytes) →
    ∃ excluded, d.isExcluded root (root.join ⟨[], dirs ++ [name]⟩) = .ok excluded ∧
      files.count (root.join ⟨[], dirs ++ [name]⟩) =
        if Text.lower (Path.splitExtension name).2 ∈ wanted ∧ excluded = false then 1 else 0
  only : ∀ p ∈ files, ∃ dirs name bytes, p = root.join ⟨[], dirs ++ [name]⟩ ∧
    d.lookup? (x ++ (dirs ++ [name])) = some (.file bytes)
  ordered : files.Pairwise fun p q => ∃ s t, p = root.join ⟨[], s⟩ ∧ q = root.join ⟨[], t⟩ ∧ Before s t

/-- The scan and the test agree. -/
theorem PlainTree.yields (h : d.PlainTree root x) (wanted : List Text) :
    d.Yields root x wanted (d.sourceFiles { extensions := some wanted } root) where
  once dirs name bytes hfile := by
    refine ⟨_, h.isExcluded hfile, ?_⟩
    rw [h.nodup_sourceFiles.count]
    congr 1
    rw [eq_iff_iff, h.mem_sourceFiles_iff, isBehindSkipped_concat { extensions := some wanted } rfl]
    constructor
    · rintro ⟨dirs', name', _, he, hdirs, hname, -⟩
      obtain ⟨rfl, hlast⟩ := List.append_inj' (join_injective root he) rfl
      obtain rfl := List.singleton_inj.mp hlast
      exact ⟨of_decide_eq_true hname, hdirs⟩
    · rintro ⟨hname, hdirs⟩
      exact ⟨dirs, name, bytes, rfl, hdirs, decide_eq_true hname, hfile⟩
  only p hp := by
    obtain ⟨dirs, name, bytes, rfl, -, -, hfile⟩ := h.mem_sourceFiles_iff.mp hp
    exact ⟨dirs, name, bytes, rfl, hfile⟩
  ordered := h.sourceFiles_ordered

end Disk
end CodeAgent
