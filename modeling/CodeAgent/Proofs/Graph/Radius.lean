import CodeAgent.Proofs.Graph.History
import Mathlib.Data.List.Nodup
import Mathlib.Tactic.Tauto

namespace CodeAgent.Graph

variable {g g' : Graph} {start p q r : Path} {i j k : Nat} {seen ring : List Path}

/-- An edge of the graph: the first file is a node, and the second is one of its dependents. -/
def Edge (g : Graph) (p q : Path) : Prop := ∃ n, g.node? p = some n ∧ q ∈ n.dependents

/-- A chain of so many edges. -/
inductive Chain (g : Graph) (start : Path) : Nat → Path → Prop
  | nil : Chain g start 0 start
  | step {k : Nat} {p q : Path} (h : Chain g start k p) (he : g.Edge p q) : Chain g start (k + 1) q

/-- So many edges lead to a file, and no smaller number but zero does. -/
structure Nearest (g : Graph) (start : Path) (k : Nat) (p : Path) : Prop where
  chain : g.Chain start k p
  least : ∀ j, 1 ≤ j → g.Chain start j p → k ≤ j

def Sets (g : Graph) : Prop := ∀ p n, g.node? p = some n → n.dependents.Nodup

theorem Chain.node (h : g.Chain start k p) (hk : 1 ≤ k) : (g.node? start).isSome = true := by
  induction h with
  | nil => exact absurd hk (by decide)
  | @step k p q h he ih =>
    cases h with
    | nil =>
      obtain ⟨n, hn, -⟩ := he
      exact Option.isSome_of_eq_some hn
    | step => exact ih (Nat.le_add_left 1 _)

theorem Nearest.unique (h : g.Nearest start i p) (h' : g.Nearest start j p) (hi : 1 ≤ i) (hj : 1 ≤ j) : i = j :=
  Nat.le_antisymm (h.least j hj h'.chain) (h'.least i hi h.chain)

theorem Chain.exists_nearest (h : g.Chain start k p) (hk : 1 ≤ k) :
    ∃ j, 1 ≤ j ∧ j ≤ k ∧ g.Nearest start j p := by
  induction k using Nat.strong_induction_on with
  | h k ih =>
    by_cases hnearer : ∃ j, 1 ≤ j ∧ j < k ∧ g.Chain start j p
    · obtain ⟨j, hj, hlt, hchain⟩ := hnearer
      obtain ⟨i, hi, hij, hnearest⟩ := ih j hlt hchain hj
      exact ⟨i, hi, hij.trans hlt.le, hnearest⟩
    · refine ⟨k, hk, le_rfl, h, fun j hj hchain => ?_⟩
      by_contra hlt
      exact hnearer ⟨j, hj, not_le.mp hlt, hchain⟩

/-- The file before the last one of a shortest chain is itself at the end of a shortest chain. -/
theorem Nearest.before (h : g.Nearest start (k + 1) q) : ∃ p, g.Edge p q ∧ g.Nearest start k p := by
  obtain ⟨hchain, hleast⟩ := h
  cases hchain with
  | @step _ p _ hp he =>
    refine ⟨p, he, hp, fun j hj hshort => ?_⟩
    have hlonger := hleast (j + 1) (Nat.le_add_left 1 j) (.step hshort he)
    omega

/-- What lies somewhere has files before it at every smaller distance. -/
theorem Nearest.closer (h : g.Nearest start j q) (hkj : k ≤ j) : ∃ p, g.Nearest start k p := by
  induction j generalizing q with
  | zero =>
    obtain rfl : k = 0 := Nat.le_zero.mp hkj
    exact ⟨q, h⟩
  | succ j ih =>
    rcases Nat.eq_or_lt_of_le hkj with rfl | hlt
    · exact ⟨q, h⟩
    · obtain ⟨p, -, hp⟩ := h.before
      exact ih hp (Nat.lt_succ_iff.mp hlt)

theorem mem_newDependents : q ∈ g.newDependents seen p ↔ q ∉ seen ∧ g.Edge p q := by
  unfold newDependents Edge sortedPaths
  cases hn : g.node? p with
  | none => simp
  | some n => simp [and_comm]

theorem Sets.newDependents (h : g.Sets) (seen : List Path) (p : Path) : (g.newDependents seen p).Nodup := by
  unfold Graph.newDependents sortedPaths
  cases hn : g.node? p with
  | none => exact List.nodup_nil
  | some n => exact ((List.mergeSort_perm n.dependents Path.ble).nodup_iff.mpr (h p n hn)).filter _

theorem mem_nextRing : q ∈ g.nextRing seen ring ↔ q ∉ seen ∧ ∃ p ∈ ring, g.Edge p q := by
  induction ring generalizing seen with
  | nil => simp [nextRing]
  | cons p rest ih =>
    rw [nextRing, List.mem_append, ih, List.mem_append, mem_newDependents]
    simp only [List.mem_cons, exists_eq_or_imp]
    tauto

theorem Sets.nextRing (h : g.Sets) (seen ring : List Path) : (g.nextRing seen ring).Nodup := by
  induction ring generalizing seen with
  | nil => exact List.nodup_nil
  | cons p rest ih =>
    refine List.Nodup.append (h.newDependents seen p) (ih _) fun q hnew hlater => ?_
    exact (mem_nextRing.mp hlater).1 (List.mem_append_right seen hnew)

/-- How far a search has come: what it has seen lies within a distance, and its last ring at that distance. -/
structure Ringed (g : Graph) (start : Path) (k : Nat) (seen ring : List Path) : Prop where
  seen : ∀ p, p ∈ seen ↔ ∃ j, 1 ≤ j ∧ j ≤ k ∧ g.Chain start j p
  ring : ∀ p, p ∈ ring ↔ g.Nearest start k p

theorem ringed_start (g : Graph) (start : Path) : g.Ringed start 0 [] [start] where
  seen p := by
    simp only [List.not_mem_nil, false_iff, not_exists]
    omega
  ring p := by
    rw [List.mem_singleton]
    constructor
    · rintro rfl
      exact ⟨.nil, fun j _ _ => Nat.zero_le j⟩
    · rintro ⟨hchain, -⟩
      cases hchain
      rfl

/-- The step of the search: the next ring is what lies one edge further. -/
theorem Ringed.mem_nextRing (h : g.Ringed start k seen ring) :
    q ∈ g.nextRing seen ring ↔ g.Nearest start (k + 1) q := by
  rw [Graph.mem_nextRing, h.seen]
  constructor
  · rintro ⟨hunseen, p, hp, he⟩
    refine ⟨.step ((h.ring p).mp hp).chain he, fun j hj hchain => ?_⟩
    by_contra hlt
    exact hunseen ⟨j, hj, by omega, hchain⟩
  · intro hq
    obtain ⟨p, he, hp⟩ := hq.before
    refine ⟨?_, p, (h.ring p).mpr hp, he⟩
    rintro ⟨j, hj, hjk, hchain⟩
    have hfar := hq.least j hj hchain
    omega

/-- The next ring is one import further from the start. -/
theorem Ringed.next (h : g.Ringed start k seen ring) :
    g.Ringed start (k + 1) (seen ++ g.nextRing seen ring) (g.nextRing seen ring) where
  ring _ := h.mem_nextRing
  seen p := by
    rw [List.mem_append, h.mem_nextRing, h.seen]
    constructor
    · rintro (⟨j, hj, hjk, hchain⟩ | hp)
      · exact ⟨j, hj, Nat.le_succ_of_le hjk, hchain⟩
      · exact ⟨k + 1, Nat.le_add_left 1 k, le_rfl, hp.chain⟩
    · rintro ⟨j, hj, hjk, hchain⟩
      obtain ⟨i, hi, hij, hnearest⟩ := hchain.exists_nearest hj
      rcases Nat.lt_or_ge k i with hki | hik
      · obtain rfl : i = k + 1 := by omega
        exact Or.inr hnearest
      · exact Or.inl ⟨i, hi, hik, hnearest.chain⟩

theorem rings_succ (g : Graph) (n : Nat) (seen ring : List Path) :
    g.rings (n + 1) seen ring =
      g.nextRing seen ring ++
        if g.nextRing seen ring = [] then []
        else g.rings n (seen ++ g.nextRing seen ring) (g.nextRing seen ring) := by
  rw [rings]
  split
  · rename_i hnil
    rw [hnil]
    rfl
  · rename_i hne
    rw [if_neg fun hnil => hne hnil]

/-- The run of the search: what it still finds lies further out, up to the depth that is left. -/
theorem Ringed.mem_rings (h : g.Ringed start k seen ring) (n : Nat) :
    p ∈ g.rings n seen ring ↔ ∃ j, k < j ∧ j ≤ k + n ∧ g.Nearest start j p := by
  induction n generalizing k seen ring with
  | zero =>
    simp only [rings, List.not_mem_nil, false_iff, not_exists]
    omega
  | succ n ih =>
    rw [rings_succ, List.mem_append, h.mem_nextRing]
    split
    · rename_i hnil
      have hnone : ∀ j, k < j → ∀ q, ¬ g.Nearest start j q := fun j hj q hq => by
        obtain ⟨r, hr⟩ := hq.closer (Nat.succ_le_of_lt hj)
        exact List.not_mem_nil (hnil ▸ h.mem_nextRing.mpr hr)
      constructor
      · rintro (hp | hp)
        · exact absurd hp (hnone (k + 1) (Nat.lt_succ_self k) p)
        · exact absurd hp List.not_mem_nil
      · rintro ⟨j, hj, -, hp⟩
        exact absurd hp (hnone j hj p)
    · rw [ih h.next]
      constructor
      · rintro (hp | ⟨j, hj, hjn, hp⟩)
        · exact ⟨k + 1, Nat.lt_succ_self k, by omega, hp⟩
        · exact ⟨j, by omega, by omega, hp⟩
      · rintro ⟨j, hj, hjn, hp⟩
        rcases Nat.eq_or_lt_of_le (Nat.succ_le_of_lt hj) with rfl | hlt
        · exact Or.inl hp
        · exact Or.inr ⟨j, hlt, by omega, hp⟩

def NoFurther (g : Graph) (start p q : Path) : Prop :=
  ∀ i j, 1 ≤ i → 1 ≤ j → g.Nearest start i p → g.Nearest start j q → i ≤ j

theorem noFurther_of_nearest (hp : g.Nearest start i p) (hq : g.Nearest start j q) (hi : 1 ≤ i) (hij : i ≤ j) :
    g.NoFurther start p q := by
  intro i' j' hi' hj' hp' hq'
  rw [hp'.unique hp hi' hi, hq'.unique hq hj' (hi.trans hij)]
  exact hij

/-- What is found is found once, and in the order of the distances. -/
theorem Ringed.rings_sorted (h : g.Ringed start k seen ring) (hs : g.Sets) (n : Nat) :
    (g.rings n seen ring).Nodup ∧ (g.rings n seen ring).Pairwise (g.NoFurther start) := by
  induction n generalizing k seen ring with
  | zero => exact ⟨List.nodup_nil, List.Pairwise.nil⟩
  | succ n ih =>
    have hring : ∀ q ∈ g.nextRing seen ring, g.Nearest start (k + 1) q := fun q => h.mem_nextRing.mp
    have hlater : ∀ q ∈ g.rings n (seen ++ g.nextRing seen ring) (g.nextRing seen ring),
        ∃ j, k + 1 < j ∧ g.Nearest start j q := fun q hq => by
      obtain ⟨j, hj, -, hnearest⟩ := (h.next.mem_rings n).mp hq
      exact ⟨j, hj, hnearest⟩
    have hpositive : 1 ≤ k + 1 := Nat.le_add_left 1 k
    have hfirst : (g.nextRing seen ring).Pairwise (g.NoFurther start) :=
      List.pairwise_of_forall_mem_list fun p hp q hq => noFurther_of_nearest (hring p hp) (hring q hq) hpositive le_rfl
    rw [rings_succ]
    split
    · rw [List.append_nil]
      exact ⟨hs.nextRing seen ring, hfirst⟩
    · obtain ⟨hnodup, hsorted⟩ := ih h.next
      constructor
      · refine List.Nodup.append (hs.nextRing seen ring) hnodup fun q hnew hq => ?_
        obtain ⟨j, hj, hnearest⟩ := hlater q hq
        have heq := hnearest.unique (hring q hnew) (by omega) hpositive
        omega
      · refine List.pairwise_append.mpr ⟨hfirst, hsorted, fun p hp q hq => ?_⟩
        obtain ⟨j, hj, hnearest⟩ := hlater q hq
        exact noFurther_of_nearest (hring p hp) hnearest hpositive hj.le

theorem rings_prefix (g : Graph) (n : Nat) (seen ring : List Path) :
    g.rings n seen ring <+: g.rings (n + 1) seen ring := by
  induction n generalizing seen ring with
  | zero => exact List.nil_prefix
  | succ n ih =>
    rw [rings_succ, rings_succ]
    split
    · exact List.prefix_rfl
    · exact (List.prefix_append_right_inj _).mpr (ih _ _)

/-- What is reached is at the end of a chain of imports within the depth. -/
theorem mem_blastRadius {depth : Int} :
    p ∈ g.blastRadius start depth ↔ ∃ k : Nat, 1 ≤ k ∧ (k : Int) ≤ depth ∧ g.Chain start k p := by
  unfold blastRadius
  split
  · rw [(ringed_start g start).mem_rings]
    constructor
    · rintro ⟨j, hj, hjn, hp⟩
      exact ⟨j, hj, by omega, hp.chain⟩
    · rintro ⟨k, hk, hkd, hchain⟩
      obtain ⟨j, hj, hjk, hp⟩ := hchain.exists_nearest hk
      exact ⟨j, hj, by omega, hp⟩
  · rename_i hnode
    simp only [List.not_mem_nil, false_iff]
    rintro ⟨k, hk, -, hchain⟩
    exact hnode (hchain.node hk)

theorem blastRadius_prefix (g : Graph) (start : Path) (depth : Int) :
    g.blastRadius start depth <+: g.blastRadius start (depth + 1) := by
  unfold blastRadius
  split
  · rcases Int.lt_or_le depth 0 with hneg | hpos
    · rw [Int.toNat_of_nonpos (Int.le_of_lt hneg)]
      exact List.nil_prefix
    · rw [Int.toNat_add hpos (by decide)]
      exact rings_prefix g depth.toNat [] [start]
  · exact List.prefix_rfl

/-- The files that depend on a file within a depth: without duplicates those to which a chain of edges leads that is
no longer, in the order of their distances; and one edge more only adds files behind them. -/
theorem blastRadius_reaches (hs : g.Sets) (start : Path) (depth : Int) :
    (g.blastRadius start depth).Nodup ∧
    (∀ p, p ∈ g.blastRadius start depth ↔ ∃ k : Nat, 1 ≤ k ∧ (k : Int) ≤ depth ∧ g.Chain start k p) ∧
    (g.node? start = none ∨ depth ≤ 0 → g.blastRadius start depth = []) ∧
    (g.blastRadius start depth).Pairwise (g.NoFurther start) ∧
    g.blastRadius start depth <+: g.blastRadius start (depth + 1) := by
  have hsorted : (g.blastRadius start depth).Nodup ∧ (g.blastRadius start depth).Pairwise (g.NoFurther start) := by
    unfold blastRadius
    split
    · exact (ringed_start g start).rings_sorted hs depth.toNat
    · exact ⟨List.nodup_nil, List.Pairwise.nil⟩
  refine ⟨hsorted.1, fun p => mem_blastRadius, fun hnone => ?_, hsorted.2, blastRadius_prefix g start depth⟩
  refine List.eq_nil_iff_forall_not_mem.mpr fun p hp => ?_
  obtain ⟨k, hk, hkd, hchain⟩ := mem_blastRadius.mp hp
  rcases hnone with hnode | hdepth
  · have hsome := hchain.node hk
    rw [hnode] at hsome
    cases hsome
  · omega

def circle : Graph where
  root := ⟨"/", ["w"]⟩
  nodes := [(⟨"/", ["w", "a"]⟩, ⟨⟨"/", ["w", "a"]⟩, [⟨"/", ["w", "b"]⟩], [⟨"/", ["w", "b"]⟩, ⟨"/", ["w", "c"]⟩]⟩),
    (⟨"/", ["w", "b"]⟩, ⟨⟨"/", ["w", "b"]⟩, [⟨"/", ["w", "a"]⟩], [⟨"/", ["w", "a"]⟩, ⟨"/", ["w", "c"]⟩]⟩),
    (⟨"/", ["w", "c"]⟩, ⟨⟨"/", ["w", "c"]⟩, [⟨"/", ["w", "a"]⟩, ⟨"/", ["w", "b"]⟩], []⟩)]

theorem sets_circle : circle.Sets := by
  intro p n hn
  have hall : ∀ entry ∈ circle.nodes, entry.2.dependents.Nodup := by decide
  exact hall (p, n) (Table.mem_of_get? hn)

/-- The search comes back to the file that it started from, since two edges lead there. -/
theorem circle_reaches :
    circle.Sets ∧ circle.Chain ⟨"/", ["w", "a"]⟩ 2 ⟨"/", ["w", "a"]⟩ ∧
      (⟨"/", ["w", "a"]⟩ : Path) ∈ circle.blastRadius ⟨"/", ["w", "a"]⟩ 2 := by
  have hout : circle.Edge ⟨"/", ["w", "a"]⟩ ⟨"/", ["w", "b"]⟩ := ⟨_, rfl, by decide⟩
  have hback : circle.Edge ⟨"/", ["w", "b"]⟩ ⟨"/", ["w", "a"]⟩ := ⟨_, rfl, by decide⟩
  have hchain : circle.Chain ⟨"/", ["w", "a"]⟩ 2 ⟨"/", ["w", "a"]⟩ := .step (.step .nil hout) hback
  obtain ⟨-, hmem, -⟩ := blastRadius_reaches sets_circle ⟨"/", ["w", "a"]⟩ 2
  exact ⟨sets_circle, hchain, (hmem _).mpr ⟨2, by decide, by decide, hchain⟩⟩

theorem Keyed.sets (h : g.Keyed) : g.linkBack.Sets := by
  intro p n hn
  rw [node?_linkBack] at hn
  obtain ⟨n', -, rfl⟩ := Option.map_eq_some_iff.mp hn
  have hpaths : (g.nodes.map fun entry => entry.2.path) = Table.keys g.nodes :=
    List.map_congr_left h.own
  have hsub : (importersOf g.nodes p).Sublist (g.nodes.map fun entry => entry.2.path) := List.filter_sublist.map _
  rw [hpaths] at hsub
  exact h.distinct.sublist hsub

theorem sets_removeNode (hk : g.Keyed) (hs : g.Sets) (p : Path) : (g.removeNode p).Sets := by
  unfold removeNode
  split
  · refine Keyed.sets ⟨hk.distinct.sublist (List.filter_sublist.map _), fun entry hm => ?_⟩
    exact hk.own entry (Table.mem_of_mem_erase hm)
  · exact hs

variable [Host]

theorem sets_rebuild {d : Disk} (h : rebuild d g = .ok g') : g'.Sets := by
  change (addFiles d ⟨g.root, [], []⟩ (d.sourceFiles nodeRule g.root)).map Graph.linkBack = .ok g' at h
  cases ha : addFiles d ⟨g.root, [], []⟩ (d.sourceFiles nodeRule g.root) with
  | error fault =>
    rw [ha] at h
    cases h
  | ok made =>
    rw [ha] at h
    cases h
    exact ((built_empty g.root fun _ => d).addFiles ha).1.keyed.sets

/-- After every call the dependents of a node are a set. -/
theorem sets_visit (hk : g.Keyed) (hs : g.Sets) (v : GraphVisit) : (g.visit v).Sets := by
  unfold visit
  cases ha : g.answer v with
  | error fault => exact hs
  | ok g' =>
    obtain ⟨d, call⟩ := v
    cases call with
    | rebuild => exact sets_rebuild ha
    | updateFile path =>
      obtain ⟨t, -, ⟨-, rfl⟩ | ⟨-, -, rfl⟩ | ⟨-, -, -, n, parsed, -, rfl⟩⟩ := updateFile_cases ha
      · exact sets_removeNode hk hs t
      · exact hs
      · exact (hk.set n _).sets
    | removeFile path =>
      obtain ⟨t, -, rfl⟩ := removeFile_ok ha
      exact sets_removeNode hk hs t

/-- After every sequence of calls the dependents of every node are a set. -/
theorem sets_after (root : Path) (visits : List GraphVisit) : (after { root } visits).Sets := by
  induction visits using List.reverseRecOn with
  | nil => exact fun p n hn => by cases hn
  | append_singleton visits v ih =>
    obtain ⟨source, seen, hb, -⟩ := made_after root visits
    rw [after, List.foldl_append]
    exact sets_visit hb.keyed ih v

end CodeAgent.Graph
