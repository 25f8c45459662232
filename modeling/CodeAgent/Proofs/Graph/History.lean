import CodeAgent.Graph.History
import CodeAgent.Proofs.Graph.Build

namespace CodeAgent.Graph

variable {d : Disk} {g g' : Graph} {p q root : Path} {source : Path → Prop} {seen : Path → Disk}

def importsAt (g : Graph) (q : Path) : Option (List Path) := (g.node? q).map (·.imports)

theorem importsAt_linkBack (g : Graph) (q : Path) : g.linkBack.importsAt q = g.importsAt q := by
  unfold importsAt
  rw [node?_linkBack, Option.map_map]
  rfl

/-- Taking a node away leaves the imports of the others. -/
theorem importsAt_removeNode (g : Graph) (p q : Path) :
    (g.removeNode p).importsAt q = if q = p then none else g.importsAt q := by
  unfold removeNode
  split
  · rw [importsAt_linkBack]
    unfold importsAt node?
    rw [Table.get?_erase]
    split <;> rfl
  · rename_i hnone
    split
    · rename_i hq
      subst hq
      unfold importsAt
      rw [Option.not_isSome_iff_eq_none.mp hnone]
      rfl
    · rfl

theorem importsAt_setNode (g : Graph) (n : GraphNode) (parsed : Bool) (q : Path) :
    (g.setNode n parsed).linkBack.importsAt q = if q = n.path then some n.imports else g.importsAt q := by
  rw [importsAt_linkBack]
  unfold importsAt node? setNode
  rw [Table.get?_set]
  split <;> rfl

theorem removeFile_ok (h : removeFile d g p = .ok g') : ∃ t, g.resolve d p = .ok t ∧ g' = g.removeNode t := by
  unfold removeFile at h
  cases ht : g.resolve d p with
  | error fault =>
    simp only [ht, bind, Except.bind] at h
    cases h
  | ok t =>
    simp only [ht, bind, Except.bind] at h
    cases h
    exact ⟨t, rfl, rfl⟩

theorem importsAt_removeFile (h : removeFile d g p = .ok g') (hq : g.resolve d p ≠ .ok q) :
    g'.importsAt q = g.importsAt q := by
  obtain ⟨t, ht, rfl⟩ := removeFile_ok h
  rw [importsAt_removeNode, if_neg]
  rintro rfl
  exact hq ht

variable [Host]

/-- A call for a file that resolves elsewhere, or nowhere, changes the imports of no other file. -/
theorem importsAt_updateFile (h : updateFile d g p = .ok g') (hq : g.resolve d p ≠ .ok q) :
    g'.importsAt q = g.importsAt q := by
  obtain ⟨t, ht, hcases⟩ := updateFile_cases h
  have hne : q ≠ t := by
    rintro rfl
    exact hq ht
  rcases hcases with ⟨-, rfl⟩ | ⟨-, -, rfl⟩ | ⟨-, -, -, n, parsed, hb, rfl⟩
  · rw [importsAt_removeNode, if_neg hne]
  · rfl
  · rw [importsAt_setNode, (buildNode_ok hb).1, if_neg hne]

/-- A graph whose nodes were built one by one, each on the disk of its time. -/
def Made (g : Graph) : Prop := ∃ source seen, Built source seen g ∧ g.Linked

theorem made_empty (root : Path) : Made { root } :=
  ⟨_, fun _ => Disk.empty, built_empty root _, fun q n hn => by cases hn⟩

theorem Made.removeNode (h : Made g) (p : Path) : Made (g.removeNode p) := by
  obtain ⟨source, seen, hb, hl⟩ := h
  obtain ⟨hb', hl', -⟩ := hb.removeNode hl p
  exact ⟨_, _, hb', hl'⟩

theorem Made.updateFile (h : Made g) (hu : updateFile d g p = .ok g') : Made g' := by
  obtain ⟨t, -, hcases⟩ := updateFile_cases hu
  rcases hcases with ⟨-, rfl⟩ | ⟨-, -, rfl⟩ | ⟨-, -, -, n, parsed, hn, rfl⟩
  · exact h.removeNode t
  · exact h
  · obtain ⟨source, seen, hb, -⟩ := h
    have hset := hb.setNode hn
    exact ⟨_, _, hset.linkBack, hset.keyed.linked⟩

theorem Made.visit (h : Made g) (v : GraphVisit) : Made (g.visit v) := by
  unfold Graph.visit
  cases ha : g.answer v with
  | error fault => exact h
  | ok g' =>
    obtain ⟨d, call⟩ := v
    cases call with
    | rebuild =>
      obtain ⟨hb, hl, -⟩ := rebuild_resolved ha
      exact ⟨_, _, hb, hl⟩
    | updateFile path => exact h.updateFile ha
    | removeFile path =>
      obtain ⟨t, -, rfl⟩ := removeFile_ok ha
      exact h.removeNode t

theorem made_after (root : Path) (visits : List GraphVisit) : Made (after { root } visits) := by
  induction visits using List.reverseRecOn with
  | nil => exact made_empty root
  | append_singleton visits v ih =>
    rw [after, List.foldl_append]
    exact ih.visit v

/-- A file that cannot be read or parsed imports nothing. -/
theorem resolved_of_unread (h : statements? d p = .ok none) : resolved d root p = .ok [] := by
  simp [resolved, buildNode, h, Except.map]

/-- No file imports itself. -/
theorem self_not_mem_resolved {imports : List Path} (h : resolved d root p = .ok imports) : p ∉ imports := by
  cases hs : statements? d p with
  | error fault =>
    rw [resolved, buildNode, hs] at h
    cases h
  | ok file =>
    cases file with
    | none =>
      rw [resolved_of_unread hs] at h
      cases h
      exact List.not_mem_nil
    | some file =>
      simp only [resolved, buildNode, hs, importsOf] at h
      cases ht : (Source.imports file).mapM (importTargets d root p) with
      | error fault =>
        simp only [ht, bind, Except.bind, Except.map] at h
        cases h
      | ok targets =>
        simp only [ht, bind, Except.bind, Except.map] at h
        cases h
        simp

/-- What a graph represents: every key is the path of its node, the dependents of a node are the nodes that import
it, no node imports itself, and the files that could not be parsed are nodes without imports. -/
structure Coherent (g : Graph) : Prop where
  distinct : (Table.keys g.nodes).Nodup
  own : ∀ entry ∈ g.nodes, entry.2.path = entry.1
  inverse : ∀ a b n m, g.node? a = some n → g.node? b = some m → (a ∈ m.dependents ↔ b ∈ n.imports)
  known : ∀ b m, g.node? b = some m → ∀ a ∈ m.dependents, (g.node? a).isSome = true
  loopless : ∀ a n, g.node? a = some n → a ∉ n.imports
  broken : ∀ a ∈ g.broken, ∃ n, g.node? a = some n ∧ n.imports = []

/-- A graph that was made by calls is coherent. -/
theorem Made.coherent (h : Made g) : g.Coherent := by
  obtain ⟨source, seen, hb, hl⟩ := h
  refine ⟨hb.keyed.distinct, hb.keyed.own, ?_, ?_, ?_, ?_⟩
  · intro a b n m hn hm
    rw [hl b m hm a]
    constructor
    · rintro ⟨n', hn', hi⟩
      cases hn.symm.trans hn'
      exact hi
    · exact fun hi => ⟨n, hn, hi⟩
  · intro b m hm a ha
    obtain ⟨n, hn, -⟩ := (hl b m hm a).mp ha
    exact Option.isSome_of_eq_some hn
  · exact fun a n hn => self_not_mem_resolved (hb.imports a n hn)
  · intro a ha
    obtain ⟨hs, hunread⟩ := (hb.broken a).mp ha
    obtain ⟨n, hn⟩ := Option.isSome_iff_exists.mp ((hb.nodes a).mpr hs)
    have hi := hb.imports a n hn
    rw [resolved_of_unread hunread] at hi
    exact ⟨n, hn, (Except.ok.inj hi).symm⟩

/-- After every sequence of calls on changing disks the graph is coherent, and the next call for a file changes the
imports of no node but that of the file. -/
theorem after_coherent (root : Path) (visits : List GraphVisit) :
    (after { root } visits).Coherent ∧
    ∀ d path q, (after { root } visits).resolve d (Path.ofText path) = .ok q ∨
      ((after { root } visits).visit ⟨d, .updateFile path⟩).importsAt q = (after { root } visits).importsAt q ∧
      ((after { root } visits).visit ⟨d, .removeFile path⟩).importsAt q = (after { root } visits).importsAt q := by
  refine ⟨(made_after root visits).coherent, fun d path q => ?_⟩
  generalize after { root } visits = g
  by_cases hq : g.resolve d (Path.ofText path) = .ok q
  · exact Or.inl hq
  · right
    unfold visit
    constructor
    · cases ha : g.answer ⟨d, .updateFile path⟩ with
      | error fault => rfl
      | ok g' => exact importsAt_updateFile ha hq
    · cases ha : g.answer ⟨d, .removeFile path⟩ with
      | error fault => rfl
      | ok g' => exact importsAt_removeFile ha hq

end CodeAgent.Graph
