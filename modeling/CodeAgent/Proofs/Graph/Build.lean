import CodeAgent.Graph.Update
import CodeAgent.Proofs.Disk.Scan
import Mathlib.Logic.Function.Basic

namespace CodeAgent.Graph

variable {d : Disk} {g g' : Graph} {n m : GraphNode} {p q root : Path} {files : List Path} {parsed : Bool}

variable {source source' : Path → Prop} {seen seen' : Path → Disk}

/-- Every node stands under its own path, and once. -/
structure Keyed (g : Graph) : Prop where
  distinct : (Table.keys g.nodes).Nodup
  own : ∀ entry ∈ g.nodes, entry.2.path = entry.1

/-- The dependents of a node are the nodes that import it. -/
def Linked (g : Graph) : Prop :=
  ∀ q n, g.node? q = some n → ∀ p, p ∈ n.dependents ↔ ∃ m, g.node? p = some m ∧ q ∈ m.imports

/-- To link back changes nothing in a node but its dependents. -/
theorem node?_linkBack (g : Graph) (q : Path) :
    g.linkBack.node? q = (g.node? q).map fun n => { n with dependents := importersOf g.nodes q } := by
  have go (nodes : Table Path GraphNode) : Table.get? q
      (nodes.map fun entry => (entry.1, { entry.2 with dependents := importersOf g.nodes entry.1 })) =
      (Table.get? q nodes).map fun n => { n with dependents := importersOf g.nodes q } := by
    induction nodes with
    | nil => rfl
    | cons entry rest ih =>
      rw [List.map_cons, Table.get?, Table.get?, ih]
      split
      · rename_i he
        rw [he]
        rfl
      · rfl
  exact go g.nodes

theorem Keyed.linkBack (h : g.Keyed) : g.linkBack.Keyed := by
  constructor
  · have hkeys : Table.keys g.linkBack.nodes = Table.keys g.nodes := by
      simp [Table.keys, Graph.linkBack]
    exact hkeys ▸ h.distinct
  · intro entry hm
    obtain ⟨entry', hm', rfl⟩ := List.mem_map.mp hm
    exact h.own entry' hm'

theorem Keyed.mem_importersOf (h : g.Keyed) :
    p ∈ importersOf g.nodes q ↔ ∃ m, g.node? p = some m ∧ q ∈ m.imports := by
  constructor
  · intro hm
    obtain ⟨⟨p', m⟩, hentry, rfl⟩ := List.mem_map.mp hm
    obtain ⟨hnode, hi⟩ := List.mem_filter.mp hentry
    obtain rfl : m.path = p' := h.own _ hnode
    exact ⟨m, Table.get?_of_mem h.distinct hnode, of_decide_eq_true hi⟩
  · rintro ⟨m, hm, hi⟩
    have hm := Table.mem_of_get? hm
    exact List.mem_map.mpr ⟨(p, m), List.mem_filter.mpr ⟨hm, decide_eq_true hi⟩, h.own _ hm⟩

theorem Keyed.linked (h : g.Keyed) : g.linkBack.Linked := by
  intro q n hn p
  rw [node?_linkBack] at hn
  obtain ⟨n', -, rfl⟩ := Option.map_eq_some_iff.mp hn
  rw [h.mem_importersOf]
  constructor
  · rintro ⟨m, hm, hi⟩
    exact ⟨{ m with dependents := importersOf g.nodes p }, by rw [node?_linkBack, hm]; rfl, hi⟩
  · rintro ⟨m, hm, hi⟩
    rw [node?_linkBack] at hm
    obtain ⟨m', hm', rfl⟩ := Option.map_eq_some_iff.mp hm
    exact ⟨m', hm', hi⟩

theorem Keyed.set (h : g.Keyed) (n : GraphNode) (broken : List Path) :
    Keyed { g with nodes := g.nodes.set n.path n, broken := broken } where
  distinct := Table.nodup_keys_set h.distinct _ _
  own entry hm := by
    rcases Table.mem_set hm with hm | rfl
    · exact h.own entry hm
    · rfl

theorem mem_filter_ne {l : List Path} : q ∈ l.filter (· ≠ p) ↔ if q = p then False else q ∈ l := by
  by_cases hq : q = p <;> simp [hq]

theorem root_removeNode (g : Graph) (p : Path) : (g.removeNode p).root = g.root := by
  unfold Graph.removeNode
  split <;> rfl

theorem resolve_resolved (h : g.resolve d p = .ok q) : g.resolve d q = .ok q := by
  have hroot : q.root = [Path.slash] := (Disk.Resolved.cases ⟨g.root.join p, h⟩).2
  rw [resolve, Path.join, if_pos (by rw [Path.isAbsolute, hroot]; rfl)]
  exact Disk.resolve_idem h

variable [Host]

def resolved (d : Disk) (root p : Path) : Except DiskFault (List Path) := (buildNode d root p).map (·.1.imports)

/-- A node has the imports that its text resolves to, or none if it cannot be parsed. -/
theorem buildNode_ok (h : buildNode d root p = .ok (n, parsed)) :
    n.path = p ∧ (parsed = false ↔ statements? d p = .ok none) ∧ resolved d root p = .ok n.imports := by
  refine ⟨?_, ?_, by rw [resolved, h]; rfl⟩
  all_goals
    unfold buildNode at h
    cases hs : statements? d p with
    | error fault =>
      rw [hs] at h
      cases h
    | ok file =>
      rw [hs] at h
      cases file with
      | none =>
        cases h
        simp
      | some file =>
        cases hi : importsOf d root p file with
        | error fault =>
          simp only [hi] at h
          cases h
        | ok imports =>
          simp only [hi] at h
          cases h
          simp

/-- The node of a file is known from what it imports. -/
theorem buildNode_of_imports {t : Text} {specs : List Source.ImportSpec} (targets : List (List Path))
    (hr : d.readText p = .ok t) (hs : (Source.parse .thread t).toOption.map Source.imports = some specs)
    (ht : specs.mapM (importTargets d root p) = .ok targets) :
    buildNode d root p = .ok (⟨p, (targets.flatten.filter (· ≠ p)).eraseDups, []⟩, true) := by
  obtain ⟨file, hfile, rfl⟩ := Option.map_eq_some_iff.mp hs
  have hparse : Source.parse .thread t = .ok file := by
    cases hp : Source.parse .thread t with
    | error fault =>
      rw [hp] at hfile
      cases hfile
    | ok file' =>
      rw [hp] at hfile
      cases hfile
      rfl
  simp only [buildNode, statements?, hr, hparse, importsOf, ht]
  rfl

/-- The nodes are the sources. `seen` tells for each the disk on which its node was built. -/
structure Built (source : Path → Prop) (seen : Path → Disk) (g : Graph) : Prop where
  keyed : g.Keyed
  nodes : ∀ q, (g.node? q).isSome = true ↔ source q
  broken : ∀ q, q ∈ g.broken ↔ source q ∧ statements? (seen q) q = .ok none
  imports : ∀ q n, g.node? q = some n → resolved (seen q) g.root q = .ok n.imports

theorem Built.congr (h : Built source seen g) (hsource : ∀ q, source' q ↔ source q)
    (hseen : ∀ q, source q → seen' q = seen q) : Built source' seen' g where
  keyed := h.keyed
  nodes q := (h.nodes q).trans (hsource q).symm
  broken q := by
    rw [h.broken q, hsource q]
    exact and_congr_right fun hq => by rw [hseen q hq]
  imports q n hn := by
    rw [hseen q ((h.nodes q).mp (Option.isSome_of_eq_some hn))]
    exact h.imports q n hn

theorem Built.linkBack (h : Built source seen g) : Built source seen g.linkBack where
  keyed := h.keyed.linkBack
  nodes q := by
    rw [node?_linkBack, Option.isSome_map]
    exact h.nodes q
  broken := h.broken
  imports q n hn := by
    rw [node?_linkBack] at hn
    obtain ⟨n', hn', rfl⟩ := Option.map_eq_some_iff.mp hn
    exact h.imports q n' hn'

/-- One node more, or one that is new. -/
theorem Built.set (h : Built source seen g) (hb : buildNode d g.root p = .ok (n, parsed)) (broken : List Path)
    (hbroken : ∀ q, q ∈ broken ↔ if q = p then parsed = false else q ∈ g.broken) :
    Built (fun q => q = p ∨ source q) (Function.update seen p d)
      { g with nodes := g.nodes.set n.path n, broken := broken } := by
  obtain ⟨hpath, hparsed, hresolved⟩ := buildNode_ok hb
  have hnode (q : Path) : Graph.node? { g with nodes := g.nodes.set n.path n, broken := broken } q =
      if q = p then some n else g.node? q := by
    unfold node?
    rw [Table.get?_set, hpath]
  refine ⟨h.keyed.set n broken, ?_, ?_, ?_⟩
  · intro q
    rw [hnode]
    by_cases hq : q = p
    · simp [hq]
    · simp [hq, h.nodes q]
  · intro q
    rw [hbroken]
    by_cases hq : q = p
    · subst hq
      simp [hparsed]
    · simp [hq, h.broken q]
  · intro q m hm
    rw [hnode] at hm
    by_cases hq : q = p
    · subst hq
      rw [if_pos rfl] at hm
      cases hm
      rw [Function.update_self]
      exact hresolved
    · rw [if_neg hq] at hm
      rw [Function.update_of_ne hq]
      exact h.imports q m hm

theorem Built.setNode (h : Built source seen g) (hb : buildNode d g.root p = .ok (n, parsed)) :
    Built (fun q => q = p ∨ source q) (Function.update seen p d) (g.setNode n parsed) := by
  refine h.set hb _ fun q => ?_
  obtain ⟨rfl, -, -⟩ := buildNode_ok hb
  cases parsed with
  | true => simpa using mem_filter_ne
  | false => by_cases hq : q = n.path <;> simp [hq] <;> grind

/-- A graph without one of its nodes is built from the other files. -/
theorem Built.removeNode (h : Built source seen g) (hl : g.Linked) (p : Path) :
    Built (fun q => q ≠ p ∧ source q) seen (g.removeNode p) ∧ (g.removeNode p).Linked ∧
    (g.removeNode p).root = g.root := by
  unfold Graph.removeNode
  split
  · have hnode (q : Path) : Graph.node? { g with nodes := g.nodes.erase p, broken := g.broken.filter (· ≠ p) } q =
        if q = p then none else g.node? q := Table.get?_erase _ _ _
    have hb : Built (fun q => q ≠ p ∧ source q) seen
        { g with nodes := g.nodes.erase p, broken := g.broken.filter (· ≠ p) } := by
      refine ⟨⟨?_, ?_⟩, ?_, ?_, ?_⟩
      · exact h.keyed.distinct.sublist (List.filter_sublist.map _)
      · exact fun entry hm => h.keyed.own entry (Table.mem_of_mem_erase hm)
      · intro q
        rw [hnode]
        by_cases hq : q = p <;> simp [hq, h.nodes q]
      · intro q
        dsimp only
        rw [mem_filter_ne]
        by_cases hq : q = p <;> simp [hq, h.broken q]
      · intro q n hn
        rw [hnode] at hn
        split at hn
        · cases hn
        · exact h.imports q n hn
    exact ⟨hb.linkBack, hb.keyed.linked, rfl⟩
  · rename_i hnone
    have hp : ¬ source p := fun hs => hnone ((h.nodes p).mpr hs)
    refine ⟨h.congr (fun q => ?_) fun _ _ => rfl, hl, rfl⟩
    exact ⟨fun hq => hq.2, fun hq => ⟨fun he => hp (he ▸ hq), hq⟩⟩

theorem updateFile_of_absent (hq : g.resolve d p = .ok q) (hf : d.isFile q = .ok false) :
    updateFile d g p = .ok (g.removeNode q) := by
  simp only [updateFile, hq, hf, resolve_resolved hq, bind, Except.bind]
  rfl

theorem updateFile_of_other (hq : g.resolve d p = .ok q) (hf : d.isFile q = .ok true)
    (hother : q.suffix ∉ extensions ∨ d.isExcluded g.root q = .ok true) : updateFile d g p = .ok g := by
  by_cases hs : q.suffix ∈ extensions
  · have he := hother.resolve_left (not_not_intro hs)
    simp only [updateFile, hq, hf, hs, he, bind, Except.bind, not_true, Bool.not_true, Bool.false_eq_true, ↓reduceIte]
    rfl
  · simp only [updateFile, hq, hf, hs, bind, Except.bind]
    rfl

theorem updateFile_of_source (hq : g.resolve d p = .ok q) (hf : d.isFile q = .ok true) (hs : q.suffix ∈ extensions)
    (he : d.isExcluded g.root q = .ok false) :
    updateFile d g p = (buildNode d g.root q).map fun x => (g.setNode x.1 x.2).linkBack := by
  simp only [updateFile, hq, hf, hs, he, bind, Except.bind, not_true, Bool.not_true, Bool.false_eq_true, ↓reduceIte]
  cases buildNode d g.root q <;> rfl

/-- What bringing one file up to date does: its node is dropped if no file is there, and built anew unless the file
is one that scans do not yield. -/
theorem updateFile_cases (h : updateFile d g p = .ok g') : ∃ q, g.resolve d p = .ok q ∧
    ((d.isFile q = .ok false ∧ g' = g.removeNode q) ∨
    (d.isFile q = .ok true ∧ (q.suffix ∉ extensions ∨ d.isExcluded g.root q = .ok true) ∧ g' = g) ∨
    (d.isFile q = .ok true ∧ q.suffix ∈ extensions ∧ d.isExcluded g.root q = .ok false ∧
      ∃ n parsed, buildNode d g.root q = .ok (n, parsed) ∧ g' = (g.setNode n parsed).linkBack)) := by
  cases hq : g.resolve d p with
  | error fault =>
    simp only [updateFile, hq, bind, Except.bind] at h
    cases h
  | ok q =>
    refine ⟨q, rfl, ?_⟩
    cases hf : d.isFile q with
    | error fault =>
      simp only [updateFile, hq, hf, bind, Except.bind] at h
      cases h
    | ok there =>
      cases there with
      | false =>
        rw [updateFile_of_absent hq hf] at h
        cases h
        exact Or.inl ⟨rfl, rfl⟩
      | true =>
        right
        by_cases hs : q.suffix ∈ extensions
        · cases he : d.isExcluded g.root q with
          | error fault =>
            simp only [updateFile, hq, hf, hs, he, bind, Except.bind] at h
            cases h
          | ok excluded =>
            cases excluded with
            | true =>
              rw [updateFile_of_other hq hf (Or.inr he)] at h
              cases h
              exact Or.inl ⟨rfl, Or.inr rfl, rfl⟩
            | false =>
              rw [updateFile_of_source hq hf hs he] at h
              cases hb : buildNode d g.root q with
              | error fault =>
                rw [hb] at h
                cases h
              | ok built =>
                rw [hb] at h
                cases h
                exact Or.inr ⟨rfl, hs, rfl, _, _, rfl, rfl⟩
        · rw [updateFile_of_other hq hf (Or.inl hs)] at h
          cases h
          exact Or.inl ⟨rfl, Or.inl hs, rfl⟩

theorem updateFile_root (h : updateFile d g p = .ok g') : g'.root = g.root := by
  obtain ⟨q, -, ⟨-, rfl⟩ | ⟨-, -, rfl⟩ | ⟨-, -, -, n, parsed, -, rfl⟩⟩ := updateFile_cases h
  · exact root_removeNode g q
  · rfl
  · rfl

/-- Adding files builds the node of one after the other, each under the path that it resolves to. -/
theorem Built.addFiles (h : Built source (fun _ => d) g) (ha : addFiles d g files = .ok g') :
    Built (fun q => (∃ p ∈ files, d.resolve p = .ok q) ∨ source q) (fun _ => d) g' ∧ g'.root = g.root := by
  induction files generalizing g source with
  | nil =>
    cases ha
    exact ⟨h.congr (by simp) fun _ _ => rfl, rfl⟩
  | cons p rest ih =>
    unfold Graph.addFiles at ha
    cases hp : d.resolve p with
    | error fault =>
      simp only [hp, bind, Except.bind] at ha
      cases ha
    | ok target =>
      cases hb : buildNode d g.root target with
      | error fault =>
        simp only [hp, hb, bind, Except.bind] at ha
        cases ha
      | ok built =>
        obtain ⟨n, parsed⟩ := built
        simp only [hp, hb, bind, Except.bind] at ha
        obtain ⟨hpath, hparsed, -⟩ := buildNode_ok hb
        have hmarks (q : Path) : q ∈ (if parsed || n.path ∈ g.broken then g.broken else g.broken ++ [n.path]) ↔
            if q = target then parsed = false else q ∈ g.broken := by
          have hself := h.broken target
          by_cases hq : q = target
          · subst hq
            cases parsed <;> grind
          · cases parsed <;> grind
        have hone := h.set hb _ hmarks
        have hconst : Function.update (fun _ => d) target d = fun _ : Path => d := Function.update_eq_self target _
        rw [hconst] at hone
        obtain ⟨hall, hroot⟩ := ih hone ha
        refine ⟨hall.congr (fun q => ?_) fun _ _ => rfl, hroot⟩
        have hfirst : d.resolve p = .ok q ↔ q = target := by
          rw [hp, Except.ok.injEq]
          exact eq_comm
        simp only [List.mem_cons, exists_eq_or_imp]
        rw [hfirst, or_assoc]
        exact or_left_comm

/-- Files are added just if the imports of each can be resolved. -/
theorem addFiles_ok_iff (hres : ∀ p ∈ files, d.resolve p = .ok p) :
    (∃ g', addFiles d g files = .ok g') ↔ ∀ p ∈ files, ∃ imports, resolved d g.root p = .ok imports := by
  induction files generalizing g with
  | nil => simp [addFiles]
  | cons p rest ih =>
    obtain ⟨hp, hrest⟩ := List.forall_mem_cons.mp hres
    rw [List.forall_mem_cons]
    unfold addFiles
    simp only [hp]
    cases hb : buildNode d g.root p with
    | error fault =>
      simp [resolved, hb, bind, Except.bind, Except.map]
    | ok built =>
      simp only [resolved, hb, bind, Except.bind, Except.map]
      rw [ih hrest]
      simp [resolved, Except.map]

def nodeRule : Disk.ScanRule := { extensions := some extensions }

theorem built_empty (root : Path) (seen : Path → Disk) : Built (fun _ => False) seen ⟨root, [], []⟩ where
  keyed := ⟨List.nodup_nil, by simp⟩
  nodes q := by simp [node?, Table.get?]
  broken q := by simp
  imports q n hn := by cases hn

/-- A rebuilt graph is built from one disk; a link counts as the file it leads to. -/
theorem rebuild_resolved (h : rebuild d g = .ok g') :
    Built (fun q => ∃ p ∈ d.sourceFiles nodeRule g.root, d.resolve p = .ok q) (fun _ => d) g' ∧ g'.Linked ∧
    g'.root = g.root := by
  change (addFiles d ⟨g.root, [], []⟩ (d.sourceFiles nodeRule g.root)).map Graph.linkBack = .ok g' at h
  cases ha : addFiles d ⟨g.root, [], []⟩ (d.sourceFiles nodeRule g.root) with
  | error fault =>
    rw [ha] at h
    cases h
  | ok made =>
    rw [ha] at h
    cases h
    obtain ⟨hbuilt, hroot⟩ := (built_empty g.root fun _ => d).addFiles ha
    exact ⟨hbuilt.linkBack.congr (by simp) fun _ _ => rfl, hbuilt.keyed.linked, hroot⟩

/-- Where no link stands the nodes are the files that the scan yields. -/
theorem rebuild_built (hres : ∀ p ∈ d.sourceFiles nodeRule g.root, d.resolve p = .ok p) (h : rebuild d g = .ok g') :
    Built (· ∈ d.sourceFiles nodeRule g.root) (fun _ => d) g' ∧ g'.Linked ∧ g'.root = g.root := by
  obtain ⟨hbuilt, hlinked, hroot⟩ := rebuild_resolved h
  refine ⟨hbuilt.congr (fun q => ?_) fun _ _ => rfl, hlinked, hroot⟩
  constructor
  · exact fun hq => ⟨q, hq, hres q hq⟩
  · rintro ⟨p, hp, hpq⟩
    rw [hres p hp] at hpq
    cases hpq
    exact hp

theorem rebuild_ok_iff (hres : ∀ p ∈ d.sourceFiles nodeRule g.root, d.resolve p = .ok p) :
    (∃ g', rebuild d g = .ok g') ↔
      ∀ p ∈ d.sourceFiles nodeRule g.root, ∃ imports, resolved d g.root p = .ok imports := by
  rw [← addFiles_ok_iff (g := ⟨g.root, [], []⟩) hres]
  change (∃ g', (addFiles d ⟨g.root, [], []⟩ (d.sourceFiles nodeRule g.root)).map Graph.linkBack = .ok g') ↔ _
  cases addFiles d ⟨g.root, [], []⟩ (d.sourceFiles nodeRule g.root) <;> simp [Except.map]

/-- The same graph: what its nodes, marks and edges are, whatever their order. -/
structure Same (g g' : Graph) : Prop where
  nodes : ∀ q, (g.node? q).isSome = (g'.node? q).isSome
  broken : ∀ q, q ∈ g.broken ↔ q ∈ g'.broken
  imports : ∀ q n n', g.node? q = some n → g'.node? q = some n' → ∀ p, p ∈ n.imports ↔ p ∈ n'.imports
  dependents : ∀ q n n', g.node? q = some n → g'.node? q = some n' → ∀ p, p ∈ n.dependents ↔ p ∈ n'.dependents

/-- How a graph stands to one that was rebuilt from a disk: it differs in the imports at most, and those are what
the statements of a file, which are the same, meant on the disk that was seen last for the file. -/
structure Lags (seen : Path → Disk) (d : Disk) (g g' : Graph) : Prop where
  root : g.root = g'.root
  nodes : ∀ q, (g.node? q).isSome = (g'.node? q).isSome
  broken : ∀ q, q ∈ g.broken ↔ q ∈ g'.broken
  linked : g.Linked ∧ g'.Linked
  read : ∀ q, (g.node? q).isSome = true → statements? (seen q) q = statements? d q
  built : ∀ q n, g.node? q = some n → resolved (seen q) g.root q = .ok n.imports
  rebuilt : ∀ q n, g'.node? q = some n → resolved d g.root q = .ok n.imports

theorem Built.lags (h : Built source seen g) (h' : Built source (fun _ => d) g') (hl : g.Linked) (hl' : g'.Linked)
    (hroot : g.root = g'.root) (hread : ∀ q, source q → statements? (seen q) q = statements? d q) :
    Lags seen d g g' where
  root := hroot
  nodes q := by rw [Bool.eq_iff_iff, h.nodes, h'.nodes]
  broken q := by
    rw [h.broken, h'.broken]
    exact and_congr_right fun hq => by rw [hread q hq]
  linked := ⟨hl, hl'⟩
  read q hq := hread q ((h.nodes q).mp hq)
  built := h.imports
  rebuilt := hroot ▸ h'.imports

theorem Lags.node (h : Lags seen d g g') (hn : g.node? q = some n) : ∃ n', g'.node? q = some n' :=
  Option.isSome_iff_exists.mp (h.nodes q ▸ Option.isSome_of_eq_some hn)

/-- A graph is the rebuilt one just if what its imports meant is what they mean. -/
theorem Lags.same_iff (h : Lags seen d g g') : g.Same g' ↔
    ∀ q, (g.node? q).isSome = true → ∀ built now, resolved (seen q) g.root q = .ok built →
      resolved d g.root q = .ok now → ∀ p, p ∈ built ↔ p ∈ now := by
  constructor
  · intro same q hq built now hb hn
    obtain ⟨n, hnode⟩ := Option.isSome_iff_exists.mp hq
    obtain ⟨n', hnode'⟩ := h.node hnode
    rw [h.built q n hnode] at hb
    rw [h.rebuilt q n' hnode'] at hn
    cases hb
    cases hn
    exact same.imports q n n' hnode hnode'
  · intro hmeans
    have himports (q : Path) (n n' : GraphNode) (hn : g.node? q = some n) (hn' : g'.node? q = some n') :
        ∀ p, p ∈ n.imports ↔ p ∈ n'.imports :=
      hmeans q (Option.isSome_of_eq_some hn) _ _ (h.built q n hn) (h.rebuilt q n' hn')
    refine ⟨h.nodes, h.broken, himports, fun q n n' hn hn' p => ?_⟩
    rw [h.linked.1 q n hn p, h.linked.2 q n' hn' p]
    constructor
    · rintro ⟨m, hm, hi⟩
      obtain ⟨m', hm'⟩ := h.node hm
      exact ⟨m', hm', (himports p m m' hm hm' q).mp hi⟩
    · rintro ⟨m', hm', hi⟩
      obtain ⟨m, hm⟩ := Option.isSome_iff_exists.mp ((h.nodes p).symm ▸ Option.isSome_of_eq_some hm')
      exact ⟨m, hm, (himports p m m' hm hm' q).mpr hi⟩

end CodeAgent.Graph
