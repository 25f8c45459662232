import Mathlib
import CodeAgent.Host.Usual
import CodeAgent.Workspace.Basic
import CodeAgent.Proofs.Disk.Extend
import CodeAgent.Proofs.Graph.Build

namespace CodeAgent

namespace Disk

variable {d d' : Disk} {rule : ScanRule} {p root : Path} {x : Place} {bytes : Bytes}

/-- The path of a file is resolved already. -/
theorem Settled.resolve_file {start : Text} (h : d.Settled rule root.parts) (hx : d.lookup? x = some (.file bytes)) :
    d.resolve ⟨start, x⟩ = .ok ⟨[Path.slash], x⟩ :=
  resolve_accepted (h.plain hx) (h.clean_of_lookup hx).accepted start

/-- On a settled disk a file is told from what is none. -/
theorem Settled.isFile_iff {answer : Bool} (h : d.Settled rule root.parts) (hx : d.Plain x)
    (hf : d.isFile ⟨[Path.slash], x⟩ = .ok answer) : answer = true ↔ ∃ bytes, d.lookup? x = some (.file bytes) := by
  unfold isFile ask at hf
  cases hs : d.stat ⟨[Path.slash], x⟩ with
  | ok e =>
    obtain ⟨hl, -⟩ := stat_ok hx hs
    simp only [hs, Except.ok.injEq] at hf
    dsimp only at hl
    rw [hl, ← hf]
    cases e <;> simp
  | error fault =>
    simp only [hs] at hf
    split at hf
    · rename_i habsent
      cases hf
      simp only [Bool.false_eq_true, false_iff]
      rintro ⟨bytes, hl⟩
      have hlong : fault = .system .nameTooLong ⟨[Path.slash], x⟩ := by
        have hc := (checkPath_ok_iff x).mpr (h.clean_of_lookup hl).accepted
        unfold stat locate at hs
        simp only [hc, walkLinks_found h.tree hx hl] at hs
        grind
      rw [hlong] at habsent
      cases habsent
    · cases hf

end Disk

namespace Graph

variable {d d' : Disk} {g g' : Graph} {p q root : Path} {x : Place}

variable {source : Path → Prop} {seen : Path → Disk}

/-- A scan reaches what no skipped directory hides, if it keeps the name. -/
theorem reaches_iff (hroot : root.root = [Path.slash]) (hx : x ≠ root.parts) :
    nodeRule.Reaches root.parts x ↔ (Path.below? root ⟨[Path.slash], x⟩).all Disk.isBehindSkipped = false ∧
      nodeRule.keeps (x.getLastD []) = true := by
  have henters := Disk.isBehindSkipped_concat nodeRule rfl
  unfold Path.below?
  rw [hroot]
  constructor
  · rintro ⟨dirs, name, rfl, hdirs, hname⟩
    simp only [decide_true, Bool.true_and, List.isPrefixOf_iff_prefix, List.prefix_append, ↓reduceIte,
      List.drop_left, Option.all_some, henters]
    exact ⟨hdirs, by simpa using hname⟩
  · rintro ⟨hall, hname⟩
    split at hall
    · rename_i hprefix
      simp only [decide_true, Bool.true_and, List.isPrefixOf_iff_prefix] at hprefix
      obtain ⟨rest, rfl⟩ := hprefix
      obtain ⟨dirs, name, rfl⟩ := (List.eq_nil_or_concat rest).resolve_left (by rintro rfl; simp at hx)
      simp only [List.drop_left, Option.all_some, List.concat_eq_append, henters] at hall
      refine ⟨dirs, name, by simp, hall, ?_⟩
      simpa using hname
    · cases hall

variable [Host]

/-- The statements of a file depend on nothing but the file. -/
theorem statements?_congr (h : (d'.stat p).toOption = (d.stat p).toOption) : statements? d' p = statements? d p := by
  unfold statements? Disk.readText Disk.readBytes
  cases hs : d.stat p with
  | ok e =>
    rw [hs] at h
    cases hs' : d'.stat p with
    | ok e' =>
      rw [hs'] at h
      cases h
      rfl
    | error fault =>
      rw [hs'] at h
      cases h
  | error fault =>
    rw [hs] at h
    cases hs' : d'.stat p with
    | ok e' =>
      rw [hs'] at h
      cases h
    | error fault' => rfl

/-- What a notification does to the graph when its file is one that scans reach: the node is built anew, or
dropped if no file is there. -/
theorem Built.updateFile (h : Built source seen g) (hl : g.Linked) (hp : g.resolve d p = .ok q)
    (hs : q.suffix ∈ extensions) (he : d.isExcluded g.root q = .ok false) (hu : updateFile d g p = .ok g') :
    ∃ there, d.isFile q = .ok there ∧
      Built (fun y => (y = q ∧ there = true) ∨ (y ≠ q ∧ source y)) (Function.update seen q d) g' ∧
      g'.Linked ∧ g'.root = g.root := by
  obtain ⟨q', hq, hcases⟩ := updateFile_cases hu
  obtain rfl : q = q' := Except.ok.inj (hp.symm.trans hq)
  rcases hcases with ⟨hf, rfl⟩ | ⟨-, hskip, -⟩ | ⟨hf, -, -, n, parsed, hb, rfl⟩
  · obtain ⟨hb, hl, hroot⟩ := h.removeNode hl q
    exact ⟨false, hf, hb.congr (by simp) fun y hy => Function.update_of_ne hy.1 _ _, hl, hroot⟩
  · rcases hskip with hskip | hskip
    · exact absurd hs hskip
    · rw [he] at hskip
      cases hskip
  · have hset := h.setNode hb
    refine ⟨true, hf, hset.linkBack.congr (fun y => ?_) fun _ _ => rfl, hset.keyed.linked, rfl⟩
    by_cases hy : y = q <;> simp [hy]

end Graph

namespace Workspace

open CodeAgent.Graph (nodeRule statements? resolved buildNode_of_imports)

variable {s : Setting} {w w' w₀ : Workspace} {d d' e : Disk} {p q root : Path} {x : Place} {seen : Path → Disk}

variable {places : List Place} {given : Text} {asked : List (List Text)}

/-- The files that a scan of a root yields are the same on two disks, those at some places apart. -/
def SourcesKept (root : Path) (places : List Place) (d d' : Disk) : Prop :=
  ∀ y, nodeRule.Reaches root.parts y → y ∉ places → ∀ bytes,
    d.lookup? y = some (.file bytes) ↔ d'.lookup? y = some (.file bytes)

theorem SourcesKept.trans (h : SourcesKept root places d e) (h' : SourcesKept root [] e d') :
    SourcesKept root places d d' :=
  fun y hy hc bytes => (h y hy hc bytes).trans (h' y hy (List.not_mem_nil) bytes)

theorem sourcesKept_put (root : Path) (d : Disk) (x : Place) (e : Entry) : SourcesKept root [x] d (d.put x e) := by
  intro y _ hy bytes
  rw [Disk.lookup?_put_of_ne d (List.ne_of_not_mem_cons hy)]

/-- A path under which a change at a place is told. -/
structure Tells (p : Path) (x : Place) (d : Disk) : Prop where
  absolute : p.isAbsolute = true
  named : p.name = x.getLastD []
  leads : d.resolve p = .ok ⟨[Path.slash], x⟩

/-- Inside a workspace the disk changes at one place, and what else is written until the workspace was told of
it is no source file. -/
structure Event (w : Workspace) (p : Path) (x : Place) (d : Disk) (w' : Workspace) : Prop where
  inside : x ≠ w.root.parts
  edit : SourcesKept w.root [x] w.disk d
  settled : d.Settled nodeRule w.root.parts
  tells : Tells p x d
  kept : SourcesKept w.root [] d w'.disk
  settled' : w'.disk.Settled nodeRule w.root.parts
  tells' : Tells p x w'.disk

section
/-- A workspace begins with an empty graph of its root. -/
theorem make_ok (h : make s d given asked = .ok w) : w.disk = d ∧ w.graph = { root := w.root } ∧
    d.Resolved w.root ∧ d.isDirectory w.root = .ok true := by
  unfold make at h
  simp only at h
  split at h
  · cases h
  · cases h
  · rename_i root hchecked
    have hroot : d.Resolved root ∧ d.isDirectory root = .ok true := by
      simp only [bind, Except.bind, pure, Except.pure] at hchecked
      split at hchecked
      · cases hchecked
      · split at hchecked
        · cases hchecked
        · rename_i root' hr
          split at hchecked
          · cases hchecked
          · rename_i answer hd
            cases hchecked
            exact ⟨⟨_, hr⟩, hd⟩
    split at h <;> cases h <;> exact ⟨rfl, rfl, hroot⟩

theorem indexOne_keeps (w : Workspace) (step : Disk → SemanticIndex → IndexStep IndexOutcome) :
    (w.indexOne step).1.graph = w.graph ∧ (w.indexOne step).1.root = w.root := by
  unfold indexOne
  split
  · exact ⟨rfl, rfl⟩
  · split <;> exact ⟨rfl, rfl⟩

theorem changeGraph_ok {change : Disk → Graph → Except DiskFault Graph} (h : w.changeGraph change = (w', .ok ())) :
    w'.disk = w.disk ∧ w'.root = w.root ∧ change w.disk w.graph = .ok w'.graph := by
  unfold changeGraph at h
  split at h
  · rename_i graph hg
    cases h
    exact ⟨rfl, rfl, hg⟩
  · cases h

theorem fileRemoved_ok (h : fileRemoved w p = (w', .ok ())) :
    w'.root = w.root ∧ w.graph.removeFile w'.disk p = .ok w'.graph := by
  unfold fileRemoved at h
  obtain ⟨hgraph, hroot⟩ := indexOne_keeps w fun d ix => ix.removeFile d p true
  split at h
  · cases h
  · rename_i w₁ _ hi
    rw [hi] at hgraph hroot
    obtain ⟨hdisk, hroot', hu⟩ := changeGraph_ok h
    refine ⟨hroot'.trans hroot, ?_⟩
    rw [hdisk, ← hgraph]
    exact hu

theorem Tells.resolve_join (h : Tells p x d) (root : Path) : d.resolve (root.join p) = .ok ⟨[Path.slash], x⟩ := by
  rw [Path.join, if_pos h.absolute]
  exact h.leads

theorem Tells.plain (h : Tells p x d) : d.Plain x := Disk.Resolved.plain (p := ⟨[Path.slash], x⟩) ⟨p, h.leads⟩

theorem Tells.resolve_place (h : Tells p x d) : d.resolve ⟨[Path.slash], x⟩ = .ok ⟨[Path.slash], x⟩ :=
  Disk.resolve_idem h.leads

theorem Tells.suffix (h : Tells p x d) : Path.suffix ⟨[Path.slash], x⟩ = p.suffix :=
  congrArg (fun name => (Path.cutSuffix name).2) h.named.symm

/-- A file can be told of under its own path. -/
theorem tells_file {bytes : Bytes} (h : d.Settled nodeRule root.parts) (hx : d.lookup? x = some (.file bytes)) :
    Tells ⟨[Path.slash], x⟩ x d :=
  ⟨rfl, rfl, h.resolve_file hx⟩

theorem resolve_source (hd : d.Settled nodeRule root.parts) (hs : root.root = [Path.slash])
    (hn : Disk.Nameable root) (hp : p ∈ d.sourceFiles nodeRule root) : d.resolve p = .ok p := by
  obtain ⟨hp, -, bytes, hl⟩ := (Disk.mem_sourceFiles_iff hd hs hn).mp hp
  obtain ⟨start, parts⟩ := p
  obtain rfl : start = [Path.slash] := hp
  exact hd.resolve_file hl

variable [Host]

/-- Workspaces that were opened with a rebuilt graph and then told of every change of a file. `seen` is for
every file the disk on which its node was built last. -/
inductive Reached (s : Setting) : Workspace → (Path → Disk) → Prop
  | opened {w₀ w : Workspace} {d : Disk} {given : Text} {asked : List (List Text)}
      (made : make s d given asked = .ok w₀) (started : w₀.start = (w, .ok ()))
      (settled : d.Settled nodeRule w.root.parts) : Reached s w fun _ => d
  | changed {w w' : Workspace} {seen : Path → Disk} {p : Path} {x : Place} {d : Disk} (before : Reached s w seen)
      (event : Event w p x d w') (suffix : nodeRule.keeps p.name = decide (p.suffix ∈ Graph.extensions))
      (run : fileChanged s { w with disk := d } p = (w', .ok ())) :
      Reached s w' (Function.update seen ⟨[Path.slash], x⟩ w'.disk)
  | removed {w w' : Workspace} {seen : Path → Disk} {p : Path} {x : Place} {d : Disk} (before : Reached s w seen)
      (event : Event w p x d w') (gone : ∀ bytes, d.lookup? x ≠ some (.file bytes))
      (run : fileRemoved { w with disk := d } p = (w', .ok ())) : Reached s w' seen
  | other {w w' : Workspace} {seen : Path → Disk} (before : Reached s w seen) (graph : w'.graph = w.graph)
      (root : w'.root = w.root) (kept : SourcesKept w.root [] w.disk w'.disk)
      (settled : w'.disk.Settled nodeRule w.root.parts) : Reached s w' seen

theorem start_ok (h : w₀.start = (w, .ok ())) :
    w.disk = w₀.disk ∧ w.root = w₀.root ∧ w₀.graph.rebuild w₀.disk = .ok w.graph := by
  unfold start loadIndex at h
  cases hg : w₀.graph.rebuild w₀.disk with
  | error fault =>
    simp only [hg] at h
    cases h
  | ok graph =>
    simp only [hg, markDirty] at h
    split at h
    · rename_i w' _ hl
      cases h
      split at hl <;> obtain ⟨rfl, -⟩ := Prod.mk.inj hl <;> exact ⟨rfl, rfl, rfl⟩
    · cases h

/-- A change that is worked off leaves the graph, or updates one node of it. -/
theorem fileChanged_ok (h : fileChanged s w p = (w', .ok ())) : w'.root = w.root ∧
    (w.tracks p = .ok false ∧ w'.disk = w.disk ∧ w'.graph = w.graph ∨
      w.tracks p = .ok true ∧ w.graph.updateFile w'.disk p = .ok w'.graph) := by
  unfold fileChanged at h
  split at h
  · cases h
  · rename_i ht
    cases h
    exact ⟨rfl, Or.inl ⟨ht, rfl, rfl⟩⟩
  · rename_i ht
    obtain ⟨hgraph, hroot⟩ :=
      indexOne_keeps w fun d ix => ix.indexFile ((embedder? s).getD fun _ _ => .ok []) d p true
    split at h
    · cases h
    · rename_i w₁ _ hi
      rw [hi] at hgraph hroot
      obtain ⟨hdisk, hroot', hu⟩ := changeGraph_ok h
      refine ⟨hroot'.trans hroot, Or.inr ⟨ht, ?_⟩⟩
      rw [hdisk, ← hgraph]
      exact hu

/-- The graph has the nodes of the sources on the disk, each with the imports that were found on the disk seen
last for it, which held the same text. -/
structure Follows (w : Workspace) (seen : Path → Disk) : Prop where
  slash : w.root.root = [Path.slash]
  nameable : Disk.Nameable w.root
  graphRoot : w.graph.root = w.root
  settled : w.disk.Settled nodeRule w.root.parts
  built : w.graph.Built (· ∈ w.disk.sourceFiles nodeRule w.root) seen
  linked : w.graph.Linked
  read : ∀ q ∈ w.disk.sourceFiles nodeRule w.root, statements? (seen q) q = statements? w.disk q

theorem Follows.mem_iff (h : Follows w seen) (hd : d.Settled nodeRule w.root.parts) :
    p ∈ d.sourceFiles nodeRule w.root ↔ p.root = [Path.slash] ∧ nodeRule.Reaches w.root.parts p.parts ∧
      ∃ bytes, d.lookup? p.parts = some (.file bytes) :=
  Disk.mem_sourceFiles_iff hd h.slash h.nameable

theorem Follows.resolve_root (h : Follows w seen) (hd : d.Settled nodeRule w.root.parts) :
    d.resolve w.root = .ok w.root := by
  have hroot : w.root = ⟨[Path.slash], w.root.parts⟩ := by
    rw [← h.slash]
  have haccepted := h.nameable.accepted
  rw [hroot] at haccepted ⊢
  exact Disk.resolve_accepted hd.root ((Disk.checkPath_ok_iff _).mp haccepted) _

/-- Source files at other places stay source files with the same text. -/
theorem Follows.sources_kept (h : Follows w seen) (hd : d.Settled nodeRule w.root.parts)
    (hk : SourcesKept w.root [x] w.disk d) (hq : q ≠ ⟨[Path.slash], x⟩) :
    (q ∈ d.sourceFiles nodeRule w.root ↔ q ∈ w.disk.sourceFiles nodeRule w.root) ∧
    (q ∈ w.disk.sourceFiles nodeRule w.root → statements? d q = statements? w.disk q) := by
  have hplace (hs : q.root = [Path.slash]) : q.parts ∉ [x] := by
    intro hm
    obtain ⟨start, parts⟩ := q
    obtain rfl : start = [Path.slash] := hs
    exact hq (List.mem_singleton.mp hm ▸ rfl)
  rw [h.mem_iff hd, h.mem_iff h.settled]
  constructor
  · refine and_congr_right fun hs => and_congr_right fun hreach => exists_congr fun bytes => ?_
    exact (hk _ hreach (hplace hs) bytes).symm
  · rintro ⟨hs, hreach, bytes, hl⟩
    have hl' := (hk _ hreach (hplace hs) bytes).mp hl
    exact Graph.statements?_congr (Disk.stat_congr h.settled.tree hd.tree (h.settled.plain hl) (hd.plain hl')
      (hl'.trans hl.symm))

/-- A step that changes the files at one place and brings its node up to date keeps the invariant. -/
theorem Follows.step {seen' : Path → Disk} (h : Follows w seen) (hroot : w'.root = w.root)
    (hd : w'.disk.Settled nodeRule w.root.parts) (hk : SourcesKept w.root [x] w.disk w'.disk)
    (hgroot : w'.graph.root = w.graph.root) (hlinked : w'.graph.Linked)
    (hseen : ∀ q, q ≠ ⟨[Path.slash], x⟩ → seen' q = seen q)
    (hbuilt : w'.graph.Built (fun q => (q = ⟨[Path.slash], x⟩ ∧ q ∈ w'.disk.sourceFiles nodeRule w.root) ∨
      (q ≠ ⟨[Path.slash], x⟩ ∧ q ∈ w.disk.sourceFiles nodeRule w.root)) seen')
    (hread : ⟨[Path.slash], x⟩ ∈ w'.disk.sourceFiles nodeRule w.root →
      statements? (seen' ⟨[Path.slash], x⟩) ⟨[Path.slash], x⟩ = statements? w'.disk ⟨[Path.slash], x⟩) :
    Follows w' seen' := by
  refine ⟨hroot ▸ h.slash, hroot ▸ h.nameable, ?_, hroot ▸ hd, ?_, hlinked, ?_⟩
  · rw [hgroot, hroot]
    exact h.graphRoot
  · rw [hroot]
    refine hbuilt.congr (fun q => ?_) fun _ _ => rfl
    by_cases hq : q = ⟨[Path.slash], x⟩
    · simp [hq]
    · simp [hq, (h.sources_kept hd hk hq).1]
  · intro q hm
    rw [hroot] at hm
    by_cases hq : q = ⟨[Path.slash], x⟩
    · subst hq
      exact hread hm
    · obtain ⟨hsame, htext⟩ := h.sources_kept hd hk hq
      rw [hseen q hq, h.read q (hsame.mp hm), htext (hsame.mp hm)]

/-- Where no scan comes, nothing has to be brought up to date. -/
theorem Follows.unreached {seen' : Path → Disk} (h : Follows w seen) (hroot : w'.root = w.root)
    (hgraph : w'.graph = w.graph) (hd : w'.disk.Settled nodeRule w.root.parts)
    (hk : SourcesKept w.root [x] w.disk w'.disk) (hx : ¬ nodeRule.Reaches w.root.parts x)
    (hseen : ∀ q, q ≠ ⟨[Path.slash], x⟩ → seen' q = seen q) : Follows w' seen' := by
  have hnot {e : Disk} (he : e.Settled nodeRule w.root.parts) :
      ⟨[Path.slash], x⟩ ∉ e.sourceFiles nodeRule w.root := fun hm => hx ((h.mem_iff he).mp hm).2.1
  refine h.step hroot hd hk (by rw [hgraph]) (hgraph ▸ h.linked) hseen ?_ fun hm => absurd hm (hnot hd)
  rw [hgraph]
  refine h.built.congr (fun q => ?_) fun q hq => hseen q ?_
  · by_cases hq : q = ⟨[Path.slash], x⟩
    · subst hq
      simp [hnot hd, hnot h.settled]
    · simp [hq]
  · rintro rfl
    exact hnot h.settled hq

/-- A workspace that was opened follows the disk it was opened on. -/
theorem Follows.opened (hm : make s d given asked = .ok w₀) (hs : w₀.start = (w, .ok ()))
    (hd : d.Settled nodeRule w.root.parts) : Follows w fun _ => d := by
  obtain ⟨hdisk, hgraph, hresolved, hdirectory⟩ := make_ok hm
  obtain ⟨hdisk', hroot, hrebuild⟩ := start_ok hs
  rw [hdisk] at hdisk' hrebuild
  rw [← hroot] at hresolved hdirectory
  have hgroot : w₀.graph.root = w.root := by rw [hgraph, hroot]
  have hnameable : Disk.Nameable w.root := by
    obtain ⟨x, hl, -⟩ := Disk.isDirectory_iff.mp hdirectory
    exact (Disk.locate_ok hresolved.plain hl).2.2
  obtain ⟨hplain, hslash⟩ := hresolved.cases
  have hres : ∀ p ∈ d.sourceFiles nodeRule w₀.graph.root, d.resolve p = .ok p :=
    fun p hp => resolve_source hd hslash hnameable (hgroot ▸ hp)
  obtain ⟨hbuilt, hlinked, hroot'⟩ := Graph.rebuild_built hres hrebuild
  rw [hgroot] at hbuilt hroot'
  refine ⟨hslash, hnameable, hroot', hdisk'.symm ▸ hd, ?_, hlinked, ?_⟩
  · rw [hdisk']
    exact hbuilt
  · rw [hdisk']
    exact fun _ _ => rfl

/-- A change is looked at just if a scan reaches its place. -/
theorem Follows.tracks_iff {answer : Bool} (h : Follows w seen) (hd : d.Settled nodeRule w.root.parts)
    (ht : Tells p x d) (hx : x ≠ w.root.parts) (hs : nodeRule.keeps p.name = decide (p.suffix ∈ Graph.extensions))
    (hrun : tracks { w with disk := d } p = .ok answer) : answer = true ↔ nodeRule.Reaches w.root.parts x := by
  rw [Graph.reaches_iff h.slash hx, ← ht.named, hs]
  unfold tracks at hrun
  simp only [Disk.isExcluded_of_resolve ht.leads (h.resolve_root hd), Except.map] at hrun
  split at hrun
  · rename_i hm
    cases hrun
    simp [hm]
  · rename_i hm
    cases hrun
    simp [hm]

/-- A file that is new or has changed gets a node that is built on the disk as it is. -/
theorem Follows.changed (h : Follows w seen) (he : Event w p x d w')
    (hs : nodeRule.keeps p.name = decide (p.suffix ∈ Graph.extensions))
    (hrun : fileChanged s { w with disk := d } p = (w', .ok ())) :
    Follows w' (Function.update seen ⟨[Path.slash], x⟩ w'.disk) := by
  obtain ⟨hroot, hcases⟩ := fileChanged_ok hrun
  have hkept := he.edit.trans he.kept
  have hseen : ∀ q, q ≠ ⟨[Path.slash], x⟩ → Function.update seen ⟨[Path.slash], x⟩ w'.disk q = seen q :=
    fun q hq => Function.update_of_ne hq _ _
  rcases hcases with ⟨ht, -, hgraph⟩ | ⟨ht, hu⟩
  · refine h.unreached hroot hgraph he.settled' hkept ?_ hseen
    rw [← h.tracks_iff he.settled he.tells he.inside hs ht]
    exact Bool.false_ne_true
  · have hx := (h.tracks_iff he.settled he.tells he.inside hs ht).mp rfl
    obtain ⟨hbelow, hkeeps⟩ := (Graph.reaches_iff h.slash he.inside).mp hx
    have hsuffix : Path.suffix ⟨[Path.slash], x⟩ ∈ Graph.extensions := by
      rw [he.tells.suffix]
      rw [← he.tells.named, hs] at hkeeps
      exact of_decide_eq_true hkeeps
    have hexcluded : w'.disk.isExcluded w.graph.root ⟨[Path.slash], x⟩ = .ok false := by
      rw [h.graphRoot, Disk.isExcluded_of_resolve he.tells'.resolve_place (h.resolve_root he.settled'), hbelow]
    obtain ⟨there, hthere, hbuilt, hlinked, hgroot⟩ := h.built.updateFile h.linked (he.tells'.resolve_join _)
      hsuffix hexcluded hu
    have hfile : there = true ↔ ⟨[Path.slash], x⟩ ∈ w'.disk.sourceFiles nodeRule w.root := by
      rw [he.settled'.isFile_iff he.tells'.plain hthere, h.mem_iff he.settled']
      exact ⟨fun hl => ⟨rfl, hx, hl⟩, fun hm => hm.2.2⟩
    refine h.step hroot he.settled' hkept hgroot hlinked hseen ?_ fun _ => by rw [Function.update_self]
    refine hbuilt.congr (fun q => ?_) fun _ _ => rfl
    refine or_congr_left (and_congr_right ?_)
    rintro rfl
    exact hfile.symm

/-- The node of a file that is gone is dropped. -/
theorem Follows.removed (h : Follows w seen) (he : Event w p x d w')
    (hgone : ∀ bytes, d.lookup? x ≠ some (.file bytes))
    (hrun : fileRemoved { w with disk := d } p = (w', .ok ())) : Follows w' seen := by
  obtain ⟨hroot, hu⟩ := fileRemoved_ok hrun
  have hremove : w'.graph = w.graph.removeNode ⟨[Path.slash], x⟩ := by
    simp only [Graph.removeFile, Graph.resolve, he.tells'.resolve_join] at hu
    exact (Except.ok.inj hu).symm
  have hnot : ⟨[Path.slash], x⟩ ∉ w'.disk.sourceFiles nodeRule w.root := by
    intro hm
    obtain ⟨-, hreach, bytes, hl⟩ := (h.mem_iff he.settled').mp hm
    exact hgone bytes ((he.kept x hreach List.not_mem_nil bytes).mpr hl)
  obtain ⟨hbuilt, hlinked, hgroot⟩ := h.built.removeNode h.linked ⟨[Path.slash], x⟩
  rw [← hremove] at hbuilt hlinked hgroot
  refine h.step hroot he.settled' (he.edit.trans he.kept) hgroot hlinked (fun _ _ => rfl) ?_
    fun hm => absurd hm hnot
  refine hbuilt.congr (fun q => ?_) fun _ _ => rfl
  refine or_iff_right ?_
  rintro ⟨rfl, hm⟩
  exact hnot hm

/-- The invariant holds of every workspace that is told of its changes. -/
theorem Reached.follows (h : Reached s w seen) : Follows w seen := by
  induction h with
  | opened made started settled => exact .opened made started settled
  | changed before event suffix run ih => exact ih.changed event suffix run
  | removed before event gone run ih => exact ih.removed event gone run
  | @other w w' seen before graph root kept settled ih =>
    refine ih.unreached root graph settled (x := w.root.parts) ?_ ?_ fun _ _ => rfl
    · exact fun y hy _ => kept y hy List.not_mem_nil
    · exact fun hreach => absurd hreach.length_lt (Nat.lt_irrefl _)

/-- Rebuilding the graph of a workspace that was told of every change gives a graph if the imports of every
source can be resolved now. The graph of the workspace lags behind it: the two are the same just if the imports
of every file still mean what they meant when its node was built last. -/
theorem Reached.graph_lags (h : Reached s w seen) :
    ((∃ g, w.graph.rebuild w.disk = .ok g) ↔
      ∀ q ∈ w.disk.sourceFiles nodeRule w.root, ∃ now, resolved w.disk w.root q = .ok now) ∧
    ∀ g, w.graph.rebuild w.disk = .ok g → Graph.Lags seen w.disk w.graph g ∧
      (w.graph.Same g ↔ ∀ q ∈ w.disk.sourceFiles nodeRule w.root, ∀ built now,
        resolved (seen q) w.root q = .ok built → resolved w.disk w.root q = .ok now → ∀ p, p ∈ built ↔ p ∈ now) := by
  have hf := h.follows
  have hres : ∀ p ∈ w.disk.sourceFiles nodeRule w.graph.root, w.disk.resolve p = .ok p := by
    rw [hf.graphRoot]
    exact fun p hp => resolve_source hf.settled hf.slash hf.nameable hp
  have hok := Graph.rebuild_ok_iff hres
  rw [hf.graphRoot] at hok
  refine ⟨hok, fun g hg => ?_⟩
  obtain ⟨hbuilt, hlinked, hroot⟩ := Graph.rebuild_built hres hg
  rw [hf.graphRoot] at hbuilt
  have hlags := hf.built.lags hbuilt hf.linked hlinked hroot.symm hf.read
  have hsame := hlags.same_iff
  simp only [hf.built.nodes, hf.graphRoot] at hsame
  exact ⟨hlags, hsame⟩

theorem fileChanged_of_update {g : Graph} (hi : w.index = none) (ht : w.tracks p = .ok true)
    (hu : w.graph.updateFile w.disk p = .ok g) :
    fileChanged s w p = (markDirty { w with graph := g }, .ok ()) := by
  simp only [fileChanged, ht, indexOne, hi, changeGraph, hu]

/-- A workspace is opened, the disk changes and the workspace is told of it, and its graph is another one than
rebuilding gives. -/
def Diverges (s : Setting) (before after : Disk) (p : Path) : Prop :=
  ∃ w₀ w w' g, make s before "/w" = .ok w₀ ∧ w₀.start = (w, .ok ()) ∧
    fileChanged s { w with disk := after } p = (w', .ok ()) ∧ w'.graph.rebuild w'.disk = .ok g ∧ ¬ w'.graph.Same g

end

attribute [local instance] Host.usual

def plainSetting : Setting where
  config := Config.default
  home := ⟨"/", []⟩
  directory := ⟨"/", []⟩
  shell := fun disk _ _ _ => ⟨disk, some 0, [], []⟩

def base : Path := ⟨"/", ["w"]⟩

def lonely : Disk := ⟨[(["w"], .directory), (["w", "a.py"], .file (Utf8.encodeAny "import b\n"))]⟩
def joined : Disk := lonely.put ["w", "b.py"] (.file [])

def bareOn (d : Disk) (files : List Path) : Workspace :=
  { disk := d, root := base, graph := ⟨base, files.map fun p => (p, ⟨p, [], []⟩), []⟩ }

theorem parse_imports : (Source.parse .thread "import b\n").toOption.map Source.imports = some [⟨"b", 0, []⟩] ∧
    (Source.parse .thread []).toOption.map Source.imports = some [] := by
  decide +kernel

/-- Opening a workspace with one source that imports nothing. -/
theorem start_one (file : Path) {target : Path}
    (hf : d.sourceFiles { extensions := some Graph.extensions } base = [file])
    (hr : d.resolve file = .ok target) (hn : Graph.buildNode d base target = .ok (⟨target, [], []⟩, true)) :
    (bareOn d []).start = (bareOn d [target], .ok ()) := by
  have hrebuild : Graph.rebuild d ⟨base, [], []⟩ = .ok (bareOn d [target]).graph := by
    simp only [Graph.rebuild, hf, Graph.addFiles, hr, bind, Except.bind, hn]
    simp [bareOn, pure, Except.pure, Table.set, Graph.linkBack, Graph.importersOf]
  simp only [start, bareOn, List.map_nil, hrebuild]
  rfl

theorem start_lonely : (bareOn lonely []).start = (bareOn lonely [base.child "a.py"], .ok ()) := by
  have hread : lonely.readText (base.child "a.py") = .ok "import b\n" := by cbv
  exact start_one (base.child "a.py") (by cbv) (by cbv) (buildNode_of_imports [[]] hread parse_imports.1 (by cbv))

theorem changed_joined : fileChanged plainSetting { bareOn lonely [base.child "a.py"] with disk := joined }
    (base.child "b.py") = (bareOn joined [base.child "a.py", base.child "b.py"], .ok ()) := by
  have hread : joined.readText (base.child "b.py") = .ok [] := by cbv
  have hnode : Graph.buildNode joined base (base.child "b.py") = .ok (⟨base.child "b.py", [], []⟩, true) :=
    buildNode_of_imports [] hread parse_imports.2 rfl
  have hres : joined.resolve (base.join (base.child "b.py")) = .ok (base.child "b.py") := by cbv
  have hthere : joined.isFile (base.child "b.py") = .ok true := by cbv
  have hinside : joined.isExcluded base (base.child "b.py") = .ok false := by cbv
  have hsuffix : (base.child "b.py").suffix ∈ Graph.extensions := by decide
  have hupdate : Graph.updateFile joined (bareOn lonely [base.child "a.py"]).graph (base.child "b.py") =
      .ok (bareOn joined [base.child "a.py", base.child "b.py"]).graph := by
    simp only [Graph.updateFile, Graph.resolve, bareOn, hres, hthere, hsuffix, hinside, bind, Except.bind, hnode]
    cbv
  exact fileChanged_of_update rfl (by cbv) hupdate

def joinedGraph : Graph :=
  ⟨base, [(base.child "a.py", ⟨base.child "a.py", [base.child "b.py"], []⟩),
    (base.child "b.py", ⟨base.child "b.py", [], [base.child "a.py"]⟩)], []⟩

/-- The graph of a root below which a link leads to a file. -/
theorem rebuild_joined (nodes : Table Path GraphNode) : Graph.rebuild joined ⟨base, nodes, []⟩ =
    .ok joinedGraph := by
  have hread : joined.readText (base.child "a.py") = .ok "import b\n" ∧
      joined.readText (base.child "b.py") = .ok [] := ⟨by cbv, by cbv⟩
  have hnode : Graph.buildNode joined base (base.child "a.py") =
      .ok (⟨base.child "a.py", [base.child "b.py"], []⟩, true) ∧
      Graph.buildNode joined base (base.child "b.py") = .ok (⟨base.child "b.py", [], []⟩, true) :=
    ⟨buildNode_of_imports [[base.child "b.py"]] hread.1 parse_imports.1 (by cbv),
      buildNode_of_imports [] hread.2 parse_imports.2 rfl⟩
  have hfiles : joined.sourceFiles { extensions := some Graph.extensions } base =
      [base.child "a.py", base.child "b.py"] := by
    cbv
  have hres : joined.resolve (base.child "a.py") = .ok (base.child "a.py") ∧
      joined.resolve (base.child "b.py") = .ok (base.child "b.py") := ⟨by cbv, by cbv⟩
  simp only [Graph.rebuild, hfiles, Graph.addFiles, hres, bind, Except.bind, hnode]
  cbv

theorem settled_of_linkless {rule : Disk.ScanRule} (ht : d.IsTree) (hd : (Table.keys d.entries).Nodup)
    (hc : ∀ entry ∈ d.entries, Disk.Clean entry.1) (hl : d.Linkless) (hx : (".." : Text) ∉ x) : d.Settled rule x :=
  ⟨ht, hd, hc, ⟨hx, fun y _ => hl y⟩, fun y _ => hl y⟩

theorem settled_lonely : lonely.Settled nodeRule base.parts :=
  settled_of_linkless (by decide) (by decide) (by decide) (Disk.linkless_of_entries (by decide)) (by decide)

theorem settled_joined : joined.Settled nodeRule base.parts :=
  settled_of_linkless (by decide) (by decide) (by decide) (Disk.linkless_of_entries (by decide)) (by decide)

/-- The workspace is told of the module that was made, and the one that imports it keeps its node. -/
theorem joined_reached : Reached plainSetting (bareOn joined [base.child "a.py", base.child "b.py"])
    (Function.update (fun _ => lonely) (base.child "b.py") joined) := by
  have hmade : make plainSetting lonely "/w" = .ok (bareOn lonely []) := by cbv
  refine .changed (x := ["w", "b.py"]) (.opened hmade start_lonely settled_lonely) ?_ rfl changed_joined
  have hfile : joined.lookup? ["w", "b.py"] = some (.file []) := rfl
  have htells : Tells (base.child "b.py") ["w", "b.py"] joined := tells_file settled_joined hfile
  exact ⟨by decide, sourcesKept_put _ lonely _ _, settled_joined, htells, fun _ _ _ _ => Iff.rfl, settled_joined,
    htells⟩

theorem joined_differs : ¬ (bareOn joined [base.child "a.py", base.child "b.py"]).graph.Same joinedGraph := by
  intro same
  have himports := same.imports (base.child "a.py") ⟨base.child "a.py", [], []⟩
    ⟨base.child "a.py", [base.child "b.py"], []⟩ (by cbv) (by cbv) (base.child "b.py")
  simp at himports

theorem made_module_lags :
    Reached plainSetting (bareOn joined [base.child "a.py", base.child "b.py"])
      (Function.update (fun _ => lonely) (base.child "b.py") joined) ∧
    Graph.Lags (Function.update (fun _ => lonely) (base.child "b.py") joined) joined
      (bareOn joined [base.child "a.py", base.child "b.py"]).graph joinedGraph ∧
    ¬ (bareOn joined [base.child "a.py", base.child "b.py"]).graph.Same joinedGraph :=
  ⟨joined_reached, ((Reached.graph_lags joined_reached).2 joinedGraph (rebuild_joined _)).1, joined_differs⟩

def linked : Disk :=
  ⟨[(["w"], .directory), (["w", "link.py"], .link "real.txt"), (["w", "real.txt"], .file [])]⟩
def garbled : Disk := linked.put ["w", "real.txt"] (.file [255])

theorem start_linked : (bareOn linked []).start = (bareOn linked [base.child "real.txt"], .ok ()) := by
  have hread : linked.readText (base.child "real.txt") = .ok [] := by cbv
  exact start_one (base.child "link.py") (by cbv) (by cbv) (buildNode_of_imports [] hread parse_imports.2 rfl)

/-- No rebuilt graph: the importer of a module that was made keeps its imports, and a file with another name is
not looked at although a link makes it a source. -/
theorem told_graph_differs :
    Diverges plainSetting lonely joined (base.child "b.py") ∧
    Diverges plainSetting linked garbled (base.child "real.txt") := by
  constructor
  · have hmade : make plainSetting lonely "/w" = .ok (bareOn lonely []) := by cbv
    exact ⟨_, _, _, _, hmade, start_lonely, changed_joined, rebuild_joined _, joined_differs⟩
  · have hmade : make plainSetting linked "/w" = .ok (bareOn linked []) := by cbv
    have hignored : fileChanged plainSetting { bareOn linked [base.child "real.txt"] with disk := garbled }
        (base.child "real.txt") = (bareOn garbled [base.child "real.txt"], .ok ()) := by cbv
    have hrebuild : Graph.rebuild garbled ⟨base, [(base.child "real.txt", ⟨base.child "real.txt", [], []⟩)], []⟩ =
        .ok ⟨base, [(base.child "real.txt", ⟨base.child "real.txt", [], []⟩)], [base.child "real.txt"]⟩ := by cbv
    refine ⟨_, _, _, _, hmade, start_linked, hignored, hrebuild, fun same => ?_⟩
    exact List.not_mem_nil ((same.broken (base.child "real.txt")).mpr List.mem_cons_self)

end Workspace

end CodeAgent
