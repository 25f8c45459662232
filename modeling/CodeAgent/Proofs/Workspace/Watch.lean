import CodeAgent.Host.Usual
import CodeAgent.Workspace.Watch
import CodeAgent.Proofs.Graph.Fault
import CodeAgent.Proofs.Graph.History
import CodeAgent.Proofs.Index.Notice
import CodeAgent.Proofs.Index.Success

namespace CodeAgent.Workspace

open SemanticIndex (Lacks Minds Stored Quiet Willing readSource)

variable {s : Setting} {w w' : Workspace} {c c' : Change} {cs : List Change} {x y : Place} {root : Path}

variable {p : Path} {d : Disk} {ix ix' : SemanticIndex} {name source : Text}

/-- A change that is told under the path of a place in a workspace. -/
structure Told (root : Path) (c : Change) (x : Place) : Prop where
  leads : Path.ofText c.path = ⟨[Path.slash], x⟩
  inside : root.parts <+: x
  notUp : (".." : Text) ∉ x
  nameable : Disk.Nameable ⟨[Path.slash], x⟩

theorem Told.unique (h : Told root c x) (h' : Told root c y) : x = y := by
  have he := h.leads.symm.trans h'.leads
  cases he
  rfl

theorem Told.clean (h : Told root c x) : Disk.Clean x where
  names name hm := by
    have hpart : name ∈ (Path.ofText c.path).parts := by
      rw [h.leads]
      exact hm
    exact ⟨Path.mem_ofText hpart, fun he => h.notUp (he ▸ hm)⟩
  accepted := Disk.accepted_of_checkPath h.nameable.accepted

def nameIn (root : Path) (x : Place) : Text := Path.relativeText (x.drop root.parts.length)

/-- A workspace without links, with a service that answers, whose index can be saved. -/
structure Ready (s : Setting) (w : Workspace) : Prop where
  tree : w.disk.IsTree
  linkless : w.disk.Linkless
  slash : w.root.root = [Path.slash]
  clean : Disk.Clean w.root.parts
  graph : w.graph.root = w.root
  index : ∀ ix, w.index = some ix → ix.root = w.root ∧ Stored w.disk ix
  willing : ∀ e, embedder? s = some e → Willing e

theorem Ready.resolve (h : Ready s w) (hx : Disk.Clean x) : w.disk.resolve ⟨[Path.slash], x⟩ = .ok ⟨[Path.slash], x⟩ :=
  Disk.resolve_accepted (h.linkless.plain fun hm => (hx.names _ hm).notUp rfl) hx.accepted _

theorem Ready.resolve_root (h : Ready s w) : w.disk.resolve w.root = .ok w.root := by
  have hroot : w.root = ⟨[Path.slash], w.root.parts⟩ := by rw [← h.slash]
  rw [hroot]
  exact h.resolve h.clean

theorem Ready.excluded (h : Ready s w) (ht : Told w.root c x) : w.disk.isExcluded w.root ⟨[Path.slash], x⟩ =
    .ok ((Path.below? w.root ⟨[Path.slash], x⟩).all Disk.isBehindSkipped) :=
  Disk.isExcluded_of_resolve (h.resolve ht.clean) h.resolve_root

/-- The name of a place leads back to it and is its own name. -/
theorem relative_told (hslash : root.root = [Path.slash]) (hroot : ix.root = root) (hl : d.Linkless)
    (ht : Told root c x) : ix.relative d ⟨[Path.slash], x⟩ = .ok (nameIn root x) ∧
      ix.root.join (Path.ofText (nameIn root x)) = ⟨[Path.slash], x⟩ ∧
      ix.relative d (Path.ofText (nameIn root x)) = .ok (nameIn root x) := by
  subst hroot
  obtain ⟨rest, rfl⟩ := ht.inside
  have hclean := ht.clean
  have hrooted : ix.Rooted :=
    ⟨hslash, fun n hm => hclean.names n (List.mem_append_left _ hm), fun n hm =>
        hclean.accepted n (List.mem_append_left _ hm)⟩
  have hname : nameIn ix.root (ix.root.parts ++ rest) = Path.relativeText rest := by rw [nameIn, List.drop_left]
  have hjoin := hrooted.join_relative fun n hm => hclean.names n (List.mem_append_right _ hm)
  rcases hrooted.relative_plain (hl.plain ht.notUp) with ⟨-, hr⟩ | ⟨hnot, -⟩
  · have hown : ix.relative d (Path.ofText (Path.relativeText rest)) = ix.relative d (ix.below rest) := by
      unfold SemanticIndex.relative
      rw [hjoin]
      rfl
    rw [hname]
    exact ⟨hr, hjoin, hown.trans hr⟩
  · exact absurd hclean.accepted hnot

/-- Different places have different names. -/
theorem nameIn_injective (hslash : root.root = [Path.slash]) (hx : Told root c x) (hy : Told root c' y)
    (h : nameIn root x = nameIn root y) : x = y := by
  have hlink : Disk.empty.Linkless := Disk.linkless_of_entries (by decide)
  have hnew : ({ root, file := root } : SemanticIndex).root = root := rfl
  obtain ⟨-, hleads, -⟩ := relative_told hslash hnew hlink hx
  obtain ⟨-, hleads', -⟩ := relative_told hslash hnew hlink hy
  rw [h, hleads'] at hleads
  cases hleads
  rfl

section
/-- Nothing but the index has changed, and of it what it holds of one file at most. -/
structure Reindexed (name : Text) (w w' : Workspace) : Prop where
  root : w'.root = w.root
  graph : w'.graph = w.graph
  spares : w.disk.Spares w'.disk
  without : w.index = none → w'.index = none
  kept : ∀ ix, w.index = some ix → ∃ ix', w'.index = some ix' ∧ Minds name ix ix' ∧ Stored w'.disk ix'

/-- A quiet step of the index raises nothing, and minds one name. -/
theorem indexOne_quiet (step : Disk → SemanticIndex → IndexStep IndexOutcome)
    (h : ∀ ix, w.index = some ix → Quiet w.disk (step w.disk ix) ∧ Minds name ix (step w.disk ix).index) :
    ∃ w', w.indexOne step = (w', .ok ()) ∧ Reindexed name w w' ∧
      ∀ ix', w'.index = some ix' → ∃ ix, w.index = some ix ∧ ix' = (step w.disk ix).index := by
  unfold indexOne
  cases hi : w.index with
  | none =>
    refine ⟨w, rfl, ⟨rfl, rfl, .refl _, fun _ => hi, fun ix hx => ?_⟩, fun ix hx => ?_⟩
    all_goals cases hi.symm.trans hx
  | some ix =>
    obtain ⟨hquiet, hminds⟩ := h ix hi
    obtain ⟨outcome, hok⟩ := hquiet.ok
    cases hstep : step w.disk ix with
    | mk d' ix₁ result =>
      rw [hstep] at hquiet hminds hok
      dsimp only at hok
      subst hok
      refine ⟨{ w with disk := d', index := some ix₁ }, by simp only [hstep],
        ⟨rfl, rfl, hquiet.spares, ?_, ?_⟩, ?_⟩
      · intro hn
        cases hi.symm.trans hn
      · intro ix₀ hx
        obtain rfl := Option.some.inj (hi.symm.trans hx)
        exact ⟨ix₁, rfl, hminds, hquiet.stored⟩
      · intro ix₀ hx
        cases hx
        exact ⟨ix, rfl, by rw [hstep]⟩

/-- What a change at one place leaves as it was: the imports of all other files, their digests in the index, and
what stands on the disk where a module can. -/
structure Noted (x : Place) (w w' : Workspace) : Prop where
  root : w'.root = w.root
  graph : w'.graph.root = w.graph.root
  spares : w.disk.Spares w'.disk
  imports : ∀ q, q ≠ ⟨[Path.slash], x⟩ → w'.graph.importsAt q = w.graph.importsAt q
  without : w.index = none → w'.index = none
  kept : ∀ ix, w.index = some ix → ∃ ix', w'.index = some ix' ∧ Minds (nameIn w.root x) ix ix' ∧ Stored w'.disk ix'

theorem Reindexed.noted (h : Reindexed (nameIn w.root x) w w') : Noted x w w' :=
  ⟨h.root, congrArg Graph.root h.graph, h.spares, fun _ _ => by rw [h.graph], h.without, h.kept⟩

/-- After the index the graph is changed for the same place. -/
theorem Noted.regraph {g : Graph} (h : Noted x w w') (hroot : g.root = w'.graph.root)
    (hg : ∀ q, q ≠ ⟨[Path.slash], x⟩ → g.importsAt q = w'.graph.importsAt q) :
    Noted x w (markDirty { w' with graph := g }) :=
  ⟨h.root, hroot.trans h.graph, h.spares, fun q hq => (hg q hq).trans (h.imports q hq), h.without, h.kept⟩

/-- An index is there afterwards if one was there before. -/
theorem Noted.index (hn : Noted x w w') (hi' : w'.index = some ix') :
    ∃ ix, w.index = some ix ∧ Minds (nameIn w.root x) ix ix' ∧ Stored w'.disk ix' := by
  cases hi : w.index with
  | none => cases (hn.without hi).symm.trans hi'
  | some ix =>
    obtain ⟨ix₁, hi₁, hminds, hstored⟩ := hn.kept ix hi
    obtain rfl := Option.some.inj (hi₁.symm.trans hi')
    exact ⟨ix, rfl, hminds, hstored⟩

theorem Noted.refl (h : Ready s w) (x : Place) : Noted x w w :=
  ⟨rfl, rfl, .refl _, fun _ _ => rfl, fun h => h, fun ix hi => ⟨ix, hi, .refl _ ix, (h.index ix hi).2⟩⟩

theorem Ready.noted (h : Ready s w) (hn : Noted x w w') : Ready s w' where
  tree := hn.spares.tree h.tree
  linkless := hn.spares.linkless h.linkless
  slash := hn.root ▸ h.slash
  clean := hn.root ▸ h.clean
  graph := hn.graph.trans (h.graph.trans hn.root.symm)
  index ix' hi' := by
    obtain ⟨ix, hi, hminds, hstored⟩ := hn.index hi'
    exact ⟨hminds.root.trans ((h.index ix hi).1.trans hn.root.symm), hstored⟩
  willing := h.willing

/-- Nothing of a place is in the graph or in the index. -/
structure Absent (w : Workspace) (x : Place) : Prop where
  graph : w.graph.importsAt ⟨[Path.slash], x⟩ = none
  index : ∀ ix, w.index = some ix → ix.Lacks (nameIn w.root x)

/-- What is absent stays so when a change at another place is worked off. -/
theorem Absent.noted (ha : Absent w x) (h : Ready s w) (hn : Noted y w w') (hx : Told w.root c x)
    (hy : Told w.root c' y) (hne : x ≠ y) : Absent w' x where
  graph := by
    rw [hn.imports _ fun he => hne (congrArg Path.parts he)]
    exact ha.graph
  index ix' hi' := by
    obtain ⟨ix, hi, hminds, -⟩ := hn.index hi'
    rw [hn.root]
    exact hminds.lacks (fun he => hne (nameIn_injective h.slash hx hy he)) (ha.index ix hi)

/-- What every change leaves as it is. -/
structure Kept (w w' : Workspace) : Prop where
  root : w'.root = w.root
  spares : w.disk.Spares w'.disk
  indexed : w'.index.isSome = w.index.isSome

theorem Noted.toKept (hn : Noted x w w') : Kept w w' where
  root := hn.root
  spares := hn.spares
  indexed := by
    cases hi : w.index with
    | none => rw [hn.without hi]
    | some ix =>
      obtain ⟨ix', hi', -⟩ := hn.kept ix hi
      rw [hi']
      rfl

theorem Kept.trans {w'' : Workspace} (h : Kept w w') (h' : Kept w' w'') : Kept w w'' :=
  ⟨h'.root.trans h.root, h.spares.trans h'.spares, h'.indexed.trans h.indexed⟩

/-- A module is read as before. -/
theorem Kept.readText_iff (hk : Kept w w') (h : Ready s w) (ht : Told w.root c x)
    (hs : Path.suffix ⟨[Path.slash], x⟩ ∈ Graph.extensions) :
    w'.disk.readText ⟨[Path.slash], x⟩ = .ok source ↔ w.disk.readText ⟨[Path.slash], x⟩ = .ok source := by
  have hplain := h.linkless.plain ht.notUp
  have hplain' := (hk.spares.linkless h.linkless).plain ht.notUp
  constructor
  · intro hr
    obtain ⟨bytes, hfile'⟩ := SemanticIndex.file_of_readText_plain hplain' hr
    have hfile := (hk.spares.file_iff hs).mp hfile'
    exact SemanticIndex.readText_congr h.tree hplain' hplain (hfile.trans hfile'.symm) hr
  · intro hr
    obtain ⟨bytes, hfile⟩ := SemanticIndex.file_of_readText_plain hplain hr
    have hfile' := (hk.spares.file_iff hs).mpr hfile
    exact SemanticIndex.readText_congr (hk.spares.tree h.tree) hplain hplain' (hfile'.trans hfile.symm) hr

/-- A file that is tracked has a known ending and is not excluded. -/
theorem of_tracks (hw : w.tracks p = .ok true) :
    p.suffix ∈ Graph.extensions ∧ w.disk.isExcluded w.root p = .ok false := by
  unfold tracks at hw
  split at hw
  · rename_i hs
    refine ⟨hs, ?_⟩
    cases he : w.disk.isExcluded w.root p with
    | error fault =>
      rw [he] at hw
      cases hw
    | ok excluded =>
      rw [he] at hw
      cases excluded with
      | false => rfl
      | true => cases hw
  · cases hw

/-- Which files scans reach is a matter of the root. -/
theorem Ready.tracks_eq (h : Ready s w) (h' : Ready s w') (hroot : w'.root = w.root) (ht : Told w.root c x) :
    w'.tracks ⟨[Path.slash], x⟩ = w.tracks ⟨[Path.slash], x⟩ := by
  unfold tracks
  rw [h'.excluded (hroot.symm ▸ ht), h.excluded ht, hroot]

def inOrder (batch : List Change) : List Change := batch.mergeSort fun a b => Text.ble a.path b.path

/-- The change at a place that is worked off last, after the changes before it. -/
structure Last (root : Path) (batch before : List Change) (c : Change) (x : Place) : Prop where
  told : Told root c x
  order : ∃ after, inOrder batch = before ++ c :: after ∧ ∀ c' ∈ after, ¬ Told root c' x

theorem exists_last {p : Change → Prop} (h : ∃ c ∈ cs, p c) :
    ∃ before c after, cs = before ++ c :: after ∧ p c ∧ ∀ c' ∈ after, ¬ p c' := by
  induction cs with
  | nil => simp at h
  | cons c rest ih =>
    by_cases hrest : ∃ c' ∈ rest, p c'
    · obtain ⟨before, c', after, rfl, hp, hlast⟩ := ih hrest
      exact ⟨c :: before, c', after, rfl, hp, hlast⟩
    · simp only [not_exists, not_and] at hrest
      obtain ⟨c', hc', hp⟩ := h
      rcases List.mem_cons.mp hc' with rfl | hc'
      · exact ⟨[], c', rest, rfl, hp, hrest⟩
      · exact absurd hp (hrest c' hc')

theorem Last.of_mem {batch : List Change} (hc : c ∈ batch) (ht : Told root c x) :
    ∃ before c', Last root batch before c' x := by
  obtain ⟨before, c', after, horder, ht', hlast⟩ :=
    exists_last (p := fun c => Told root c x) ⟨c, List.mem_mergeSort.mpr hc, ht⟩
  exact ⟨before, c', ht', after, horder, hlast⟩

variable [Host]

theorem takeNote_told (ht : Told w.root c x) : w.takeNote s c =
    if c.kind = .deleted then w.fileRemoved ⟨[Path.slash], x⟩ else w.fileChanged s ⟨[Path.slash], x⟩ := by
  have hresolve : w.resolve s c.path = .ok ⟨[Path.slash], x⟩ := by
    have hne : c.path ≠ [] := by
      intro he
      have hleads := ht.leads
      rw [he] at hleads
      cases hleads
    rw [resolve, if_neg (by simpa using hne), ht.leads]
    cases x <;> rfl
  rw [takeNote, hresolve]

/-- The text at a place, if there is one, fits on every stack. -/
def Shallow (d : Disk) (x : Place) : Prop :=
  ∀ source, d.readText ⟨[Path.slash], x⟩ = .ok source → Source.Fits source

theorem Shallow.kept (hf : Shallow w.disk x) (hk : Kept w w') (h : Ready s w) (ht : Told w.root c x)
    (hs : Path.suffix ⟨[Path.slash], x⟩ ∈ Graph.extensions) : Shallow w'.disk x :=
  fun source hr => hf source ((hk.readText_iff h ht hs).mp hr)

/-- Where no file is there is no text. -/
theorem shallow_of_no_file (h : Ready s w) (ht : Told w.root c x)
    (hx : ∀ bytes, w.disk.lookup? x ≠ some (.file bytes)) :
    Shallow w.disk x := by
  intro source hr
  obtain ⟨bytes, hfile⟩ := SemanticIndex.file_of_readText_plain (h.linkless.plain ht.notUp) hr
  exact absurd hfile (hx bytes)

section
variable (h : Ready s w) (ht : Told w.root c x)
include h ht

omit [Host] in
theorem Ready.resolve_graph {w₁ : Workspace} (hn : Noted x w w₁) :
    w₁.graph.resolve w₁.disk ⟨[Path.slash], x⟩ = .ok ⟨[Path.slash], x⟩ :=
  (h.noted hn).resolve ht.clean

omit [Host] in
/-- A deletion leaves nothing of its file, whether the file is there or not. -/
theorem fileRemoved_told : ∃ w', w.fileRemoved ⟨[Path.slash], x⟩ = (w', .ok ()) ∧ Noted x w w' ∧ Absent w' x := by
  have hstep : ∀ ix, w.index = some ix → Quiet w.disk (ix.removeFile w.disk ⟨[Path.slash], x⟩ true) ∧
      Minds (nameIn w.root x) ix (ix.removeFile w.disk ⟨[Path.slash], x⟩ true).index ∧
        (ix.removeFile w.disk ⟨[Path.slash], x⟩ true).index.Lacks (nameIn w.root x) := by
    intro ix hi
    obtain ⟨hroot, hstored⟩ := h.index ix hi
    exact SemanticIndex.removeFile_quiet hstored (relative_told h.slash hroot h.linkless ht).1
  obtain ⟨w₁, hrun, hreindexed, hindex⟩ :=
    indexOne_quiet (fun d ix => ix.removeFile d ⟨[Path.slash], x⟩ true) fun ix hi =>
      ⟨(hstep ix hi).1, (hstep ix hi).2.1⟩
  have hnoted := hreindexed.noted
  have hgraph : w₁.graph.removeFile w₁.disk ⟨[Path.slash], x⟩ = .ok (w₁.graph.removeNode ⟨[Path.slash], x⟩) := by
    rw [Graph.removeFile, h.resolve_graph ht hnoted]
    rfl
  refine ⟨markDirty { w₁ with graph := w₁.graph.removeNode ⟨[Path.slash], x⟩ }, ?_,
    hnoted.regraph (Graph.root_removeNode _ _) fun q hq => ?_, ?_, fun ix' hi' => ?_⟩
  · simp only [fileRemoved, hrun, changeGraph, hgraph]
  · rw [Graph.importsAt_removeNode, if_neg hq]
  · exact (Graph.importsAt_removeNode _ _ _).trans (if_pos rfl)
  · have hroot : (markDirty { w₁ with graph := w₁.graph.removeNode ⟨[Path.slash], x⟩ }).root = w.root := hreindexed.root
    rw [hroot]
    obtain ⟨ix, hi, rfl⟩ := hindex ix' hi'
    exact (hstep ix hi).2.2

theorem updateFile_gone (hx : ∀ bytes, w.disk.lookup? x ≠ some (.file bytes)) :
    w.graph.updateFile w.disk ⟨[Path.slash], x⟩ = .ok (w.graph.removeNode ⟨[Path.slash], x⟩) :=
  Graph.updateFile_of_absent (h.resolve_graph ht (.refl h x))
    (Disk.isFile_of_no_file (h.linkless.plain ht.notUp) ht.nameable hx)

/-- The node of a file that is there is built anew if its imports can be looked for. -/
theorem updateFile_there {bytes : Bytes} {imports : List Path} (hx : w.disk.lookup? x = some (.file bytes))
    (hs : Path.suffix ⟨[Path.slash], x⟩ ∈ Graph.extensions)
    (he : w.disk.isExcluded w.root ⟨[Path.slash], x⟩ = .ok false)
    (hr : Graph.resolved w.disk w.root ⟨[Path.slash], x⟩ = .ok imports) :
    ∃ g, w.graph.updateFile w.disk ⟨[Path.slash], x⟩ = .ok g ∧ g.importsAt ⟨[Path.slash], x⟩ = some imports := by
  have hfile := Disk.isFile_of_file h.tree (h.linkless.plain ht.notUp) ht.nameable hx
  rw [Graph.updateFile_of_source (h.resolve_graph ht (.refl h x)) hfile hs (h.graph ▸ he), h.graph]
  unfold Graph.resolved at hr
  cases hb : Graph.buildNode w.disk w.root ⟨[Path.slash], x⟩ with
  | error fault =>
    rw [hb] at hr
    cases hr
  | ok built =>
    obtain ⟨n, parsed⟩ := built
    rw [hb] at hr
    refine ⟨_, rfl, ?_⟩
    rw [Graph.importsAt_setNode, (Graph.buildNode_ok hb).1, if_pos rfl]
    exact congrArg some (Except.ok.inj hr)

/-- Bringing the graph up to date with one file changes nothing else, and only the system can fail. -/
theorem changeGraph_told {w₁ : Workspace} (hn : Noted x w w₁) (hf : Shallow w₁.disk x) :
    ∃ w' r, w₁.changeGraph (fun d g => g.updateFile d ⟨[Path.slash], x⟩) = (w', r) ∧ Disk.SystemOnly r ∧
      Noted x w w' ∧ w'.disk = w₁.disk ∧ w'.index = w₁.index ∧ w'.root = w₁.root ∧
      ∀ g, w₁.graph.updateFile w₁.disk ⟨[Path.slash], x⟩ = .ok g → w'.graph = g := by
  have hready := h.noted hn
  have hresolve := h.resolve_graph ht hn
  unfold changeGraph
  dsimp only
  cases hu : w₁.graph.updateFile w₁.disk ⟨[Path.slash], x⟩ with
  | ok g =>
    refine ⟨markDirty { w₁ with graph := g }, .ok (), rfl, Disk.systemOnly_ok (),
      hn.regraph (Graph.updateFile_root hu) fun q hq => ?_, rfl, rfl, rfl, ?_⟩
    · refine Graph.importsAt_updateFile hu fun hq' => hq ?_
      exact Except.ok.inj (hq'.symm.trans hresolve)
    · exact fun g' hg => Except.ok.inj hg
  | error fault =>
    refine ⟨w₁, .error fault, rfl, fun fault' hf => ?_, hn, rfl, rfl, rfl, nofun⟩
    cases hf
    exact Graph.updateFile_systemOnly hready.linkless hresolve (hready.graph ▸ hready.resolve_root) hf fault hu

/-- A file that scans reach is brought up to date in the index first and then in the graph. -/
theorem fileChanged_tracked (hw : w.tracks ⟨[Path.slash], x⟩ = .ok true) (hf : Shallow w.disk x) :
    ∃ w₁, w.fileChanged s ⟨[Path.slash], x⟩ = w₁.changeGraph (fun d g => g.updateFile d ⟨[Path.slash], x⟩) ∧
      Reindexed (nameIn w.root x) w w₁ ∧ ∀ ix₁, w₁.index = some ix₁ → ∃ ix, w.index = some ix ∧
        (readSource w.disk ⟨[Path.slash], x⟩ = .missing → ix₁.Lacks (nameIn w.root x)) ∧
        (∀ source file, readSource w.disk ⟨[Path.slash], x⟩ = .text source → Source.parse .loop source = .ok file →
          ix₁.store.hash? (nameIn w.root x) = some (Source.hashText source)) ∧
        (readSource w.disk ⟨[Path.slash], x⟩ = .unreadable → ix₁ = ix) := by
  have hwilling : Willing ((embedder? s).getD fun _ _ => .ok []) := by
    cases he : embedder? s with
    | none => exact fun _ _ => ⟨[], rfl⟩
    | some e => exact h.willing e he
  have hstep (ix : SemanticIndex) (hi : w.index = some ix) := by
    obtain ⟨hroot, hstored⟩ := h.index ix hi
    obtain ⟨hname, hjoin, hown⟩ := relative_told h.slash hroot h.linkless ht
    exact SemanticIndex.indexFile_quiet hwilling hstored hname hown hjoin
      (fun fault => SemanticIndex.readSource_not_refused ht.nameable.accepted fault)
      fun source hr => hf source (SemanticIndex.readText_of_readSource hr)
  obtain ⟨w₁, hrun, hreindexed, hindex⟩ := indexOne_quiet
    (fun d ix => ix.indexFile ((embedder? s).getD fun _ _ => .ok []) d ⟨[Path.slash], x⟩ true)
    fun ix hi => ⟨(hstep ix hi).1, (hstep ix hi).2.1⟩
  refine ⟨w₁, by simp only [fileChanged, hw, hrun], hreindexed, fun ix₁ hi₁ => ?_⟩
  obtain ⟨ix, hi, rfl⟩ := hindex ix₁ hi₁
  exact ⟨ix, hi, (hstep ix hi).2.2⟩

omit [Host] in
/-- Whether scans reach the file is known without failing. -/
theorem tracks_told : ∃ reached, w.tracks ⟨[Path.slash], x⟩ = .ok reached := by
  unfold tracks
  split
  · exact ⟨_, by rw [h.excluded ht]; rfl⟩
  · exact ⟨false, rfl⟩

/-- A change is felt at its own place only, and only the system can refuse it. -/
theorem takeNote_noted (hf : c.kind ≠ .deleted → w.tracks ⟨[Path.slash], x⟩ = .ok true → Shallow w.disk x) :
    Disk.SystemOnly (w.takeNote s c).2 ∧ Noted x w (w.takeNote s c).1 := by
  rw [takeNote_told ht]
  split
  · obtain ⟨w', hrun, hnoted, -⟩ := fileRemoved_told h ht
    rw [hrun]
    exact ⟨Disk.systemOnly_ok (), hnoted⟩
  · rename_i hk
    obtain ⟨reached, hw⟩ := tracks_told h ht
    cases reached with
    | false =>
      simp only [fileChanged, hw]
      exact ⟨Disk.systemOnly_ok (), (Noted.refl h x).regraph (g := w.graph) rfl fun _ _ => rfl⟩
    | true =>
      have hfits := hf hk hw
      obtain ⟨w₁, hrun, hreindexed, -⟩ := fileChanged_tracked h ht hw hfits
      obtain ⟨w', r, hgraph, hsystem, hnoted, -⟩ := changeGraph_told h ht hreindexed.noted
        (hfits.kept hreindexed.noted.toKept h ht (of_tracks hw).1)
      rw [hrun, hgraph]
      exact ⟨hsystem, hnoted⟩

theorem takeNote_deleted (hk : c.kind = .deleted) : Absent (w.takeNote s c).1 x := by
  obtain ⟨w', hrun, -, habsent⟩ := fileRemoved_told h ht
  rw [takeNote_told ht, if_pos hk, hrun]
  exact habsent

end

section
variable (h : Ready s w) (ht : Told w.root c x)
include h ht

/-- Of a file that scans reach and that is not there nothing is left, if reading it tells that it is missing or if
the index had nothing of it. -/
theorem takeNote_gone (hk : c.kind ≠ .deleted) (hw : w.tracks ⟨[Path.slash], x⟩ = .ok true)
    (hx : ∀ bytes, w.disk.lookup? x ≠ some (.file bytes))
    (hr : readSource w.disk ⟨[Path.slash], x⟩ = .missing ∨ ∀ ix, w.index = some ix → ix.Lacks (nameIn w.root x)) :
    Absent (w.takeNote s c).1 x := by
  have hfits := shallow_of_no_file h ht hx
  obtain ⟨w₁, hrun, hreindexed, hindex⟩ := fileChanged_tracked h ht hw hfits
  obtain ⟨w', r, hgraph, -, -, hdisk', hindex', hroot', hupdate⟩ := changeGraph_told h ht hreindexed.noted
    (hfits.kept hreindexed.noted.toKept h ht (of_tracks hw).1)
  rw [takeNote_told ht, if_neg hk, hrun, hgraph]
  have hx₁ (bytes : Bytes) : w₁.disk.lookup? x ≠ some (.file bytes) :=
    mt (hreindexed.spares.file_iff (of_tracks hw).1).mp (hx bytes)
  have ht₁ : Told w₁.root c x := hreindexed.root ▸ ht
  refine ⟨?_, fun ix' hi' => ?_⟩
  · rw [hupdate _ (updateFile_gone (h.noted hreindexed.noted) ht₁ hx₁), Graph.importsAt_removeNode, if_pos rfl]
  · rw [hroot', hreindexed.root]
    obtain ⟨ix, hi, hmissing, -, hsame⟩ := hindex ix' (hindex' ▸ hi')
    cases hread : readSource w.disk ⟨[Path.slash], x⟩ with
    | missing => exact hmissing hread
    | unreadable =>
      rw [hsame hread]
      refine (hr.resolve_left fun hm => ?_) ix hi
      cases hread.symm.trans hm
    | refused fault => exact absurd hread (SemanticIndex.readSource_not_refused ht.nameable.accepted fault)
    | text source =>
      obtain ⟨bytes, hfile⟩ := SemanticIndex.file_of_readText_plain (h.linkless.plain ht.notUp)
        (SemanticIndex.readText_of_readSource hread)
      exact absurd hfile (hx bytes)

/-- What is absent and not there stays absent whatever is told of it. -/
theorem takeNote_absent (hx : ∀ bytes, w.disk.lookup? x ≠ some (.file bytes)) (ha : Absent w x) :
    Absent (w.takeNote s c).1 x := by
  by_cases hk : c.kind = .deleted
  · exact takeNote_deleted h ht hk
  · obtain ⟨reached, hw⟩ := tracks_told h ht
    cases reached with
    | false =>
      rw [takeNote_told ht, if_neg hk]
      simp only [fileChanged, hw]
      exact ⟨ha.graph, ha.index⟩
    | true => exact takeNote_gone h ht hk hw hx (Or.inr ha.index)

end

/-- The node of a file is the one that its text and the disk give, and the index has the digest of its text. `met`
is the disk that was met when the file was last told of. -/
structure Current (w : Workspace) (met : Disk) (x : Place) (source : Text) : Prop where
  read : met.readText ⟨[Path.slash], x⟩ = .ok source
  node : ∃ imports, Graph.resolved met w.root ⟨[Path.slash], x⟩ = .ok imports ∧
    w.graph.importsAt ⟨[Path.slash], x⟩ = some imports
  hash : ∀ ix, w.index = some ix → ix.store.hash? (nameIn w.root x) = some (Source.hashText source)

/-- A change told of one file leaves it open for the others whether they are current. -/
theorem Noted.current_iff {met : Disk} (hn : Noted y w w') (h : Ready s w) (hx : Told w.root c x)
    (hy : Told w.root c' y) (hne : x ≠ y) : Current w' met x source ↔ Current w met x source := by
  have himports := hn.imports ⟨[Path.slash], x⟩ fun he => hne (congrArg Path.parts he)
  have hname : nameIn w.root x ≠ nameIn w.root y := fun he => hne (nameIn_injective h.slash hx hy he)
  constructor
  · rintro ⟨hread, hnode, hhash⟩
    rw [himports, hn.root] at hnode
    refine ⟨hread, hnode, fun ix hi => ?_⟩
    obtain ⟨ix', hi', hminds, -⟩ := hn.kept ix hi
    rw [← hminds.hash _ hname, ← hn.root]
    exact hhash ix' hi'
  · rintro ⟨hread, hnode, hhash⟩
    rw [← himports, ← hn.root] at hnode
    refine ⟨hread, hnode, fun ix' hi' => ?_⟩
    obtain ⟨ix, hi, hminds, -⟩ := hn.index hi'
    rw [hn.root, hminds.hash _ hname]
    exact hhash ix hi

/-- A file is current once it was told of, just if it was not told as deleted and its imports can be looked for. -/
theorem takeNote_current {file : List Source.Stmt} (h : Ready s w) (ht : Told w.root c x)
    (hw : w.tracks ⟨[Path.slash], x⟩ = .ok true)
    (hr : w.disk.readText ⟨[Path.slash], x⟩ = .ok source) (hp : Source.parse .loop source = .ok file)
    (hf : c.kind ≠ .deleted → Shallow w.disk x) :
    Current (w.takeNote s c).1 (w.takeNote s c).1.disk x source ↔ c.kind ≠ .deleted ∧
      ∃ imports, Graph.resolved (w.takeNote s c).1.disk w.root ⟨[Path.slash], x⟩ = .ok imports := by
  have hnoted := (takeNote_noted h ht fun hk _ => hf hk).2
  constructor
  · intro hc
    obtain ⟨imports, hresolved, hnode⟩ := hc.node
    refine ⟨fun hk => ?_, imports, hnoted.root ▸ hresolved⟩
    rw [(takeNote_deleted h ht hk).graph] at hnode
    cases hnode
  · rintro ⟨hk, imports, hresolved⟩
    have hread := (hnoted.toKept.readText_iff h ht (of_tracks hw).1).mpr hr
    obtain ⟨w₁, hrun, hreindexed, hindex⟩ := fileChanged_tracked h ht hw (hf hk)
    obtain ⟨w', r, hgraph, -, -, hdisk', hindex', hroot', hupdate⟩ := changeGraph_told h ht hreindexed.noted
      ((hf hk).kept hreindexed.noted.toKept h ht (of_tracks hw).1)
    rw [takeNote_told ht, if_neg hk, hrun, hgraph] at hread hresolved ⊢
    dsimp only at hread hresolved ⊢
    have hready₁ := h.noted hreindexed.noted
    have ht₁ : Told w₁.root c x := hreindexed.root ▸ ht
    refine ⟨hread, ⟨imports, by rwa [hroot', hreindexed.root], ?_⟩, fun ix' hi' => ?_⟩
    · rw [hdisk'] at hread hresolved
      obtain ⟨bytes, hfile⟩ := SemanticIndex.file_of_readText_plain (hready₁.linkless.plain ht.notUp) hread
      have hexcluded : w₁.disk.isExcluded w₁.root ⟨[Path.slash], x⟩ = .ok false := by
        rw [hready₁.excluded ht₁, hreindexed.root, ← h.excluded ht]
        exact (of_tracks hw).2
      obtain ⟨g, hu, hg⟩ := updateFile_there hready₁ ht₁ hfile (of_tracks hw).1 hexcluded
        (hreindexed.root ▸ hresolved)
      rw [hupdate g hu, hg]
    · rw [hroot', hreindexed.root]
      obtain ⟨ix, -, -, hhash, -⟩ := hindex ix' (hindex' ▸ hi')
      exact hhash source file (SemanticIndex.readSource_of_readText hr) hp

def noted (s : Setting) (w : Workspace) (cs : List Change) : Workspace :=
  cs.foldl (fun w c => (w.takeNote s c).1) w

theorem noted_cons (s : Setting) (w : Workspace) (c : Change) (cs : List Change) :
    noted s w (c :: cs) = noted s (w.takeNote s c).1 cs := rfl

theorem noted_append (s : Setting) (w : Workspace) (cs cs' : List Change) :
    noted s w (cs ++ cs') = noted s (noted s w cs) cs' := List.foldl_append

/-- Changes that are told under the paths of places in a workspace. -/
def AllTold (root : Path) (cs : List Change) : Prop := ∀ c ∈ cs, ∃ x, Told root c x

/-- The texts fit that are read when changes are worked off. -/
def AllFit (w : Workspace) (cs : List Change) : Prop :=
  ∀ c ∈ cs, c.kind ≠ .deleted → ∀ x, Told w.root c x → w.tracks ⟨[Path.slash], x⟩ = .ok true → Shallow w.disk x

theorem AllFit.kept (hf : AllFit w cs) (hk : Kept w w') (h : Ready s w) (h' : Ready s w') : AllFit w' cs := by
  intro c hc hkind x ht hw
  rw [hk.root] at ht
  rw [h.tracks_eq h' hk.root ht] at hw
  exact (hf c hc hkind x ht hw).kept hk h ht (of_tracks hw).1

theorem noted_ready (h : Ready s w) (hcs : AllTold w.root cs) (hf : AllFit w cs) :
    Ready s (noted s w cs) ∧ Kept w (noted s w cs) := by
  induction cs generalizing w with
  | nil => exact ⟨h, rfl, .refl _, rfl⟩
  | cons c rest ih =>
    obtain ⟨⟨x, ht⟩, hrest⟩ := List.forall_mem_cons.mp hcs
    obtain ⟨hfirst, hfits⟩ := List.forall_mem_cons.mp hf
    have hn := (takeNote_noted h ht fun hk => hfirst hk x ht).2
    obtain ⟨hready, hkept⟩ := ih (h.noted hn) (hn.root.symm ▸ hrest) (AllFit.kept hfits hn.toKept h (h.noted hn))
    exact ⟨hready, hn.toKept.trans hkept⟩

/-- No change ends a batch. -/
theorem takeNotes_told (h : Ready s w) (hcs : AllTold w.root cs) (hf : AllFit w cs) :
    takeNotes s w cs = (noted s w cs, .ok ()) := by
  induction cs generalizing w with
  | nil => rfl
  | cons c rest ih =>
    obtain ⟨⟨x, ht⟩, hrest⟩ := List.forall_mem_cons.mp hcs
    obtain ⟨hfirst, hfits⟩ := List.forall_mem_cons.mp hf
    obtain ⟨hsystem, hn⟩ := takeNote_noted h ht fun hk => hfirst hk x ht
    have hgo := ih (h.noted hn) (hn.root.symm ▸ hrest) (AllFit.kept hfits hn.toKept h (h.noted hn))
    rw [takeNotes, noted_cons]
    cases hc : w.takeNote s c with
    | mk w' r =>
      rw [hc] at hsystem hgo
      cases r with
      | ok _ => exact hgo
      | error fault => exact (if_pos (hsystem fault rfl)).trans hgo

section
variable (h : Ready s w) (hcs : AllTold w.root cs) (hf : AllFit w cs) (hx : Told w.root c x)

variable (hother : ∀ c' ∈ cs, ¬ Told w.root c' x)
include h hcs hf hx hother

/-- What the changes of other files keep holds while no change of a file is told. -/
theorem noted_keeps {I : Workspace → Prop}
    (hstep : ∀ w' c' y, Ready s w' → Noted y w' (w'.takeNote s c').1 → Told w'.root c x → Told w'.root c' y → x ≠ y →
      I w' → I (w'.takeNote s c').1)
    (hI : I w) : I (noted s w cs) := by
  induction cs generalizing w with
  | nil => exact hI
  | cons c' rest ih =>
    obtain ⟨⟨y, ht⟩, hrest⟩ := List.forall_mem_cons.mp hcs
    obtain ⟨hfirst, hfits⟩ := List.forall_mem_cons.mp hf
    obtain ⟨hnot, hother⟩ := List.forall_mem_cons.mp hother
    have hn := (takeNote_noted h ht fun hk => hfirst hk y ht).2
    have hne : x ≠ y := fun he => hnot (he ▸ ht)
    exact ih (h.noted hn) (hn.root.symm ▸ hrest) (AllFit.kept hfits hn.toKept h (h.noted hn)) (hn.root.symm ▸ hx)
      (hn.root.symm ▸ hother) (hstep w c' y h hn hx ht hne hI)

/-- What is absent stays so while no change of it is told. -/
theorem noted_absent (ha : Absent w x) : Absent (noted s w cs) x :=
  noted_keeps (I := (Absent · x)) h hcs hf hx hother (fun _ _ _ h hn hx ht hne ha => ha.noted h hn hx ht hne) ha

/-- Whether a file is current does not change while no change of it is told. -/
theorem noted_current (met : Disk) : Current (noted s w cs) met x source ↔ Current w met x source :=
  noted_keeps (I := fun w' => Current w' met x source ↔ Current w met x source) h hcs hf hx hother
    (fun _ _ _ h hn hx ht hne hi => (hn.current_iff h hx ht hne).trans hi) Iff.rfl

end

section
variable (h : Ready s w) (ht : Told w.root c x) (hcs : AllTold w.root cs) (hf : AllFit w (c :: cs))

variable (hother : ∀ c' ∈ cs, ¬ Told w.root c' x)
include h ht hcs hf hother

/-- Whether a file is current in the end is settled by the last change that was told of it. -/
theorem noted_cons_current {file : List Source.Stmt} (hw : w.tracks ⟨[Path.slash], x⟩ = .ok true)
    (hr : w.disk.readText ⟨[Path.slash], x⟩ = .ok source) (hp : Source.parse .loop source = .ok file) :
    Current (noted s w (c :: cs)) (w.takeNote s c).1.disk x source ↔ c.kind ≠ .deleted ∧
      ∃ imports, Graph.resolved (w.takeNote s c).1.disk w.root ⟨[Path.slash], x⟩ = .ok imports := by
  obtain ⟨hfirst, hfits⟩ := List.forall_mem_cons.mp hf
  have hn := (takeNote_noted h ht fun hk => hfirst hk x ht).2
  have hfits := AllFit.kept hfits hn.toKept h (h.noted hn)
  rw [← hn.root] at hcs hother
  exact (noted_current (h.noted hn) hcs hfits (hn.root.symm ▸ ht) hother _).trans
    (takeNote_current h ht hw hr hp fun hk => hfirst hk x ht hw)

/-- A file that is not there is forgotten by a change that tells of it, and stays forgotten. -/
theorem noted_cons_absent (hx : ∀ bytes, w.disk.lookup? x ≠ some (.file bytes))
    (hc : c.kind = .deleted ∨
      (w.tracks ⟨[Path.slash], x⟩ = .ok true ∧ readSource w.disk ⟨[Path.slash], x⟩ = .missing) ∨ Absent w x) :
    Absent (noted s w (c :: cs)) x := by
  obtain ⟨hfirst, hfits⟩ := List.forall_mem_cons.mp hf
  have hn := (takeNote_noted h ht fun hk => hfirst hk x ht).2
  have hfits := AllFit.kept hfits hn.toKept h (h.noted hn)
  rw [← hn.root] at hcs hother
  rw [noted_cons]
  refine noted_absent (h.noted hn) hcs hfits (hn.root.symm ▸ ht) hother ?_
  rcases hc with hk | ⟨hw, hmissing⟩ | ha
  · exact takeNote_deleted h ht hk
  · by_cases hk : c.kind = .deleted
    · exact takeNote_deleted h ht hk
    · exact takeNote_gone h ht hk hw hx (Or.inl hmissing)
  · exact takeNote_absent h ht hx ha

end

/-- A batch is worked off whole if the texts fit that are read for it. A file that is there, that can be read and
parsed and that scans reach is current afterwards, just if the last change of it was not told as a deletion and its
imports can be looked for. Of a file that is not there nothing is left if the last change of it was told as a
deletion, if scans reach it and reading it told that it is missing, or if nothing was left of it before. -/
theorem watchBatch_converges {batch : List Change} (h : Ready s w) (hbatch : AllTold w.root batch)
    (hfit : AllFit w batch) :
    ∃ w', w.watchBatch s batch = (w', .ok ()) ∧ Kept w w' ∧
    ∀ c₀ ∈ batch, ∀ x, Told w.root c₀ x → Path.suffix ⟨[Path.slash], x⟩ ∈ Graph.extensions →
      ∃ before c, Last w.root batch before c x ∧
      (∀ source file, w.disk.readText ⟨[Path.slash], x⟩ = .ok source → Source.parse .loop source = .ok file →
        w.tracks ⟨[Path.slash], x⟩ = .ok true →
        (Current w' (noted s w (before ++ [c])).disk x source ↔ c.kind ≠ .deleted ∧ ∃ imports,
          Graph.resolved (noted s w (before ++ [c])).disk w.root ⟨[Path.slash], x⟩ = .ok imports)) ∧
      ((∀ bytes, w.disk.lookup? x ≠ some (.file bytes)) →
        c.kind = .deleted ∨
          (w.tracks ⟨[Path.slash], x⟩ = .ok true ∧
            readSource (noted s w before).disk ⟨[Path.slash], x⟩ = .missing) ∨
          Absent (noted s w before) x →
        Absent w' x) := by
  have hsorted : AllTold w.root (inOrder batch) := fun c hc => hbatch c (List.mem_mergeSort.mp hc)
  have hfits : AllFit w (inOrder batch) := fun c hc => hfit c (List.mem_mergeSort.mp hc)
  obtain ⟨-, hall⟩ := noted_ready h hsorted hfits
  refine ⟨noted s w (inOrder batch), takeNotes_told h hsorted hfits, hall, ?_⟩
  intro c₀ hc₀ x ht₀ hs
  obtain ⟨before, c, hlast⟩ := Last.of_mem hc₀ ht₀
  refine ⟨before, c, hlast, ?_⟩
  obtain ⟨ht, after, horder, hother⟩ := hlast
  rw [horder] at hsorted hfits ⊢
  obtain ⟨hbefore, -, hafter⟩ : AllTold w.root before ∧ (∃ y, Told w.root c y) ∧ AllTold w.root after := by
    simpa only [AllTold, List.forall_mem_append, List.forall_mem_cons] using hsorted
  obtain ⟨hfitBefore, hfitAfter⟩ := List.forall_mem_append.mp hfits
  obtain ⟨hready, hkept⟩ := noted_ready h hbefore hfitBefore
  have hfitAfter := AllFit.kept hfitAfter hkept h hready
  rw [noted_append, noted_append, ← h.tracks_eq hready hkept.root ht]
  rw [← hkept.root] at ht hafter hother
  refine ⟨fun source file hr hp hw => ?_, fun hx hc => ?_⟩
  · rw [← hkept.root]
    exact noted_cons_current hready ht hafter hfitAfter hother hw ((hkept.readText_iff h ht₀ hs).mpr hr) hp
  · exact noted_cons_absent hready ht hafter hfitAfter hother
        (fun bytes => mt (hkept.spares.file_iff hs).mp (hx bytes)) hc

end

attribute [local instance] Host.usual

def moduleDisk : Disk := ⟨[(["s"], .directory), (["w"], .directory), (["w", "a.py"], .file [])]⟩

def savedDisk (bytes : Bytes) : Disk := moduleDisk.put ["s", Store.fileName] (.file bytes)

def storePath : Path := ⟨"/", ["s", Store.fileName]⟩

def modulePath : Path := ⟨"/", ["w", "a.py"]⟩

def moduleWorkspace : Workspace where
  disk := moduleDisk
  root := ⟨"/", ["w"]⟩
  graph := ⟨⟨"/", ["w"]⟩, [(modulePath, ⟨modulePath, [], []⟩)], []⟩
  index := some { root := ⟨"/", ["w"]⟩, file := storePath }

def blankSetting : Setting where
  config := Config.default
  home := ⟨"/", []⟩
  directory := ⟨"/", []⟩
  shell := fun disk _ _ _ => ⟨disk, some 0, [], []⟩
  embedder := some fun _ texts => .ok (texts.map fun _ => [])

/-- Every save leads to the disk with a store or back to it. -/
theorem save_module (store : Store) {d : Disk} (h : d = moduleDisk ∨ ∃ bytes, d = savedDisk bytes) :
    (store.save d storePath).2 = .ok () ∧ ∃ bytes, (store.save d storePath).1 = savedDisk bytes := by
  rcases h with rfl | ⟨before, rfl⟩
  · exact store.save_ok (P := fun d => ∃ bytes, d = savedDisk bytes) (by cbv) (by cbv) (by cbv) fun bytes =>
      ⟨_, rfl, bytes, by cbv⟩
  · exact store.save_ok (P := fun d => ∃ bytes, d = savedDisk bytes) (by cbv) (by cbv) (by cbv) fun bytes =>
      ⟨_, rfl, bytes, by cbv⟩

theorem savable_module : Store.Savable moduleDisk storePath :=
  Store.Savable.of_kept (fun _ store h => (save_module store h).imp_right Or.inr) (Or.inl rfl)

theorem willing_blank : Willing fun _ texts => .ok (texts.map fun _ => []) := fun _ _ => ⟨_, rfl⟩

theorem ready_module : Ready blankSetting moduleWorkspace where
  tree := by decide
  linkless := Disk.linkless_of_entries (by decide)
  slash := rfl
  clean := by decide
  graph := rfl
  index ix hi := by
    cases hi
    exact ⟨rfl, Disk.linkless_of_entries (by decide), savable_module, ⟨"/", ["s"]⟩, rfl, by decide⟩
  willing e he := by
    unfold embedder? at he
    split at he <;> cases he
    exact willing_blank

theorem told_module (k : ChangeKind) : Told ⟨"/", ["w"]⟩ ⟨k, "/w/a.py"⟩ ["w", "a.py"] :=
  ⟨by cbv, by decide, by decide, rfl, by decide, by decide⟩

theorem told_other (k : ChangeKind) : Told ⟨"/", ["w"]⟩ ⟨k, "/w/b.py"⟩ ["w", "b.py"] :=
  ⟨by cbv, by decide, by decide, rfl, by decide, by decide⟩

theorem read_module : moduleWorkspace.disk.readText modulePath = .ok [] := by cbv

theorem tracks_module : moduleWorkspace.tracks modulePath = .ok true := by cbv

theorem imports_empty : ∀ stack, (Source.parse stack []).toOption.map Source.imports = some []
  | .loop => by decide +kernel
  | .thread => by decide +kernel

theorem parse_empty : ∃ file, Source.parse .loop [] = .ok file := by
  have himports := imports_empty .loop
  cases hp : Source.parse .loop [] with
  | error fault =>
    rw [hp] at himports
    cases himports
  | ok file => exact ⟨file, rfl⟩

theorem allFit (w : Workspace) (cs : List Change) : AllFit w cs := fun _ _ _ _ _ _ _ _ _ => rfl

/-- Whatever was worked off, the module imports nothing. -/
theorem resolved_module (hk : Kept moduleWorkspace w') (root : Path) :
    Graph.resolved w'.disk root modulePath = .ok [] := by
  have hread : w'.disk.readText modulePath = .ok [] :=
    (hk.readText_iff ready_module (told_module .modified) (by decide)).mpr read_module
  rw [Graph.resolved, Graph.buildNode_of_imports [] hread (imports_empty .thread) rfl]
  rfl

def madeAnew : List Change := [⟨.deleted, "/w/a.py"⟩, ⟨.added, "/w/a.py"⟩, ⟨.deleted, "/w/b.py"⟩]

theorem allTold_madeAnew : AllTold moduleWorkspace.root madeAnew := by
  intro c hc
  simp only [madeAnew, List.mem_cons, List.not_mem_nil, or_false] at hc
  rcases hc with rfl | rfl | rfl
  · exact ⟨_, told_module _⟩
  · exact ⟨_, told_module _⟩
  · exact ⟨_, told_other _⟩

theorem inOrder_madeAnew : inOrder madeAnew = madeAnew := List.mergeSort_of_pairwise (by decide)

/-- The module is told as made last, and the other one as gone. -/
theorem last_madeAnew {before : List Change} (h : Last moduleWorkspace.root madeAnew before c x) :
    (x = ["w", "a.py"] → c.kind = .added) ∧ (x = ["w", "b.py"] → c.kind = .deleted) := by
  obtain ⟨ht, after, horder, hother⟩ := h
  have hne : (["w", "a.py"] : Place) ≠ ["w", "b.py"] := by decide
  rw [inOrder_madeAnew, madeAnew] at horder
  match before, horder with
  | [], horder =>
    cases horder
    obtain rfl := ht.unique (told_module _)
    exact absurd (told_module .added) (hother _ (by simp))
  | [_], horder =>
    cases horder
    obtain rfl := ht.unique (told_module _)
    exact ⟨fun _ => rfl, fun he => absurd he hne⟩
  | [_, _], horder =>
    cases horder
    obtain rfl := ht.unique (told_other _)
    exact ⟨fun he => absurd he.symm hne, fun _ => rfl⟩
  | _ :: _ :: _ :: _, horder => simp at horder

/-- A module that was deleted and made anew is current, and one that is gone is forgotten. -/
theorem watchBatch_madeAnew : Ready blankSetting moduleWorkspace ∧ AllTold moduleWorkspace.root madeAnew ∧
    AllFit moduleWorkspace madeAnew ∧ ∃ w', moduleWorkspace.watchBatch blankSetting madeAnew = (w', .ok ()) ∧
      (∃ met, Current w' met ["w", "a.py"] []) ∧ Absent w' ["w", "b.py"] := by
  obtain ⟨w', hrun, hkept, hall⟩ := watchBatch_converges ready_module allTold_madeAnew (allFit _ _)
  obtain ⟨file, hparse⟩ := parse_empty
  refine ⟨ready_module, allTold_madeAnew, allFit _ _, w', hrun, ?_, ?_⟩
  · obtain ⟨before, c, hlast, hcurrent, -⟩ :=
      hall ⟨.deleted, "/w/a.py"⟩ (by decide) ["w", "a.py"] (told_module _) (by decide)
    have hmet : Kept moduleWorkspace (noted blankSetting moduleWorkspace (before ++ [c])) := by
      obtain ⟨-, after, horder, -⟩ := hlast
      refine (noted_ready ready_module (fun c' hc' => allTold_madeAnew c' ?_) (allFit _ _)).2
      rw [← inOrder_madeAnew, horder, List.append_cons]
      exact List.mem_append_left _ hc'
    refine ⟨_, (hcurrent [] file read_module hparse tracks_module).mpr ⟨?_, [], resolved_module hmet _⟩⟩
    rw [(last_madeAnew hlast).1 rfl]
    decide
  · obtain ⟨before, c, hlast, -, habsent⟩ :=
      hall ⟨.deleted, "/w/b.py"⟩ (by decide) ["w", "b.py"] (told_other _) (by decide)
    have hnone : moduleWorkspace.disk.lookup? ["w", "b.py"] = none := rfl
    refine habsent (fun bytes => ?_) (Or.inl ((last_madeAnew hlast).2 rfl))
    rw [hnone]
    exact (Option.some_ne_none _).symm

/-- A module that is there is forgotten when it is told as deleted. -/
theorem deletion_believed : ∃ w', moduleWorkspace.watchBatch blankSetting [⟨.deleted, "/w/a.py"⟩] = (w', .ok ()) ∧
    w'.disk.readText modulePath = .ok [] ∧ (∃ file, Source.parse .loop [] = .ok file) ∧
    moduleWorkspace.tracks modulePath = .ok true ∧ w'.graph.importsAt modulePath = none ∧
    ∀ ix, w'.index = some ix → ix.store.hash? "a.py" = none := by
  have htold : AllTold moduleWorkspace.root [⟨.deleted, "/w/a.py"⟩] := by
    simpa [AllTold] using ⟨_, told_module _⟩
  have hkept := (noted_ready ready_module htold (allFit _ _)).2
  have hlost : Absent (noted blankSetting moduleWorkspace [⟨.deleted, "/w/a.py"⟩]) ["w", "a.py"] :=
    takeNote_deleted ready_module (told_module .deleted) rfl
  have hrun : moduleWorkspace.watchBatch blankSetting [⟨.deleted, "/w/a.py"⟩] =
      (noted blankSetting moduleWorkspace [⟨.deleted, "/w/a.py"⟩], .ok ()) := by
    rw [watchBatch, List.mergeSort_singleton]
    exact takeNotes_told ready_module htold (allFit _ _)
  generalize noted blankSetting moduleWorkspace [⟨.deleted, "/w/a.py"⟩] = w' at hkept hlost hrun
  refine ⟨w', hrun, (hkept.readText_iff ready_module (told_module .deleted) (by decide)).mpr read_module, parse_empty,
    tracks_module, hlost.graph, fun ix hi => ?_⟩
  have hhash := (hlost.index ix hi).hash
  rwa [hkept.root] at hhash

end CodeAgent.Workspace
