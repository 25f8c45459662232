import CodeAgent.Agent.Execute
import CodeAgent.Proofs.Graph.History
import CodeAgent.Proofs.Graph.Notify
import CodeAgent.Proofs.Graph.Outside
import CodeAgent.Proofs.Index.Unseen
import CodeAgent.Proofs.Tool.Outside
import CodeAgent.Proofs.Tool.Write

namespace CodeAgent

open Disk

def Setting.serving (s : Setting) (e : Option Embedder) : Setting := { s with embedder := e }

namespace Workspace

def unindexed (w : Workspace) : Workspace := { w with disk := w.disk.outside, index := none, indexState := .disabled }

/-- What the paths of a workspace count from: its root and the directory of the user lie outside, and the home is
written without double dots. -/
structure Grounds (s : Setting) (root : Path) : Prop where
  home : s.home.Written
  notUp : (".." : Text) ∉ s.home.parts
  directory : Outside s.directory.parts
  absolute : root.root = [Path.slash]
  clean : Clean root.parts
  outside : Outside root.parts

/-- A workspace whose graph keeps to files outside, and whose index keeps its store in the own directory of the
home. -/
structure Secluded (home root : Path) (w : Workspace) : Prop where
  reserved : w.disk.Reserved home
  rooted : w.root = root
  graph : w.graph.root = root
  visible : w.graph.Visible
  placed : ∀ ix, w.index = some ix → ix.Placed home root

/-- Such a workspace while saves of the store succeed. -/
structure Saving (home root : Path) (w : Workspace) : Prop extends Secluded home root w where
  savable : ∀ ix, w.index = some ix → Store.Savable w.disk (Store.placeFor home root)

/-- What a step leaves of a workspace and of the one beside it, with the same answer. -/
inductive Alike (P : Workspace → Prop) {α : Type} : Workspace × α → Workspace × α → Prop
  | mk {w : Workspace} (holds : P w) (a : α) : Alike P (w, a) (w.unindexed, a)

variable {s : Setting} {e : Option Embedder} {w : Workspace} {home root p q : Path} {t : Text} {rest : Place}

theorem Secluded.listing (h : w.Secluded home root) (listing : Option Text) :
    ({ w with listing } : Workspace).Secluded home root :=
  ⟨h.reserved, h.rooted, h.graph, h.visible, h.placed⟩

theorem Saving.dirty (h : w.Saving home root) : w.markDirty.Saving home root :=
  ⟨h.toSecluded.listing none, h.savable⟩

theorem placed_of_make {d : Disk} {given : Text} {asked : List (List Text)} (h : make s d given asked = .ok w)
    (ix : SemanticIndex) (hi : w.index = some ix) : ix.Placed s.home w.root := by
  unfold make at h
  dsimp only at h
  split at h
  · cases h
  · cases h
  · split at h
    · cases h
      cases hi
    · cases h
      cases hi
      exact ⟨rfl, rfl⟩

/-- An absolute path that leads past the own directories. -/
structure Away (p : Path) : Prop extends Graph.Apart p where
  absolute : p.isAbsolute = true

theorem Grounds.apart (hg : Grounds s root) : Graph.Apart root :=
  ⟨⟨Or.inr (Or.inl hg.absolute), fun part hm => (hg.clean.names part hm).toIsPart⟩, hg.outside⟩

theorem Grounds.isAbsolute (hg : Grounds s root) : root.isAbsolute = true := by
  rw [Path.isAbsolute, hg.absolute]
  rfl

/-- The home in front of a path that can be written can be written. -/
theorem written_expandHome (hhome : home.Written) (hp : p.Written) (hq : Path.expandHome home p = .ok q) :
    q.Written := by
  unfold Path.expandHome at hq
  split at hq
  · rename_i name names habs hparts
    split at hq
    · cases hq
      refine hhome.join ⟨Or.inl rfl, fun part hm => hp.parts part ?_⟩
      rw [hparts]
      exact List.mem_cons_of_mem _ hm
    · split at hq
      · cases hq
      · cases hq
        exact hp
  · cases hq
    exact hp

/-- What a text means is written and absolute. -/
theorem away_of_resolve (hg : Grounds s root) (hw : w.root = root) (hp : w.resolve s t = .ok p)
    (hout : Outside p.parts) :
    Away p := by
  unfold resolve at hp
  split at hp
  · cases hp
    rw [hw]
    exact ⟨hg.apart, hg.isAbsolute⟩
  · cases hx : Path.expandHome s.home (Path.ofText t) with
    | error fault =>
      rw [hx] at hp
      cases hp
    | ok q =>
      rw [hx] at hp
      cases hp
      refine ⟨⟨?_, hout⟩, ?_⟩
      · rw [hw]
        exact hg.apart.written.join (written_expandHome hg.home (Path.written_ofText t) hx)
      · rw [hw, Path.join]
        split
        · assumption
        · exact hg.isAbsolute

theorem Away.join (h : Away p) (q : Path) : q.join p = p := by rw [Path.join, if_pos h.absolute]

theorem tracks_unindexed (hg : Grounds s root) (h : w.Secluded home root) (hp : Away p) :
    w.unindexed.tracks p = w.tracks p := by
  rw [tracks, tracks]
  have hsame := isExcluded_outside (p := p) h.reserved (h.rooted ▸ hg.outside) hp.outside
  rw [show w.unindexed.disk.isExcluded w.unindexed.root p = w.disk.isExcluded w.root p from hsame]

/-- A step of the index on one file is not seen beside. -/
theorem indexOne_unindexed (step : Disk → SemanticIndex → IndexStep IndexOutcome) (h : w.Saving home root)
    (hstep : ∀ ix, w.index = some ix → SemanticIndex.Unseen home root w.disk (step w.disk ix)) :
    ∃ w', w.indexOne step = (w', .ok ()) ∧ w'.unindexed = w.unindexed ∧ w'.Saving home root := by
  unfold indexOne
  cases hi : w.index with
  | none => exact ⟨w, rfl, rfl, h⟩
  | some ix =>
    obtain ⟨houtside, housing, hplaced, hfault⟩ := hstep ix hi
    have hkept (d : Disk) (ix' : SemanticIndex) (hd : d.outside = w.disk.outside)
        (housing : SemanticIndex.Housing home root d) (hplaced : ix'.Placed home root) :
        ({ w with disk := d, index := some ix' } : Workspace).unindexed = w.unindexed ∧
          ({ w with disk := d, index := some ix' } : Workspace).Saving home root := by
      refine ⟨by rw [unindexed, unindexed, hd], ⟨⟨housing.reserved, h.rooted, h.graph, h.visible, ?_⟩, ?_⟩⟩
      · rintro _ ⟨⟩
        exact hplaced
      · exact fun _ _ => housing.savable
    dsimp only
    generalize step w.disk ix = r at houtside housing hplaced hfault
    obtain ⟨d, ix', result⟩ := r
    obtain ⟨hsame, hsaving⟩ := hkept d ix' houtside housing hplaced
    split
    · rename_i he
      cases he
      exact absurd rfl (hfault _)
    · rename_i he
      cases he
      exact ⟨_, rfl, hsame, hsaving⟩

theorem changeGraph_alike {change : Disk → Graph → Except DiskFault Graph} (h : w.Saving home root)
    (hsame : change w.disk.outside w.graph = change w.disk w.graph)
    (hkept : ∀ g, change w.disk w.graph = .ok g → g.root = root ∧ g.Visible) :
    Alike (Saving home root) (w.changeGraph change) (w.unindexed.changeGraph change) := by
  have hbeside : change w.unindexed.disk w.unindexed.graph = change w.disk w.graph := hsame
  rw [changeGraph, changeGraph, hbeside]
  cases hc : change w.disk w.graph with
  | error fault => exact .mk h _
  | ok g =>
    obtain ⟨hroot, hvisible⟩ := hkept g hc
    exact .mk (w := markDirty { w with graph := g })
      ⟨⟨h.reserved, h.rooted, hroot, hvisible, h.placed⟩, h.savable⟩ _

/-- Where the own directories are left alone, an index is told of the files of its workspace under the names that they
have there. -/
theorem Saving.housing (hg : Grounds s root) (h : w.Saving s.home root) {ix : SemanticIndex} (hi : w.index = some ix) :
    SemanticIndex.Housing s.home root w.disk :=
  ⟨h.reserved, hg.notUp, h.savable ix hi⟩

theorem suffix_of_tracks (h : w.tracks p = .ok true) : p.suffix ∈ Graph.extensions := by
  unfold tracks at h
  split at h
  · assumption
  · cases h

theorem fileRemoved_alike (hg : Grounds s root) (h : w.Saving s.home root) (hp : Away p) (hq : w.disk.resolve p = .ok q)
    (hin : Path.below? root q = some rest) :
    Alike (Saving s.home root) (w.fileRemoved p) (w.unindexed.fileRemoved p) := by
  obtain ⟨w', hw', hsame, hsaving⟩ := indexOne_unindexed (fun d ix => ix.removeFile d p true) h fun ix hi => by
    have hix := h.placed ix hi
    exact SemanticIndex.removeFile_unseen (h.housing hg hi) hix
      (SemanticIndex.relative_of_resolve (hp.join _) hq (hix.root ▸ hin)) true
  rw [fileRemoved, fileRemoved, hw', indexOne_disabled rfl, ← hsame]
  have hroot : Graph.Apart w'.graph.root := hsaving.graph ▸ hg.apart
  refine changeGraph_alike hsaving (Graph.removeFile_outside hsaving.reserved hroot hp.toApart) fun g hr => ?_
  obtain ⟨q, -, rfl⟩ := Graph.removeFile_ok hr
  exact ⟨(Graph.root_removeNode _ q).trans hsaving.graph, hsaving.visible.removeNode q⟩

variable [Host]

theorem loadIndex_placed (h : ∀ ix, w.index = some ix → ix.Placed home root) (ix : SemanticIndex)
    (hi : w.loadIndex.1.index = some ix) : ix.Placed home root := by
  unfold loadIndex at hi
  split at hi
  · exact h ix hi
  · rename_i before hbefore
    cases hi
    exact ⟨(h before hbefore).file, (h before hbefore).root⟩

/-- A workspace that was made and started is secluded. -/
theorem secluded_of_start {d : Disk} {given : Text} {asked : List (List Text)} {w' : Workspace}
    (hd : d.Reserved s.home) (hm : make s d given asked = .ok w) (hout : Outside w.root.parts)
    (hs : w.start = (w', .ok ())) : w'.Secluded s.home w.root := by
  obtain ⟨hdisk, hgraph, -, -⟩ := make_ok hm
  obtain ⟨hdisk', hroot', hrebuilt⟩ := start_ok hs
  have hplaced : ∀ ix, w'.index = some ix → ix.Placed s.home w.root := by
    unfold start at hs
    split at hs
    · cases hs
    · rename_i graph _
      have hloaded := loadIndex_placed (w := markDirty { w with graph }) fun ix hi => placed_of_make hm ix hi
      generalize loadIndex (markDirty { w with graph }) = r at hs hloaded
      obtain ⟨w₁, _ | _⟩ := r
      · cases hs
      · cases hs
        exact hloaded
  rw [hgraph, hdisk] at hrebuilt
  refine ⟨?_, hroot', (Graph.rebuild_resolved hrebuilt).2.2, Graph.visible_rebuild hd hout hrebuilt, hplaced⟩
  rw [hdisk', hdisk]
  exact hd

/-- When the index reads a source file, its text is not nested too deep for the stack of the event loop. -/
def FitsLoop (d : Disk) (p : Path) : Prop :=
  p.suffix ∈ Graph.extensions → ∀ q t, d.resolve p = .ok q → d.readText q = .ok t → Host.overNested? .loop t = none

theorem fitsLoop_outside {d : Disk} (h : d.Reserved home) (hp : Graph.Apart p) :
    FitsLoop d.outside p ↔ FitsLoop d p := by
  unfold FitsLoop
  rw [resolve_outside h hp.outside]
  refine forall_congr' fun _ => forall₂_congr fun q t => forall_congr' fun hq => ?_
  rw [readText_outside h (hp.resolve h hq).outside]

/-- Telling of a changed file outside is alike beside. -/
theorem fileChanged_alike (hc : Source.Composes) (hg : Grounds s root) (h : w.Saving s.home root) (hp : Away p)
    (hq : w.disk.resolve p = .ok q)
    (hin : Path.below? root q = some rest) (hfit : w.index.isSome = true → FitsLoop w.disk p) :
    Alike (Saving s.home root) (w.fileChanged (s.serving e) p) (w.unindexed.fileChanged s p) := by
  rw [fileChanged, fileChanged, tracks_unindexed hg h.toSecluded hp]
  rcases ht : w.tracks p with fault | _ | _
  · exact .mk h _
  · exact .mk (w := w.markDirty) h.dirty _
  · obtain ⟨w', hw', hsame, hsaving⟩ := indexOne_unindexed
        (fun d ix => ix.indexFile ((embedder? (s.serving e)).getD fun _ _ => .ok []) d p true) h fun ix hi => by
      have hix := h.placed ix hi
      have hrooted : ix.Rooted := ⟨hix.root ▸ hg.absolute, hix.root ▸ hg.clean⟩
      have hfits : ∀ t, w.disk.readText q = .ok t → Host.overNested? .loop t = none :=
        fun t => hfit (Option.isSome_of_eq_some hi) (suffix_of_tracks ht) q t hq
      exact SemanticIndex.indexFile_unseen (h.housing hg hi) hix hrooted hp.written (hp.join _) hq (hix.root ▸ hin)
        hfits _ _
    dsimp only
    rw [hw', indexOne_disabled rfl, ← hsame]
    have hroot : Graph.Apart w'.graph.root := hsaving.graph ▸ hg.apart
    refine changeGraph_alike hsaving (Graph.updateFile_outside hsaving.reserved hc hroot hp.toApart) fun g hu => ?_
    exact ⟨(Graph.updateFile_root hu).trans hsaving.graph,
        hsaving.visible.updateFile hsaving.reserved hroot hp.toApart hu⟩

/-- Refreshing one file outside is alike beside. -/
theorem refreshOne_alike (hc : Source.Composes) (hg : Grounds s root) (h : w.Saving s.home root) (hp : Away p)
    (hfit : w.index.isSome = true → FitsLoop w.disk p) :
    Alike (Saving s.home root) (w.refreshOne (s.serving e) p) (w.unindexed.refreshOne s p) := by
  have hresolve : w.unindexed.disk.resolve p = w.disk.resolve p := resolve_outside h.reserved hp.outside
  have hexists : w.unindexed.disk.exists? p = w.disk.exists? p := exists?_outside h.reserved hp.outside
  rw [refreshOne, refreshOne, hresolve, hexists]
  cases hq : w.disk.resolve p with
  | error fault => exact .mk h _
  | ok q =>
    dsimp only
    rw [show w.unindexed.root = w.root from rfl]
    cases hin : Path.below? w.root q with
    | none => exact .mk h _
    | some rest =>
      rw [Option.isNone_some, if_neg Bool.false_ne_true, if_neg Bool.false_ne_true]
      rw [h.rooted] at hin
      rcases w.disk.exists? p with fault | _ | _
      · exact .mk h _
      · exact fileRemoved_alike hg h hp hq hin
      · exact fileChanged_alike hc hg h hp hq hin hfit

/-- The run lemma of the telling: file after file, both workspaces stay beside each other. -/
theorem refresh_alike {ps : List Path} (hc : Source.Composes) (hg : Grounds s root) (h : w.Saving s.home root)
    (hps : ∀ p ∈ ps, Away p) (hfits : w.index.isSome = true → ∀ p ∈ ps, FitsLoop w.disk p) :
    Alike (Saving s.home root) (w.refresh (s.serving e) ps) (w.unindexed.refresh s ps) := by
  induction ps generalizing w with
  | nil => exact .mk h _
  | cons p ps ih =>
    obtain ⟨hp, hps⟩ := List.forall_mem_cons.mp hps
    have hone := refreshOne_alike (e := e) hc hg h hp fun hi => hfits hi p List.mem_cons_self
    have hdisk : (w.unindexed.refreshOne s p).1.disk = w.disk.outside := (refreshOne_keeps rfl s p).1
    have hindex : w.index = none → (w.refreshOne (s.serving e) p).1.index = none :=
      fun hi => (refreshOne_keeps hi (s.serving e) p).2
    rw [refresh, refresh]
    generalize w.refreshOne (s.serving e) p = r, w.unindexed.refreshOne s p = r' at hone hdisk hindex ⊢
    obtain @⟨w', hsaving, result⟩ := hone
    have houtside : w'.disk.outside = w.disk.outside := hdisk
    cases result with
    | error fault => exact .mk hsaving _
    | ok _ =>
      refine ih hsaving hps fun hi' q hq => ?_
      have hi : w.index.isSome = true := by
        rw [Option.isSome_iff_ne_none] at hi' ⊢
        exact fun hn => hi' (hindex hn)
      rw [← fitsLoop_outside hsaving.reserved (hps q hq).toApart, houtside,
        fitsLoop_outside h.reserved (hps q hq).toApart]
      exact hfits hi q (List.mem_cons_of_mem _ hq)

end Workspace

end CodeAgent
