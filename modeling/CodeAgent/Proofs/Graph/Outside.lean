import CodeAgent.Proofs.Disk.OutsideScan
import CodeAgent.Proofs.Graph.Build
import CodeAgent.Proofs.Source.Imports

namespace CodeAgent

theorem mapM_congr {α β ε : Type} {f g : α → Except ε β} {as : List α} (h : ∀ a ∈ as, f a = g a) :
    as.mapM f = as.mapM g := by
  induction as with
  | nil => rw [List.mapM_nil, List.mapM_nil]
  | cons a rest ih =>
    obtain ⟨ha, hrest⟩ := List.forall_mem_cons.mp h
    rw [List.mapM_cons, List.mapM_cons, ha, ih hrest]

namespace Path

variable {p q : Path} {name : Text} {suffix : Text}

open Disk

theorem Written.join (hp : p.Written) (hq : q.Written) : (p.join q).Written := by
  unfold Path.join
  split
  · exact hq
  · exact ⟨hp.root, List.forall_mem_append.mpr ⟨hp.parts, hq.parts⟩⟩

theorem outside_join (hp : Outside p.parts) (hq : Outside q.parts) : Outside (p.join q).parts := by
  unfold Path.join
  split
  · exact hq
  · exact outside_append.mpr ⟨hp, hq⟩

theorem outside_ofText_iff (t : Text) : Outside (ofText t).parts ↔ ownName ∉ Text.splitOn slash t := by
  have hkeeps : keeps ownName = true := by decide
  simp [Outside, ofText, List.mem_filter, hkeeps]

/-- A text without a dot in it does not name an own directory. -/
theorem outside_ofText (h : ∀ c ∈ name, c.val ≠ 46) : Outside (ofText name).parts := by
  rw [outside_ofText_iff]
  intro hm
  have hdot : CodePoint.ofChar '.' ∈ ownName := by decide
  exact h _ (Text.subset_of_mem_splitOn hm hdot) rfl

/-- The files that a module's path can stand for are outside with it. -/
theorem outside_module (hp : p.Written) (h : Outside p.parts) (hs : suffix ∈ Graph.moduleSuffixes) :
    Outside (ofText (p.text ++ suffix)).parts := by
  have htext : ownName ∉ Text.splitOn slash p.text := by
    rw [← outside_ofText_iff, hp.ofText_text]
    exact h
  rw [outside_ofText_iff]
  simp only [Graph.moduleSuffixes, List.mem_cons, List.not_mem_nil, or_false] at hs
  rcases hs with rfl | rfl | rfl
  · rw [show ("" : Text) = [] from rfl, List.append_nil]
    exact htext
  · have hnone : slash ∉ (".py" : Text) := by decide
    obtain ⟨init, last, ht, hts⟩ := Text.splitOn_append hnone p.text
    rw [ht, List.mem_append, not_or] at htext
    rw [hts, List.mem_append, not_or]
    refine ⟨htext.1, fun hm => ?_⟩
    have hlast := congrArg List.getLast? (List.mem_singleton.mp hm)
    rw [List.getLast?_append_of_ne_nil _ (by decide)] at hlast
    exact absurd hlast (by decide)
  · rw [show ("/__init__.py" : Text) = slash :: "__init__.py" from rfl, Text.splitOn_append_sep,
        List.mem_append, not_or]
    exact ⟨htext, by decide⟩

end Path

namespace Graph

open Disk

variable {d : Disk} {home root p q base importer : Path} {g g' : Graph} {n : GraphNode} {names : List Text}
variable {spec : Source.ImportSpec} {file : List Source.Stmt}

/-- A written path that leads past the own directories. -/
structure Apart (p : Path) : Prop where
  written : p.Written
  outside : Outside p.parts

theorem Apart.join (hp : Apart p) (hq : Apart q) : Apart (p.join q) :=
  ⟨hp.written.join hq.written, Path.outside_join hp.outside hq.outside⟩

theorem Apart.parent (hp : Apart p) : Apart p.parent :=
  ⟨⟨hp.written.root, fun part hm => hp.written.parts part (List.dropLast_subset _ hm)⟩, hp.outside.up⟩

theorem apart_name {name : Text} (h : ∀ c ∈ name, c.val ≠ 46) : Apart (Path.ofText name) :=
  ⟨Path.written_ofText name, Path.outside_ofText h⟩

theorem Apart.ancestor (hp : Apart p) (n : Nat) : Apart (ancestor p n) := by
  induction n with
  | zero => exact hp
  | succ n ih => exact ih.parent

/-- A module of a directory apart is apart. -/
theorem Apart.dotted (hp : Apart base) (module : Text) : Apart (dotted base module) := by
  have hpieces : ∀ piece ∈ Text.splitOn '.' module, ∀ c ∈ piece, c.val ≠ 46 := by
    intro piece hm c hc hdot
    refine Text.not_mem_of_mem_splitOn hm ?_
    obtain rfl : c = CodePoint.ofChar '.' := by
      obtain ⟨val, valid⟩ := c
      obtain rfl : val = 46 := hdot
      rfl
    exact hc
  unfold Graph.dotted
  generalize Text.splitOn '.' module = pieces at hpieces
  induction pieces generalizing base with
  | nil => exact hp
  | cons piece rest ih =>
    obtain ⟨hpiece, hrest⟩ := List.forall_mem_cons.mp hpieces
    exact ih (hp.join (apart_name hpiece)) hrest

/-- Where a path leads that is apart is apart again. -/
theorem Apart.resolve (hp : Apart p) (h : d.Reserved home) (hq : d.resolve p = .ok q) : Apart q := by
  obtain ⟨hclean, hroot⟩ := (kept_clean d).resolve hp.written.parts hq
  exact ⟨⟨Or.inr (Or.inl hroot), fun part hm => (hclean.names part hm).toIsPart⟩, resolve_ok_outside h hp.outside hq⟩

/-- What a file imports by name are identifiers. -/
theorem imported_noDot [Host] (hc : Source.Composes) (hs : statements? d p = .ok (some file)) :
    ∀ spec ∈ Source.imports file, ∀ name ∈ spec.names, ∀ c ∈ name, c.val ≠ 46 := by
  unfold statements? at hs
  split at hs
  · cases hs
  · split at hs
    · rename_i hparse
      cases hs
      exact fun spec hspec name hname => (Source.imports_identifiers hparse spec hspec name hname).noDot hc
    · cases hs
    · cases hs

section
variable (h : d.Reserved home)
include h

theorem firstFile?_outside {ps : List Path} (hps : ∀ p ∈ ps, Outside p.parts) :
    firstFile? d.outside ps = firstFile? d ps := by
  induction ps with
  | nil => rfl
  | cons p rest ih =>
    obtain ⟨hp, hrest⟩ := List.forall_mem_cons.mp hps
    rw [firstFile?, firstFile?, isFile_outside h hp, resolve_outside h hp, ih hrest]

theorem moduleFile?_outside (hp : Apart p) : moduleFile? d.outside p = moduleFile? d p := by
  refine firstFile?_outside h fun q hq => ?_
  obtain ⟨suffix, hs, rfl⟩ := List.mem_map.mp hq
  exact Path.outside_module hp.written hp.outside hs

theorem submodules_outside (hbase : Apart base) (hnames : ∀ name ∈ names, ∀ c ∈ name, c.val ≠ 46) :
    submodules d.outside base names = submodules d base names := by
  induction names with
  | nil => rfl
  | cons name rest ih =>
    obtain ⟨hname, hrest⟩ := List.forall_mem_cons.mp hnames
    rw [submodules, submodules, moduleFile?_outside h (hbase.join (apart_name hname)), ih hrest]

theorem importTargets_outside (hroot : Apart root) (himporter : Apart importer)
    (hnames : ∀ name ∈ spec.names, ∀ c ∈ name, c.val ≠ 46) :
    importTargets d.outside root importer spec = importTargets d root importer spec := by
  have hbase : Apart (importBase root importer spec) := by
    unfold importBase
    split
    · exact hroot
    · exact himporter.ancestor _
  have hown : Outside ((importBase root importer spec).child "__init__.py").parts := hbase.outside.child (by decide)
  rw [importTargets, importTargets]
  dsimp only
  rw [submodules_outside h hbase hnames, firstFile?_outside h (List.forall_mem_singleton.mpr hown),
    moduleFile?_outside h (hbase.dotted spec.module), submodules_outside h (hbase.dotted spec.module) hnames]

/-- The node of a file apart is the same without the own directories. -/
theorem buildNode_outside [Host] (hc : Source.Composes) (hroot : Apart root) (hp : Apart p) :
    buildNode d.outside root p = buildNode d root p := by
  have hread : statements? d.outside p = statements? d p := by
    rw [statements?, statements?, readText_outside h hp.outside]
  rw [buildNode, buildNode, hread]
  cases hs : statements? d p with
  | error fault => rfl
  | ok parsed =>
    cases parsed with
    | none => rfl
    | some file =>
      have hsame : importsOf d.outside root p file = importsOf d root p file := by
        unfold importsOf
        rw [mapM_congr fun spec hspec => importTargets_outside h hroot hp (imported_noDot hc hs spec hspec)]
      dsimp only
      rw [hsame]

theorem updateFile_outside [Host] (hc : Source.Composes) (hroot : Apart g.root) (hp : Apart p) :
    updateFile d.outside g p = updateFile d g p := by
  have hstart : g.resolve d.outside p = g.resolve d p := resolve_outside h (hroot.join hp).outside
  rw [updateFile, updateFile, hstart]
  simp only [bind, Except.bind]
  cases hq : g.resolve d p with
  | error fault => rfl
  | ok q =>
    have hapart : Apart q := (hroot.join hp).resolve h hq
    have hagain : g.resolve d.outside q = g.resolve d q := resolve_outside h (hroot.join hapart).outside
    dsimp only
    rw [isFile_outside h hapart.outside, hagain, isExcluded_outside h hroot.outside hapart.outside,
      buildNode_outside h hc hroot hapart]

theorem removeFile_outside (hroot : Apart g.root) (hp : Apart p) : removeFile d.outside g p = removeFile d g p := by
  have hstart : g.resolve d.outside p = g.resolve d p := resolve_outside h (hroot.join hp).outside
  rw [removeFile, removeFile, hstart]

end

/-- The files of a graph, and those that it tells of them as their dependents, are outside the own directories. -/
structure Visible (g : Graph) : Prop where
  paths : ∀ entry ∈ g.nodes, Outside entry.2.path.parts
  dependents : ∀ entry ∈ g.nodes, ∀ q ∈ entry.2.dependents, Outside q.parts

theorem visible_linkBack (h : ∀ entry ∈ g.nodes, Outside entry.2.path.parts) : g.linkBack.Visible where
  paths entry hm := by
    obtain ⟨entry, he, rfl⟩ := List.mem_map.mp hm
    exact h entry he
  dependents entry hm q hq := by
    obtain ⟨entry, he, rfl⟩ := List.mem_map.mp hm
    obtain ⟨importer, himporter, rfl⟩ := List.mem_map.mp hq
    exact h importer (List.mem_filter.mp himporter).1

/-- The graph of everything on the disk tells of nothing in the own directories. -/
theorem visible_rebuild [Host] (h : d.Reserved home) (hroot : Outside g.root.parts) (hg : rebuild d g = .ok g') :
    g'.Visible := by
  obtain ⟨hbuilt, hlinked, -⟩ := rebuild_resolved hg
  have hnode {q : Path} (hq : (g'.node? q).isSome = true) : Outside q.parts := by
    obtain ⟨p, hp, hpq⟩ := (hbuilt.nodes q).mp hq
    exact resolve_ok_outside h (outside_of_mem_sourceFiles h rfl hroot hp) hpq
  have hfound {entry : Path × GraphNode} (hm : entry ∈ g'.nodes) : g'.node? entry.1 = some entry.2 :=
    Table.get?_of_mem hbuilt.keyed.distinct hm
  constructor
  · intro entry hm
    rw [hbuilt.keyed.own entry hm]
    exact hnode (Option.isSome_of_eq_some (hfound hm))
  · intro entry hm q hq
    obtain ⟨m, hm, -⟩ := (hlinked _ _ (hfound hm) q).mp hq
    exact hnode (Option.isSome_of_eq_some hm)

theorem Visible.removeNode (h : g.Visible) (p : Path) : (g.removeNode p).Visible := by
  unfold Graph.removeNode
  split
  · exact visible_linkBack fun entry hm => h.paths entry (Table.mem_of_mem_erase hm)
  · exact h

theorem Visible.setNode (h : g.Visible) (hn : Outside n.path.parts) (parsed : Bool) :
    (g.setNode n parsed).linkBack.Visible := by
  refine visible_linkBack fun entry hm => ?_
  rcases Table.mem_set hm with hm | rfl
  · exact h.paths entry hm
  · exact hn

theorem Visible.updateFile [Host] (h : g.Visible) (hd : d.Reserved home) (hroot : Apart g.root) (hp : Apart p)
    (hg : updateFile d g p = .ok g') : g'.Visible := by
  obtain ⟨q, hq, ⟨-, rfl⟩ | ⟨-, -, rfl⟩ | ⟨-, -, -, n, parsed, hb, rfl⟩⟩ := updateFile_cases hg
  · exact h.removeNode q
  · exact h
  · have hout : Outside q.parts := resolve_ok_outside hd (hroot.join hp).outside hq
    refine h.setNode ?_ parsed
    rw [(buildNode_ok hb).1]
    exact hout

theorem Visible.newDependents (h : g.Visible) (seen : List Path) (p : Path) :
    ∀ q ∈ g.newDependents seen p, Outside q.parts := by
  intro q hq
  unfold Graph.newDependents at hq
  split at hq
  · rename_i n hn
    obtain ⟨hq, -⟩ := List.mem_filter.mp hq
    exact h.dependents _ (Table.mem_of_get? hn) q (List.mem_mergeSort.mp hq)
  · cases hq

theorem Visible.nextRing (h : g.Visible) (seen ring : List Path) : ∀ q ∈ g.nextRing seen ring, Outside q.parts := by
  induction ring generalizing seen with
  | nil => simp [Graph.nextRing]
  | cons p rest ih => exact List.forall_mem_append.mpr ⟨h.newDependents seen p, ih _⟩

theorem Visible.rings (h : g.Visible) (depth : Nat) (seen ring : List Path) :
    ∀ q ∈ g.rings depth seen ring, Outside q.parts := by
  induction depth generalizing seen ring with
  | zero => simp [Graph.rings]
  | succ depth ih =>
    unfold Graph.rings
    split
    · simp
    · exact List.forall_mem_append.mpr ⟨h.nextRing seen ring, ih _ _⟩

theorem Visible.blastRadius (h : g.Visible) (start : Path) (depth : Int) :
    ∀ q ∈ g.blastRadius start depth, Outside q.parts := by
  unfold Graph.blastRadius
  split
  · exact h.rings _ _ _
  · simp

end Graph
end CodeAgent
