import CodeAgent.Host.Usual
import CodeAgent.Proofs.Disk.Sources
import CodeAgent.Proofs.Graph.Build
import Mathlib

namespace CodeAgent.Graph

open Disk

variable {d : Disk} {g g' : Graph} {root : Path} {x : Place}

/-- The root of a graph is resolved, and what the scan of it yields is resolved as well. -/
theorem resolve_sources (h : d.PlainTree root x) (hroot : d.resolve root = .ok root) :
    ∀ p ∈ d.sourceFiles nodeRule root, d.resolve p = .ok p := by
  obtain rfl : root = ⟨[Path.slash], x⟩ := Except.ok.inj (hroot.symm.trans h.resolve_root)
  intro p hp
  obtain ⟨dirs, name, bytes, rfl, -, -, hfile⟩ := h.mem_sourceFiles_iff.mp hp
  exact h.resolve_file hfile

section

variable [Host]

/-- The scan yields what is not excluded, in order. A graph has these nodes once it is rebuilt, which comes to its
end just if no source is nested too deep and the system can be asked for all that is imported. -/
theorem scan_agrees (h : d.PlainTree root x) (wanted : List Text) :
    d.Yields root x wanted (d.sourceFiles { extensions := some wanted } root) ∧
    ∀ g : Graph, g.root = root → d.resolve root = .ok root →
      ((∃ g', rebuild d g = .ok g') ↔
        ∀ p ∈ d.sourceFiles { extensions := some extensions } root, ∃ imports, resolved d root p = .ok imports) ∧
      ∀ g', rebuild d g = .ok g' →
        ∀ q, (g'.node? q).isSome = true ↔ q ∈ d.sourceFiles { extensions := some extensions } root := by
  refine ⟨h.yields wanted, ?_⟩
  rintro g rfl hroot
  have hres := resolve_sources h hroot
  exact ⟨rebuild_ok_iff hres, fun g' hg' => (rebuild_built hres hg').1.nodes⟩

end

attribute [local instance] Host.usual

def sourcesRoot : Path := ⟨"/", ["w"]⟩

def longName : Text := List.replicate 256 ('a' : Char)

def longImport : Disk :=
  ⟨[(["w"], .directory), (["w", "a.py"], .file (Utf8.encodeAny (("import " : Text) ++ longName)))]⟩

theorem plainTree_longImport : longImport.PlainTree sourcesRoot ["w"] where
  tree := by decide +kernel
  distinct := by decide +kernel
  clean := by decide +kernel
  located := by decide +kernel
  directory := by decide +kernel
  noLink y _ := Disk.linkless_of_entries (by decide +kernel) y

/-- The module is scanned and not excluded, and there is no rebuilt graph of which it could be a node. -/
theorem long_import_stops : longImport.PlainTree sourcesRoot ["w"] ∧
    longImport.sourceFiles { extensions := some extensions } sourcesRoot = [sourcesRoot.child "a.py"] ∧
    longImport.isExcluded sourcesRoot (sourcesRoot.child "a.py") = .ok false ∧
    rebuild longImport ⟨sourcesRoot, [], []⟩ = .error (.system .nameTooLong (sourcesRoot.child longName)) :=
  ⟨plainTree_longImport, by decide +kernel, by decide +kernel, by decide +kernel⟩

def mixed : Disk :=
  ⟨[(["w"], .directory), (["w", "lib"], .directory), (["w", "build"], .directory),
    (["w", "z.PY"], .file []), (["w", "a.txt"], .file []), (["w", "lib", "a.py"], .file []),
    (["w", "build", "b.py"], .file [])]⟩

theorem plainTree_mixed : mixed.PlainTree sourcesRoot ["w"] where
  tree := by decide
  distinct := by decide
  clean := by decide
  located := by decide +kernel
  directory := rfl
  noLink y _ := Disk.linkless_of_entries (by decide) y

theorem mixed_scan_agrees : mixed.PlainTree sourcesRoot ["w"] ∧ mixed.resolve sourcesRoot = .ok sourcesRoot ∧
    mixed.Yields sourcesRoot ["w"] extensions [sourcesRoot.child "z.PY", (sourcesRoot.child "lib").child "a.py"] ∧
    ∃ g', rebuild mixed ⟨sourcesRoot, [], []⟩ = .ok g' ∧ ∀ q, (g'.node? q).isSome = true ↔
      q ∈ [sourcesRoot.child "z.PY", (sourcesRoot.child "lib").child "a.py"] := by
  have hroot : mixed.resolve sourcesRoot = .ok sourcesRoot := by decide +kernel
  have hfiles : mixed.sourceFiles { extensions := some extensions } sourcesRoot =
      [sourcesRoot.child "z.PY", (sourcesRoot.child "lib").child "a.py"] := by cbv
  obtain ⟨hyields, hgraph⟩ := scan_agrees plainTree_mixed extensions
  obtain ⟨hends, hnodes⟩ := hgraph ⟨sourcesRoot, [], []⟩ rfl hroot
  rw [hfiles] at hyields hends hnodes
  have hempty : ∀ p ∈ [sourcesRoot.child "z.PY", (sourcesRoot.child "lib").child "a.py"],
      resolved mixed sourcesRoot p = .ok [] := by decide +kernel
  obtain ⟨g', hg'⟩ := hends.mpr fun p hp => ⟨[], hempty p hp⟩
  exact ⟨plainTree_mixed, hroot, hyields, g', hg', hnodes g' hg'⟩

end CodeAgent.Graph
