import CodeAgent.Host.Usual
import CodeAgent.Proofs.Graph.Radius
import CodeAgent.Proofs.Graph.Sources
import CodeAgent.Proofs.Source.Imports

namespace CodeAgent

namespace Path

variable {parents : List Text} {last suffix : Text}

/-- A component that an import can name. -/
structure IsComponent (name : Text) : Prop where
  nonempty : name ≠ []
  noDot : CodePoint.ofChar '.' ∉ name
  noSlash : slash ∉ name

instance (name : Text) : Decidable (IsComponent name) :=
  decidable_of_iff (name ≠ [] ∧ CodePoint.ofChar '.' ∉ name ∧ slash ∉ name)
    ⟨fun h => ⟨h.1, h.2.1, h.2.2⟩, fun h => ⟨h.nonempty, h.noDot, h.noSlash⟩⟩

theorem isComponent_of_isIdentifier [Host] (hc : Source.Composes) {name : Text} (h : Source.IsIdentifier name) :
    IsComponent name where
  nonempty := h.ne_nil hc
  noDot := h.lacks hc (by decide) (by decide)
  noSlash := h.lacks hc (by decide) (by decide)

theorem IsComponent.isPart {name : Text} (h : IsComponent name) : IsPart name where
  nonempty := h.nonempty
  notDot := by
    rintro rfl
    exact h.noDot (by decide)
  noSlash := h.noSlash

theorem IsComponent.ofText {name : Text} (h : IsComponent name) : ofText name = ⟨[], [name]⟩ := by
  have hwritten : Written ⟨[], [name]⟩ := ⟨Or.inl rfl, by simpa using h.isPart⟩
  have htext : text ⟨[], [name]⟩ = name := by simp [text, Text.joinWith]
  rw [← htext, hwritten.ofText_text, htext]

/-- A module of that name has a name of an entry. -/
theorem IsComponent.isPart_module {name : Text} (h : IsComponent name) : IsPart (name ++ ".py") where
  nonempty he := h.nonempty (List.append_eq_nil_iff.mp he).1
  notDot he := by
    have hlength := congrArg List.length he
    rw [List.length_append] at hlength
    change name.length + 3 = 1 at hlength
    omega
  noSlash hm := (List.mem_append.mp hm).elim h.noSlash (by decide)

theorem joinWith_child {names : List Text} (hne : names ≠ []) (name : Text) :
    Text.joinWith [slash] names ++ slash :: name = Text.joinWith [slash] (names ++ [name]) := by
  induction names with
  | nil => exact absurd rfl hne
  | cons first rest ih =>
    cases rest with
    | nil => simp [Text.joinWith]
    | cons next rest => simpa [Text.joinWith] using ih (by simp)

theorem joinWith_suffix (parents : List Text) (last suffix : Text) :
    Text.joinWith [slash] (parents ++ [last]) ++ suffix = Text.joinWith [slash] (parents ++ [last ++ suffix]) := by
  by_cases hne : parents = []
  · subst hne
    simp [Text.joinWith]
  · rw [← joinWith_child hne, ← joinWith_child hne, List.append_assoc, List.cons_append]

theorem ofText_absolute {x : Place} {t : Text} (hx : ∀ part ∈ x, IsPart part) (ht : t = text ⟨[slash], x⟩) :
    ofText t = ⟨[slash], x⟩ := by
  have hwritten : Written ⟨[slash], x⟩ := ⟨Or.inr (Or.inl rfl), hx⟩
  rw [ht, hwritten.ofText_text]

/-- What a suffix at the end of a path's text makes of its last component. -/
theorem ofText_suffix {x : Place} (suffix : Text) (hx : ∀ part ∈ x, IsPart part) (hlast : IsPart (last ++ suffix)) :
    ofText (text ⟨[slash], x ++ [last]⟩ ++ suffix) = ⟨[slash], x ++ [last ++ suffix]⟩ :=
  ofText_absolute (List.forall_mem_append.mpr ⟨hx, List.forall_mem_singleton.mpr hlast⟩)
    (congrArg (slash :: ·) (joinWith_suffix x last suffix))

theorem ofText_child {x : Place} (name : Text) (hx : ∀ part ∈ x, IsPart part) (hne : x ≠ []) (hname : IsPart name) :
    ofText (text ⟨[slash], x⟩ ++ slash :: name) = ⟨[slash], x ++ [name]⟩ :=
  ofText_absolute (List.forall_mem_append.mpr ⟨hx, List.forall_mem_singleton.mpr hname⟩)
    (congrArg (slash :: ·) (joinWith_child hne name))

end Path

/-- A file that is there is found to be one, unless its name or its path is too long to be asked for. -/
theorem Disk.isFile_of_found {d : Disk} {p : Path} {bytes : Bytes} {there : Bool} (tree : d.IsTree)
    (h : d.Plain p.parts) (hc : checkPath p = .ok ()) (hfile : d.lookup? p.parts = some (.file bytes))
    (hthere : d.isFile p = .ok there) : there = true := by
  by_cases hn : Nameable p
  · rw [isFile_of_file tree h hn hfile] at hthere
    exact (Except.ok.inj hthere).symm
  · have hlocate : d.locate true p = .error (.system .nameTooLong p) := by
      unfold locate
      rw [hc]
      dsimp only
      split
      · rfl
      · rename_i hsize
        rw [walkLinks_found tree h hfile, if_neg fun hnames => hn ⟨hc, Nat.lt_of_not_le hsize, hnames⟩]
    simp [isFile, ask, stat, hlocate, DiskFault.meansAbsent] at hthere

namespace Graph

open Disk

variable {d : Disk} {g g' : Graph} {root base p q : Path} {x : Place} {file : List Source.Stmt} {s : Source.Stmt}
variable {level : Nat} {names parents : List Text} {last : Text} {targets : List Path}

theorem dotted_joinWith (h : ∀ name ∈ names, Path.IsComponent name) (hne : names ≠ []) (base : Path) :
    dotted base (Text.joinWith "." names) = base.join ⟨[], names⟩ := by
  have hsplit : Text.splitOn '.' (Text.joinWith "." names) = names :=
    Text.splitOn_joinWith (fun name hm => (h name hm).noDot) hne
  rw [dotted, hsplit]
  clear hsplit hne
  induction names generalizing base with
  | nil => simp [Path.join, Path.isAbsolute]
  | cons name rest ih =>
    obtain ⟨hname, hrest⟩ := List.forall_mem_cons.mp h
    rw [List.foldl_cons, hname.ofText, ih hrest]
    simp [Path.join, Path.isAbsolute]

/-- The directory from which a dotted name leads to a file, and the dots in front of the name: the root and none, or a
directory above the importing file and one dot more than there are directories on the way down to that. -/
inductive Counted (root : Path) : Path → Nat → Path → Prop where
  | absolute (importer : Path) : Counted root importer 0 root
  | relative (common down : List Text) (name : Text) :
      Counted root (root.join ⟨[], common ++ (down ++ [name])⟩) (down.length + 1) (root.join ⟨[], common⟩)

theorem ancestor_add (p : Path) (m n : Nat) : ancestor p (m + n) = ancestor (ancestor p n) m := by
  induction m with
  | zero => rw [Nat.zero_add, ancestor]
  | succ m ih => rw [Nat.add_right_comm, ancestor, ih, ancestor]

theorem ancestor_join (root : Path) (above below : List Text) :
    ancestor (root.join ⟨[], above ++ below⟩) below.length = root.join ⟨[], above⟩ := by
  induction below using List.reverseRecOn generalizing above with
  | nil => simp [ancestor]
  | append_singleton below name ih =>
    have hone : ancestor (root.join ⟨[], above ++ (below ++ [name])⟩) 1 = root.join ⟨[], above ++ below⟩ := by
      simp [ancestor, Path.join, Path.isAbsolute, Path.parent, ← List.append_assoc]
    rw [List.length_append, List.length_singleton, ancestor_add, hone, ih]

theorem Counted.importBase (h : Counted root p level base) (module : Text) (names : List Text) :
    importBase root p ⟨module, level, names⟩ = base := by
  cases h with
  | absolute => rfl
  | relative common down name =>
    have hlength : down.length + 1 = (down ++ [name]).length := by simp
    rw [Graph.importBase, if_neg (by simp), hlength, ancestor_join]

/-- The file of the module at a dotted name: a module, or a package beside which no module has its name. No file
stands in the place of the module itself. -/
inductive ModuleFile (d : Disk) (base : Path) (parents : List Text) (last : Text) : Path → Prop where
  | module (free : d.isFile (base.join ⟨[], parents ++ [last]⟩) ≠ .ok true) :
      ModuleFile d base parents last (base.join ⟨[], parents ++ [last ++ ".py"]⟩)
  | package (free : d.isFile (base.join ⟨[], parents ++ [last]⟩) ≠ .ok true)
      (alone : d.isFile (base.join ⟨[], parents ++ [last ++ ".py"]⟩) ≠ .ok true) :
      ModuleFile d base parents last (base.join ⟨[], parents ++ [last, "__init__.py"]⟩)

/-- A statement that imports the module of a dotted name with so many dots in front: as it is, by names in it, or by
its last component from its parent. -/
inductive Imports (level : Nat) (parents : List Text) (last : Text) : Source.Stmt → Prop where
  | modules {modules : List Text} (absolute : level = 0)
      (h : Text.joinWith "." (parents ++ [last]) ∈ modules) : Imports level parents last (.importModules modules)
  | names (names : List Text) :
      Imports level parents last (.importFrom (Text.joinWith "." (parents ++ [last])) level names)
  | part {names : List Text} (h : last ∈ names) :
      Imports level parents last (.importFrom (Text.joinWith "." parents) level names)

/-- A file that a scan can yield. -/
structure Scanned (d : Disk) (q : Path) : Prop where
  root : q.root = [Path.slash]
  clean : Clean q.parts
  file : ∀ there, d.isFile q = .ok there → there = true
  resolved : d.resolve q = .ok q

theorem firstFile?_skip {rest : List Path} {found : Option Path} (h : d.isFile p ≠ .ok true)
    (hf : firstFile? d (p :: rest) = .ok found) : firstFile? d rest = .ok found := by
  rw [firstFile?] at hf
  cases hp : d.isFile p with
  | error fault =>
    rw [hp] at hf
    cases hf
  | ok there =>
    cases there with
    | true => exact absurd hp h
    | false =>
      rw [hp] at hf
      exact hf

theorem Scanned.firstFile? {rest : List Path} {found : Option Path} (h : Scanned d q)
    (hf : firstFile? d (q :: rest) = .ok found) : found = some q := by
  rw [Graph.firstFile?] at hf
  cases hq : d.isFile q with
  | error fault =>
    rw [hq] at hf
    cases hf
  | ok there =>
    obtain rfl := h.file there hq
    simp only [hq, h.resolved] at hf
    cases hf
    rfl

/-- What stands in the tree is a file that a scan can yield. -/
theorem scanned_of_mem (h : d.PlainTree root x) (hroot : d.resolve root = .ok root)
    (hq : q ∈ d.sourceFiles nodeRule root) : Scanned d q := by
  obtain rfl : root = ⟨[Path.slash], x⟩ := Except.ok.inj (hroot.symm.trans h.resolve_root)
  obtain ⟨dirs, name, bytes, rfl, -, -, hfile⟩ := h.mem_sourceFiles_iff.mp hq
  refine ⟨rfl, h.clean_of_lookup hfile, fun there hthere => ?_, h.resolve_file hfile⟩
  have hclean : checkPath ⟨[Path.slash], x ++ (dirs ++ [name])⟩ = .ok () :=
    (checkPath_ok_iff _).mpr (h.clean_of_lookup hfile).accepted
  exact isFile_of_found h.tree (h.plain hfile) hclean hfile hthere

/-- The paths at which the file of a module is looked for. -/
theorem moduleFile?_eq (hx : ∀ part ∈ x, Path.IsPart part) (hlast : Path.IsComponent last) (d : Disk) :
    moduleFile? d ⟨[Path.slash], x ++ [last]⟩ = firstFile? d [⟨[Path.slash], x ++ [last]⟩,
      ⟨[Path.slash], x ++ [last ++ ".py"]⟩, ⟨[Path.slash], x ++ [last] ++ [("__init__.py" : Text)]⟩] := by
  have hnothing : last ++ "" = last := List.append_nil last
  have hbare := Path.ofText_suffix "" hx (by rw [hnothing]; exact hlast.isPart)
  have hmodule := Path.ofText_suffix ".py" hx hlast.isPart_module
  have hpackage := Path.ofText_child (x := x ++ [last]) "__init__.py"
    (List.forall_mem_append.mpr ⟨hx, List.forall_mem_singleton.mpr hlast.isPart⟩) (by simp) (by decide)
  rw [hnothing] at hbare
  rw [moduleFile?, moduleSuffixes, List.map_cons, List.map_cons, List.map_singleton, hbare, hmodule, ← hpackage]
  rfl

/-- The file is found at the path of its module. -/
theorem ModuleFile.found {found : Option Path} (h : ModuleFile d base parents last q) (hq : Scanned d q)
    (hlast : Path.IsComponent last) (hf : moduleFile? d (base.join ⟨[], parents ++ [last]⟩) = .ok found) :
    found = some q := by
  obtain ⟨root, y⟩ := base
  obtain rfl : root = [Path.slash] := by cases h <;> exact hq.root
  have hpath (names : List Text) (name : Text) :
      Path.join ⟨[Path.slash], y⟩ ⟨[], names ++ [name]⟩ = ⟨[Path.slash], y ++ names ++ [name]⟩ := by
    simp [Path.join, Path.isAbsolute]
  have hparts : ∀ part ∈ q.parts, Path.IsPart part := fun part hm => (hq.clean.names part hm).toIsPart
  cases h with
  | module free =>
    rw [hpath] at free hf hq hparts ⊢
    obtain ⟨hx, -⟩ := List.forall_mem_append.mp hparts
    rw [moduleFile?_eq hx hlast] at hf
    exact hq.firstFile? (firstFile?_skip free hf)
  | package free alone =>
    have hinside : parents ++ [last, "__init__.py"] = parents ++ [last] ++ [("__init__.py" : Text)] := by simp
    rw [hinside] at hq hparts ⊢
    rw [hpath] at free alone hf hq hparts ⊢
    rw [← List.append_assoc] at hq hparts ⊢
    obtain ⟨hx, -⟩ := List.forall_mem_append.mp (List.forall_mem_append.mp hparts).1
    rw [moduleFile?_eq hx hlast] at hf
    exact hq.firstFile? (firstFile?_skip alone (firstFile?_skip free hf))

/-- A name for which a file is found brings that file. -/
theorem mem_submodules {files : List Path}
    (hfound : ∀ found, moduleFile? d (base.join ⟨[], [last]⟩) = .ok found → found = some q)
    (hlast : Path.IsComponent last)
    (hmem : last ∈ names) (h : submodules d base names = .ok files) : q ∈ files := by
  induction names generalizing files with
  | nil => cases hmem
  | cons name rest ih =>
    rw [submodules] at h
    cases hf : moduleFile? d (base.join (Path.ofText name)) with
    | error fault =>
      rw [hf] at h
      cases h
    | ok found =>
      cases hl : submodules d base rest with
      | error fault =>
        rw [hf, hl] at h
        cases h
      | ok later =>
        rw [hf, hl] at h
        cases h
        rw [List.mem_append]
        rcases List.mem_cons.mp hmem with rfl | hmem
        · rw [hlast.ofText] at hf
          rw [hfound found hf]
          exact Or.inl List.mem_cons_self
        · exact Or.inr (ih hmem hl)

/-- An import of a module leads to the module and to those of the names that are files. -/
theorem importTargets_module {spec : Source.ImportSpec} (hne : spec.module ≠ [])
    (h : importTargets d root p spec = .ok targets) : ∃ own files,
      moduleFile? d (dotted (importBase root p spec) spec.module) = .ok own ∧
      submodules d (dotted (importBase root p spec) spec.module) spec.names = .ok files ∧
      targets = own.toList ++ files := by
  rw [importTargets] at h
  dsimp only at h
  rw [if_neg (by simpa using hne)] at h
  cases hown : moduleFile? d (dotted (importBase root p spec) spec.module) with
  | error fault =>
    rw [hown] at h
    cases h
  | ok own =>
    cases hfiles : submodules d (dotted (importBase root p spec) spec.module) spec.names with
    | error fault =>
      rw [hown, hfiles] at h
      cases h
    | ok files =>
      rw [hown, hfiles] at h
      cases h
      exact ⟨own, files, rfl, rfl, rfl⟩

/-- An import of names from a directory leads to their files, where there are any. -/
theorem importTargets_names {names : List Text} (h : importTargets d root p ⟨[], level, names⟩ = .ok targets) :
    ∃ files, submodules d (importBase root p ⟨[], level, names⟩) names = .ok files ∧
        (files ≠ [] → targets = files) := by
  rw [importTargets] at h
  dsimp only at h
  rw [if_pos (by rfl)] at h
  cases hfiles : submodules d (importBase root p ⟨[], level, names⟩) names with
  | error fault =>
    rw [hfiles] at h
    cases h
  | ok files =>
    refine ⟨files, rfl, fun hne => ?_⟩
    simp only [hfiles, bind, Except.bind] at h
    rw [if_neg (by simpa using hne)] at h
    cases h
    rfl

theorem joinWith_ne_nil (h : ∀ name ∈ names, Path.IsComponent name) (hne : names ≠ []) :
    Text.joinWith "." names ≠ [] := by
  intro he
  obtain ⟨name, rest, rfl⟩ := List.exists_cons_of_ne_nil hne
  have hsplit : Text.splitOn '.' (Text.joinWith "." (name :: rest)) = name :: rest :=
    Text.splitOn_joinWith (fun name hm => (h name hm).noDot) hne
  rw [he] at hsplit
  cases hsplit
  exact (h [] List.mem_cons_self).nonempty rfl

/-- What a statement imports by a dotted name contains the file of the name. -/
theorem Imports.target (hs : Imports level parents last s) (hc : Counted root p level base)
    (hfile : ModuleFile d base parents last q) (hq : Scanned d q)
    (hnames : ∀ name ∈ parents ++ [last], Path.IsComponent name) :
    ∃ spec ∈ s.ownImports, ∀ targets, importTargets d root p spec = .ok targets → q ∈ targets := by
  obtain ⟨hparents, hlast⟩ := List.forall_mem_append.mp hnames
  rw [List.forall_mem_singleton] at hlast
  have hwhole (names : List Text) (targets : List Path)
      (h : importTargets d root p ⟨Text.joinWith "." (parents ++ [last]), level, names⟩ = .ok targets) :
      q ∈ targets := by
    obtain ⟨own, files, hown, -, rfl⟩ := importTargets_module (joinWith_ne_nil hnames (by simp)) h
    rw [hc.importBase, dotted_joinWith hnames (by simp)] at hown
    rw [hfile.found hq hlast hown]
    exact List.mem_cons_self
  cases hs with
  | modules habsolute hmem =>
    subst habsolute
    exact ⟨_, List.mem_map.mpr ⟨_, hmem, rfl⟩, hwhole []⟩
  | names names => exact ⟨_, List.mem_singleton.mpr rfl, hwhole names⟩
  | @part names hmem =>
    refine ⟨_, List.mem_singleton.mpr rfl, fun targets h => ?_⟩
    by_cases hempty : parents = []
    · subst hempty
      obtain ⟨files, hfiles, htargets⟩ := importTargets_names h
      rw [hc.importBase] at hfiles
      have hmem' := mem_submodules (fun found => hfile.found hq hlast) hlast hmem hfiles
      rw [htargets (List.ne_nil_of_mem hmem')]
      exact hmem'
    · obtain ⟨own, files, -, hfiles, rfl⟩ := importTargets_module (joinWith_ne_nil hparents hempty) h
      rw [hc.importBase, dotted_joinWith hparents hempty] at hfiles
      refine List.mem_append_right _ (mem_submodules (fun found hfound => hfile.found hq hlast ?_) hlast hmem hfiles)
      rw [← hfound]
      simp [Path.join, Path.isAbsolute]

/-- Each element has its answer among the answers. -/
theorem mem_of_mapM {α β ε : Type} {f : α → Except ε β} {as : List α} {bs : List β} (h : as.mapM f = .ok bs) {a : α}
    (ha : a ∈ as) : ∃ b ∈ bs, f a = .ok b := by
  induction as generalizing bs with
  | nil => cases ha
  | cons first rest ih =>
    rw [List.mapM_cons] at h
    cases hf : f first with
    | error e =>
      rw [hf] at h
      cases h
    | ok b =>
      cases hr : rest.mapM f with
      | error e =>
        rw [hf, hr] at h
        cases h
      | ok later =>
        rw [hf, hr] at h
        cases h
        rcases List.mem_cons.mp ha with rfl | ha
        · exact ⟨b, List.mem_cons_self, hf⟩
        · obtain ⟨c, hc, hfc⟩ := ih hr ha
          exact ⟨c, List.mem_cons_of_mem b hc, hfc⟩

section

variable [Host]

/-- What one import of a file means is among the imports of the file, unless it is the file itself. -/
theorem mem_resolved {spec : Source.ImportSpec} {imports : List Path} (h : resolved d root p = .ok imports)
    (hfile : statements? d p = .ok (some file)) (hspec : spec ∈ Source.imports file) (hne : q ≠ p)
    (hq : ∀ targets, importTargets d root p spec = .ok targets → q ∈ targets) : q ∈ imports := by
  simp only [resolved, buildNode, hfile, importsOf] at h
  cases ht : (Source.imports file).mapM (importTargets d root p) with
  | error fault =>
    rw [ht] at h
    cases h
  | ok targets =>
    rw [ht] at h
    cases h
    obtain ⟨own, hown, hspecOwn⟩ := mem_of_mapM ht hspec
    simp only [List.mem_eraseDups, List.mem_filter, List.mem_flatten]
    exact ⟨⟨own, hown, hq own hspecOwn⟩, by simpa using hne⟩

/-- A graph can be rebuilt just if all imports of the files that the scan yields can be looked up. Then a file that
imports another one by its dotted name is one of the other's dependents, at whatever depth the statement stands. -/
theorem canonical_import (h : d.PlainTree root x) (hroot : d.resolve root = .ok root)
    (hp : p ∈ d.sourceFiles nodeRule root) (hq : q ∈ d.sourceFiles nodeRule root) (hne : p ≠ q)
    (hfile : statements? d p = .ok (some file)) (hstands : Source.Stands s file) (hs : Imports level parents last s)
    (hc : Counted root p level base) (hnames : ∀ name ∈ parents ++ [last], Path.IsComponent name)
    (hmodule : ModuleFile d base parents last q) (hg : g.root = root) :
    ((∃ g', rebuild d g = .ok g') ↔
      ∀ f ∈ d.sourceFiles nodeRule root, ∃ imports, resolved d root f = .ok imports) ∧
    ∀ g', rebuild d g = .ok g' →
      (∃ n, g'.node? p = some n ∧ q ∈ n.imports) ∧ ∀ depth, 1 ≤ depth → p ∈ g'.blastRadius q depth := by
  subst hg
  have hres := resolve_sources h hroot
  refine ⟨rebuild_ok_iff hres, fun g' hg' => ?_⟩
  obtain ⟨hbuilt, hlinked, hsame⟩ := rebuild_built hres hg'
  obtain ⟨n, hn⟩ := Option.isSome_iff_exists.mp ((hbuilt.nodes p).mpr hp)
  obtain ⟨m, hm⟩ := Option.isSome_iff_exists.mp ((hbuilt.nodes q).mpr hq)
  obtain ⟨spec, hspec, htarget⟩ := hs.target hc hmodule (scanned_of_mem h hroot hq) hnames
  have himports := hbuilt.imports p n hn
  rw [hsame] at himports
  have hqn : q ∈ n.imports := mem_resolved himports hfile (Source.mem_imports hstands hspec) hne.symm htarget
  refine ⟨⟨n, hn, hqn⟩, fun depth hdepth => mem_blastRadius.mpr ⟨1, Nat.le_refl 1, hdepth, ?_⟩⟩
  exact .step .nil ⟨m, hm, (hlinked q m hm p).mpr ⟨n, hn, hqn⟩⟩

theorem statements?_of_bind {α : Type} {read : List Source.Stmt → Option α} {a : α}
    (h : (statements? d p).toOption.join.bind read = some a) :
    ∃ file, statements? d p = .ok (some file) ∧ read file = some a := by
  obtain ⟨file, hfile, hread⟩ := Option.bind_eq_some_iff.mp h
  refine ⟨file, ?_, hread⟩
  cases hs : statements? d p with
  | error fault =>
    rw [hs] at hfile
    cases hfile
  | ok parsed =>
    rw [hs] at hfile
    exact congrArg Except.ok hfile

end

attribute [local instance] Host.usual

/-- A workspace with a module in which a function imports a package from a directory beside the module's own. -/
def nestedImport : Disk :=
  ⟨[(["w"], .directory), (["w", "app"], .directory), (["w", "lib"], .directory), (["w", "lib", "util"], .directory),
    (["w", "app", "run.py"], .file (Utf8.encodeAny "def f():\n from ..lib import util\n")),
    (["w", "lib", "util", "__init__.py"], .file [])]⟩

def functionImport? : List Source.Stmt → Option (Text × Nat × List Text)
  | [.function _ _ [.importFrom module level names]] => some (module, level, names)
  | _ => none

theorem stands_functionImport (h : functionImport? file = some (module, level, names)) :
    Source.Stands (.importFrom module level names) file := by
  unfold functionImport? at h
  split at h
  · cases h
    exact .inside List.mem_cons_self (.here List.mem_cons_self)
  · cases h

theorem plainTree_nestedImport : nestedImport.PlainTree sourcesRoot ["w"] where
  tree := by decide +kernel
  distinct := by decide +kernel
  clean := by decide +kernel
  located := by decide +kernel
  directory := by decide +kernel
  noLink y _ := Disk.linkless_of_entries (by decide +kernel) y

/-- A module two directories down is imported by its whole name. -/
theorem nested_import_edge : nestedImport.PlainTree sourcesRoot ["w"] ∧
    ∃ g', rebuild nestedImport ⟨sourcesRoot, [], []⟩ = .ok g' ∧
      ∀ depth, 1 ≤ depth → sourcesRoot.join ⟨[], ["app", "run.py"]⟩ ∈
        g'.blastRadius (sourcesRoot.join ⟨[], ["lib", "util", "__init__.py"]⟩) depth := by
  have hroot : nestedImport.resolve sourcesRoot = .ok sourcesRoot := by decide +kernel
  have hfiles : nestedImport.sourceFiles nodeRule sourcesRoot =
      [sourcesRoot.join ⟨[], ["app", "run.py"]⟩, sourcesRoot.join ⟨[], ["lib", "util", "__init__.py"]⟩] := by
    cbv
  have hread : (statements? nestedImport (sourcesRoot.join ⟨[], ["app", "run.py"]⟩)).toOption.join.bind
      functionImport? =
      some (Text.joinWith "." ["lib"], 2, [("util" : Text)]) := by
    decide +kernel
  obtain ⟨file, hstatements, himport⟩ := statements?_of_bind hread
  obtain ⟨hends, hedge⟩ := canonical_import (g := ⟨sourcesRoot, [], []⟩) plainTree_nestedImport hroot
    (hfiles ▸ List.mem_cons_self) (hfiles ▸ List.mem_cons_of_mem _ List.mem_cons_self) (by decide) hstatements
    (stands_functionImport himport) (.part List.mem_cons_self) (.relative [] ["app"] "run.py") (by decide)
    (.package (by decide +kernel) (by decide +kernel)) rfl
  have hresolved : ∀ f ∈ nestedImport.sourceFiles nodeRule sourcesRoot,
      ∃ imports, resolved nestedImport sourcesRoot f = .ok imports := by
    rw [hfiles]
    refine List.forall_mem_cons.mpr ⟨⟨[sourcesRoot.join ⟨[], ["lib", "util", "__init__.py"]⟩], ?_⟩,
      List.forall_mem_singleton.mpr ⟨[], ?_⟩⟩
    · decide +kernel
    · decide +kernel
  obtain ⟨g', hg'⟩ := hends.mpr hresolved
  exact ⟨plainTree_nestedImport, g', hg', (hedge g' hg').2⟩

def packageName : Text := List.replicate 253 ('a' : Char)

def longPackage : Disk :=
  ⟨[(["w"], .directory), (["w", "p.py"], .file (Utf8.encodeAny (("import " : Text) ++ packageName))),
    (["w", packageName], .directory), (["w", packageName, "__init__.py"], .file [])]⟩

def soleImport? : List Source.Stmt → Option (List Text)
  | [.importModules modules] => some modules
  | _ => none

theorem stands_soleImport (h : soleImport? file = some modules) : Source.Stands (.importModules modules) file := by
  unfold soleImport? at h
  split at h
  · cases h
    exact .here List.mem_cons_self
  · cases h

theorem plainTree_longPackage : longPackage.PlainTree sourcesRoot ["w"] where
  tree := by decide +kernel
  distinct := by decide +kernel
  clean := by decide +kernel
  located := by decide +kernel
  directory := by decide +kernel
  noLink y _ := Disk.linkless_of_entries (by decide +kernel) y

/-- Both files are scanned, and one imports the other by its dotted name. There is no rebuilt graph, since a module of
the name is looked for before the package. -/
theorem long_package_stops : longPackage.PlainTree sourcesRoot ["w"] ∧
    sourcesRoot.join ⟨[], ["p.py"]⟩ ∈ longPackage.sourceFiles nodeRule sourcesRoot ∧
    sourcesRoot.join ⟨[], [packageName, "__init__.py"]⟩ ∈ longPackage.sourceFiles nodeRule sourcesRoot ∧
    (∃ file s, statements? longPackage (sourcesRoot.join ⟨[], ["p.py"]⟩) = .ok (some file) ∧ Source.Stands s file ∧
      Imports 0 [] packageName s) ∧
    ModuleFile longPackage sourcesRoot [] packageName (sourcesRoot.join ⟨[], [packageName, "__init__.py"]⟩) ∧
    ∀ g', rebuild longPackage ⟨sourcesRoot, [], []⟩ ≠ .ok g' := by
  have hp : sourcesRoot.join ⟨[], ["p.py"]⟩ ∈ longPackage.sourceFiles nodeRule sourcesRoot := by
    exact plainTree_longPackage.mem_sourceFiles_iff.mpr ⟨[], "p.py", _, rfl, by simp, by decide +kernel, rfl⟩
  have hq : sourcesRoot.join ⟨[], [packageName, "__init__.py"]⟩ ∈ longPackage.sourceFiles nodeRule sourcesRoot := by
    exact plainTree_longPackage.mem_sourceFiles_iff.mpr
      ⟨[packageName], "__init__.py", [], rfl, by decide +kernel, by decide +kernel, by decide +kernel⟩
  have hroot : longPackage.resolve sourcesRoot = .ok sourcesRoot := by decide +kernel
  have hread : (statements? longPackage (sourcesRoot.join ⟨[], ["p.py"]⟩)).toOption.join.bind soleImport? =
      some [packageName] := by
    decide +kernel
  refine ⟨plainTree_longPackage, hp, hq, ?_, .package (by decide +kernel) (by decide +kernel), fun g' hg' => ?_⟩
  · obtain ⟨file, hstatements, himport⟩ := statements?_of_bind hread
    exact ⟨file, _, hstatements, stands_soleImport himport, .modules rfl (by simp [Text.joinWith])⟩
  · have hfault : resolved longPackage sourcesRoot (sourcesRoot.join ⟨[], ["p.py"]⟩) =
        .error (.system .nameTooLong (sourcesRoot.child (packageName ++ ".py"))) := by
      decide +kernel
    obtain ⟨imports, himports⟩ :=
      (rebuild_ok_iff (resolve_sources plainTree_longPackage hroot)).mp ⟨g', hg'⟩ _ hp
    rw [hfault] at himports
    cases himports

end Graph
end CodeAgent
