import CodeAgent.Proofs.Graph.Canonical

namespace CodeAgent.Graph

open Source

variable {d : Disk} {root importer base q : Path} {spec : ImportSpec} {names : List Text} {name : Text}
variable {files targets : List Path}

def singly (spec : ImportSpec) : List ImportSpec := spec.names.map fun name => { spec with names := [name] }

def importDirectory (root importer : Path) (spec : ImportSpec) : Path :=
  if spec.module = [] then importBase root importer spec else dotted (importBase root importer spec) spec.module

def memberFile? (d : Disk) (base : Path) (name : Text) : Except DiskFault (Option Path) :=
  moduleFile? d (base.join (Path.ofText name))

def packageFile? (d : Disk) (base : Path) : Except DiskFault (Option Path) := firstFile? d [base.child "__init__.py"]

/-- A name that is a module of the directory from which it is imported. -/
def IsMember (d : Disk) (root importer : Path) (spec : ImportSpec) (name : Text) : Prop :=
  ∃ q, memberFile? d (importDirectory root importer spec) name = .ok (some q)

/-- Names of a bare directory are imported together of which some are modules and others are not. -/
structure Mixed (d : Disk) (root importer : Path) (spec : ImportSpec) : Prop where
  bare : spec.module = []
  member : ∃ name ∈ spec.names, IsMember d root importer spec name
  other : ∃ name ∈ spec.names, ¬ IsMember d root importer spec name

/-- All that an import asks the disk for can be looked up. -/
structure Findable (d : Disk) (root importer : Path) (spec : ImportSpec) : Prop where
  own : spec.module ≠ [] → ∃ found, moduleFile? d (importDirectory root importer spec) = .ok found
  names : ∀ name ∈ spec.names, ∃ found, memberFile? d (importDirectory root importer spec) name = .ok found
  package : spec.module = [] → (∀ name ∈ spec.names, ¬ IsMember d root importer spec name) →
    ∃ found, packageFile? d (importDirectory root importer spec) = .ok found

/-- The files that an import means: the module itself, the modules among its names, or the own file of a bare
directory of which no name is a module. -/
inductive Meant (d : Disk) (root importer : Path) (spec : ImportSpec) (q : Path) : Prop where
  | own (named : spec.module ≠ []) (file : moduleFile? d (importDirectory root importer spec) = .ok (some q))
  | member (name : Text) (imported : name ∈ spec.names)
      (file : memberFile? d (importDirectory root importer spec) name = .ok (some q))
  | package (bare : spec.module = []) (nothing : ∀ name ∈ spec.names, ¬ IsMember d root importer spec name)
      (file : packageFile? d (importDirectory root importer spec) = .ok (some q))

/-- Where the submodules can be looked for, each name can. -/
theorem memberFile?_of_submodules (h : submodules d base names = .ok files) :
    ∀ name ∈ names, ∃ found, memberFile? d base name = .ok found := by
  induction names generalizing files with
  | nil => simp
  | cons name rest ih =>
    rw [submodules] at h
    cases hfile : moduleFile? d (base.join (Path.ofText name)) with
    | error fault =>
      rw [hfile] at h
      cases h
    | ok found =>
      cases hlater : submodules d base rest with
      | error fault =>
        rw [hfile, hlater] at h
        cases h
      | ok later => exact List.forall_mem_cons.mpr ⟨⟨found, hfile⟩, ih hlater⟩

theorem exists_submodules (h : ∀ name ∈ names, ∃ found, memberFile? d base name = .ok found) :
    ∃ files, submodules d base names = .ok files ∧
      ∀ q, q ∈ files ↔ ∃ name ∈ names, memberFile? d base name = .ok (some q) := by
  induction names with
  | nil => exact ⟨[], rfl, by simp⟩
  | cons name rest ih =>
    obtain ⟨⟨found, hfound⟩, hrest⟩ := List.forall_mem_cons.mp h
    obtain ⟨later, hlater, hmem⟩ := ih hrest
    refine ⟨found.toList ++ later, ?_, fun q => ?_⟩
    · rw [submodules, ← memberFile?, hfound, hlater]
      rfl
    · simp [hmem, hfound, eq_comm]

theorem mem_of_submodules (h : submodules d base names = .ok files) :
    q ∈ files ↔ ∃ name ∈ names, memberFile? d base name = .ok (some q) := by
  obtain ⟨files', hfiles, hmem⟩ := exists_submodules (memberFile?_of_submodules h)
  rw [h] at hfiles
  cases hfiles
  exact hmem q

theorem importTargets_eq (d : Disk) (root importer : Path) (spec : ImportSpec) :
    importTargets d root importer spec =
      if spec.module = [] then do
        let files ← submodules d (importDirectory root importer spec) spec.names
        if files = [] then return (← packageFile? d (importDirectory root importer spec)).toList
        return files
      else do
        let own ← moduleFile? d (importDirectory root importer spec)
        let files ← submodules d (importDirectory root importer spec) spec.names
        return own.toList ++ files := by
  unfold importTargets importDirectory
  by_cases hbare : spec.module = []
  · simp [hbare, packageFile?]
  · simp [hbare]

/-- What can be looked up is resolved, to the files that the import means. -/
theorem Findable.importTargets (h : Findable d root importer spec) :
    ∃ targets, importTargets d root importer spec = .ok targets ∧
      ∀ q, q ∈ targets ↔ Meant d root importer spec q := by
  obtain ⟨files, hfiles, hmem⟩ := exists_submodules h.names
  rw [importTargets_eq, hfiles]
  by_cases hbare : spec.module = []
  · rw [if_pos hbare]
    by_cases hnone : files = []
    · have hnothing : ∀ name ∈ spec.names, ¬ IsMember d root importer spec name := by
        intro name hname hmember
        obtain ⟨q, hq⟩ := hmember
        have hin := (hmem q).mpr ⟨name, hname, hq⟩
        rw [hnone] at hin
        cases hin
      obtain ⟨found, hfound⟩ := h.package hbare hnothing
      refine ⟨found.toList, by simp [hnone, hfound, bind, Except.bind, pure, Except.pure], ?_⟩
      intro q
      rw [Option.mem_toList]
      constructor
      · intro hq
        exact .package hbare hnothing (hfound.trans (congrArg Except.ok hq))
      · intro hq
        cases hq with
        | own named => exact absurd hbare named
        | member name himported hfile => exact absurd ⟨q, hfile⟩ (hnothing name himported)
        | package _ _ hfile => exact Except.ok.inj (hfound.symm.trans hfile)
    · refine ⟨files, by simp [hnone, bind, Except.bind, pure, Except.pure], ?_⟩
      intro q
      rw [hmem]
      constructor
      · intro hq
        obtain ⟨name, hname, hfile⟩ := hq
        exact .member name hname hfile
      · intro hq
        cases hq with
        | own named => exact absurd hbare named
        | member name himported hfile => exact ⟨name, himported, hfile⟩
        | package _ hnothing _ =>
          obtain ⟨q', hq'⟩ := List.exists_mem_of_ne_nil files hnone
          obtain ⟨name, hname, hfile⟩ := (hmem q').mp hq'
          exact absurd ⟨q', hfile⟩ (hnothing name hname)
  · obtain ⟨own, hown⟩ := h.own hbare
    rw [if_neg hbare, hown]
    refine ⟨own.toList ++ files, rfl, ?_⟩
    intro q
    rw [List.mem_append, Option.mem_toList, hmem]
    constructor
    · intro hq
      cases hq with
      | inl hq => exact .own hbare (hown.trans (congrArg Except.ok hq))
      | inr hq =>
        obtain ⟨name, hname, hfile⟩ := hq
        exact .member name hname hfile
    · intro hq
      cases hq with
      | own _ hfile => exact Or.inl (Except.ok.inj (hown.symm.trans hfile))
      | member name himported hfile => exact Or.inr ⟨name, himported, hfile⟩
      | package bare => exact absurd bare hbare

/-- An import that is resolved had nothing in it that the system refuses. -/
theorem findable_of_importTargets (h : importTargets d root importer spec = .ok targets) :
    Findable d root importer spec := by
  rw [importTargets_eq] at h
  have hfiles : ∃ files, submodules d (importDirectory root importer spec) spec.names = .ok files := by
    cases hf : submodules d (importDirectory root importer spec) spec.names with
    | ok files => exact ⟨files, rfl⟩
    | error fault =>
      rw [hf] at h
      split at h
      · cases h
      · cases hown : moduleFile? d (importDirectory root importer spec) with
        | error => simp [hown, bind, Except.bind] at h
        | ok own => simp [hown, bind, Except.bind] at h
  obtain ⟨files, hfiles⟩ := hfiles
  rw [hfiles] at h
  refine ⟨?_, memberFile?_of_submodules hfiles, ?_⟩
  · intro hnamed
    rw [if_neg hnamed] at h
    cases hown : moduleFile? d (importDirectory root importer spec) with
    | error fault => simp [hown, bind, Except.bind] at h
    | ok own => exact ⟨own, rfl⟩
  · intro hbare hnothing
    have hnone : files = [] := by
      apply List.eq_nil_iff_forall_not_mem.mpr
      intro q hq
      obtain ⟨name, hname, hfile⟩ := (mem_of_submodules hfiles).mp hq
      exact hnothing name hname ⟨q, hfile⟩
    rw [if_pos hbare, hnone] at h
    cases hpackage : packageFile? d (importDirectory root importer spec) with
    | error fault => simp [hpackage, bind, Except.bind] at h
    | ok found => exact ⟨found, rfl⟩

theorem mem_importTargets (h : importTargets d root importer spec = .ok targets) :
    q ∈ targets ↔ Meant d root importer spec q := by
  obtain ⟨targets', htargets, hmem⟩ := (findable_of_importTargets h).importTargets
  rw [h] at htargets
  cases htargets
  exact hmem q

/-- An import is resolved just if all that it asks for can be looked up. -/
theorem resolves_iff :
    (∃ targets, importTargets d root importer spec = .ok targets) ↔ Findable d root importer spec := by
  constructor
  · intro h
    obtain ⟨targets, htargets⟩ := h
    exact findable_of_importTargets htargets
  · intro h
    obtain ⟨targets, htargets, -⟩ := h.importTargets
    exact ⟨targets, htargets⟩

/-- An import leads to a file just if it can be resolved and means the file. -/
theorem leads_iff : (∃ targets, importTargets d root importer spec = .ok targets ∧ q ∈ targets) ↔
    Findable d root importer spec ∧ Meant d root importer spec q := by
  constructor
  · intro h
    obtain ⟨targets, htargets, hq⟩ := h
    exact ⟨findable_of_importTargets htargets, (mem_importTargets htargets).mp hq⟩
  · intro h
    obtain ⟨targets, htargets, hmem⟩ := h.1.importTargets
    exact ⟨targets, htargets, (hmem q).mpr h.2⟩

/-- The statement that imports one of the names can be resolved, if the own file of a bare directory can be looked up
where the name is no module. -/
theorem Findable.one (h : Findable d root importer spec) (hname : name ∈ spec.names)
    (hpackage : spec.module = [] → ¬ IsMember d root importer spec name →
      ∃ found, packageFile? d (importDirectory root importer spec) = .ok found) :
    Findable d root importer { spec with names := [name] } where
  own := h.own
  names := List.forall_mem_singleton.mpr (h.names name hname)
  package hbare hnothing := hpackage hbare (hnothing name List.mem_cons_self)

theorem Findable.one_of_not_mixed (h : Findable d root importer spec) (hmixed : ¬ Mixed d root importer spec)
    (hname : name ∈ spec.names) : Findable d root importer { spec with names := [name] } := by
  apply h.one hname
  intro hbare hother
  apply h.package hbare
  intro member hin hmember
  exact hmixed ⟨hbare, ⟨member, hin, hmember⟩, name, hname, hother⟩

/-- Where every name can be imported alone, all can be imported together. -/
theorem findable_of_singly (hne : spec.names ≠ [])
    (h : ∀ name ∈ spec.names, Findable d root importer { spec with names := [name] }) :
    Findable d root importer spec := by
  obtain ⟨first, hfirst⟩ := List.exists_mem_of_ne_nil spec.names hne
  refine ⟨(h first hfirst).own, ?_, ?_⟩
  · intro name hname
    exact (h name hname).names name List.mem_cons_self
  · intro hbare hnothing
    exact (h first hfirst).package hbare (List.forall_mem_singleton.mpr (hnothing first hfirst))

/-- What one of the names means alone it means in the whole statement, or it is the own file of a bare directory that
the statement imports a module from. -/
theorem Meant.of_one (h : Meant d root importer { spec with names := [name] } q) (hname : name ∈ spec.names) :
    Meant d root importer spec q ∨
      Mixed d root importer spec ∧ packageFile? d (importDirectory root importer spec) = .ok (some q) := by
  cases h with
  | own hnamed hfile => exact Or.inl (.own hnamed hfile)
  | member name' himported hfile =>
    rw [List.mem_singleton.mp himported] at hfile
    exact Or.inl (.member name hname hfile)
  | package hbare hnothing hfile =>
    by_cases hmember : ∃ name ∈ spec.names, IsMember d root importer spec name
    · exact Or.inr ⟨⟨hbare, hmember, name, hname, hnothing name List.mem_cons_self⟩, hfile⟩
    · push Not at hmember
      exact Or.inl (.package hbare hmember hfile)

/-- What a statement means one of its names means alone. -/
theorem Meant.split (h : Meant d root importer spec q) (hf : Findable d root importer spec) (hne : spec.names ≠ []) :
    ∃ name ∈ spec.names, Findable d root importer { spec with names := [name] } ∧
      Meant d root importer { spec with names := [name] } q := by
  obtain ⟨first, hfirst⟩ := List.exists_mem_of_ne_nil spec.names hne
  cases h with
  | own hnamed hfile =>
    exact ⟨first, hfirst, hf.one hfirst (fun hbare => absurd hbare hnamed), .own hnamed hfile⟩
  | member name himported hfile =>
    refine ⟨name, himported, hf.one himported ?_, .member name List.mem_cons_self hfile⟩
    intro _ hother
    exact absurd ⟨q, hfile⟩ hother
  | package hbare hnothing hfile =>
    refine ⟨first, hfirst, hf.one hfirst fun _ _ => ⟨some q, hfile⟩, .package hbare ?_ hfile⟩
    exact List.forall_mem_singleton.mpr (hnothing first hfirst)

/-- Importing names one by one leads to the files to which importing them together leads, and to one more if some
names of a bare directory are modules and others are not: the own file of the directory. -/
theorem import_splits (hne : spec.names ≠ []) :
    ((∀ one ∈ singly spec, ∃ targets, importTargets d root importer one = .ok targets) →
      ∃ targets, importTargets d root importer spec = .ok targets) ∧
    ∀ targets, importTargets d root importer spec = .ok targets →
      (¬ Mixed d root importer spec →
        ∀ one ∈ singly spec, ∃ targets, importTargets d root importer one = .ok targets) ∧
      ∀ q, (∃ one ∈ singly spec, ∃ targets, importTargets d root importer one = .ok targets ∧ q ∈ targets) ↔
        q ∈ targets ∨
          Mixed d root importer spec ∧ packageFile? d (importDirectory root importer spec) = .ok (some q) := by
  simp only [singly, List.mem_map, exists_exists_and_eq_and, forall_exists_index, and_imp, forall_apply_eq_imp_iff₂,
    resolves_iff, leads_iff]
  refine ⟨findable_of_singly hne, ?_⟩
  intro targets htargets
  have hf := findable_of_importTargets htargets
  refine ⟨fun hmixed name hname => hf.one_of_not_mixed hmixed hname, ?_⟩
  intro q
  rw [mem_importTargets htargets]
  constructor
  · intro h
    obtain ⟨name, hname, -, hmeant⟩ := h
    exact hmeant.of_one hname
  · intro h
    cases h with
    | inl hmeant => exact hmeant.split hf hne
    | inr hpackage =>
      obtain ⟨⟨hbare, -, name, hname, hother⟩, hfile⟩ := hpackage
      refine ⟨name, hname, hf.one hname fun _ _ => ⟨some q, hfile⟩, ?_⟩
      exact .package hbare (List.forall_mem_singleton.mpr hother) hfile

def flatPackage : Disk :=
  ⟨[(["w"], .directory), (["w", "__init__.py"], .file []), (["w", "a.py"], .file []), (["w", "p.py"], .file [])]⟩

def mixedImport : ImportSpec := ⟨[], 1, ["a", "x"]⟩

def flatImporter : Path := sourcesRoot.child "p.py"

theorem mixed_import_resolved :
    importTargets flatPackage sourcesRoot flatImporter mixedImport = .ok [sourcesRoot.child "a.py"] ∧
    importTargets flatPackage sourcesRoot flatImporter { mixedImport with names := ["a"] } =
      .ok [sourcesRoot.child "a.py"] ∧
    importTargets flatPackage sourcesRoot flatImporter { mixedImport with names := ["x"] } =
      .ok [sourcesRoot.child "__init__.py"] := by
  decide +kernel

theorem mixed_import_splits : mixedImport.names ≠ [] ∧
    (∃ targets, importTargets flatPackage sourcesRoot flatImporter mixedImport = .ok targets) ∧
    ∀ q, (∃ one ∈ singly mixedImport, ∃ targets,
        importTargets flatPackage sourcesRoot flatImporter one = .ok targets ∧ q ∈ targets) ↔
      q ∈ [sourcesRoot.child "a.py"] ∨ Mixed flatPackage sourcesRoot flatImporter mixedImport ∧
        packageFile? flatPackage (importDirectory sourcesRoot flatImporter mixedImport) = .ok (some q) := by
  have hne : mixedImport.names ≠ [] := by simp [mixedImport]
  obtain ⟨hwhole, -, -⟩ := mixed_import_resolved
  exact ⟨hne, ⟨_, hwhole⟩, ((import_splits hne).2 _ hwhole).2⟩

/-- All three statements can be resolved, and the own file of the package is lost to the one with both names. -/
theorem fallback_lost :
    ∃ targets, importTargets flatPackage sourcesRoot flatImporter mixedImport = .ok targets ∧
      (∀ one ∈ singly mixedImport, ∃ targets, importTargets flatPackage sourcesRoot flatImporter one = .ok targets) ∧
      ¬ ∀ q, q ∈ targets ↔ ∃ one ∈ singly mixedImport, ∃ targets,
        importTargets flatPackage sourcesRoot flatImporter one = .ok targets ∧ q ∈ targets := by
  obtain ⟨hwhole, hmodule, hother⟩ := mixed_import_resolved
  refine ⟨_, hwhole, ?_, ?_⟩
  · intro one hone
    simp only [singly, mixedImport, List.map_cons, List.map_nil, List.mem_cons, List.not_mem_nil, or_false] at hone
    cases hone with
    | inl hone => exact ⟨_, hone ▸ hmodule⟩
    | inr hone => exact ⟨_, hone ▸ hother⟩
  · intro h
    have hlost := (h (sourcesRoot.child "__init__.py")).mpr
      ⟨_, List.mem_cons_of_mem _ List.mem_cons_self, _, hother, List.mem_cons_self⟩
    exact absurd hlost (by decide)

end CodeAgent.Graph
