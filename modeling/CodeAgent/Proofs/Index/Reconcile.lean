import CodeAgent.Proofs.Index.Call

namespace CodeAgent.SemanticIndex

open Source Disk

variable {f : Text → Vector64} {e : Embedder} {disks : List Disk} {ix ix' : SemanticIndex} {d : Disk}

variable {seen seen' : List Text} {r r' : IndexReport} {files : List Path} {names : List Text}

/-- What each removal keeps is kept by all of them. -/
theorem removeAll_keeps {I : SemanticIndex → Prop}
    (hstep : ∀ ix', I ix' → ∀ name ∈ names, I (ix'.removeFile d (Path.ofText name) false).index) (h : I ix)
    (r : IndexReport) : I (ix.removeAll d r names).index := by
  induction names generalizing ix r with
  | nil => exact h
  | cons name rest ih =>
    have hfirst := hstep ix h name List.mem_cons_self
    have hdisk : (ix.removeFile d (Path.ofText name) false).disk = d := removeFile_disk
    unfold removeAll
    split
    · rename_i hrun
      rwa [hrun] at hfirst
    · rename_i d₁ ix₁ outcome hrun
      rw [hrun] at hfirst hdisk
      dsimp only at hfirst hdisk
      subst hdisk
      exact ih (fun ix' h' name hm => hstep ix' h' name (List.mem_cons_of_mem _ hm)) hfirst
        { r with deleted := r.deleted + outcome.deleted }

theorem mem_stale {name : Text} : name ∈ ix.stale seen ↔ ix.store.hash? name ≠ none ∧ name ∉ seen := by
  rw [stale, List.mem_mergeSort, List.mem_filter, decide_eq_true_eq, Table.mem_keys_iff]
  rfl

/-- The names of files stay their own while the root does. -/
theorem own_of_root (hown : ∀ p ∈ files, ∀ name, ix.relative d p = .ok name → Own disks ix name)
    (hr : ix'.root = ix.root) : ∀ p ∈ files, ∀ name, ix'.relative d p = .ok name → Own disks ix' name := by
  intro p hp name hn
  rw [relative_congr hr] at hn
  exact (hown p hp name hn).congr hr

/-- A path that is its own name leads to no other name while the root stays. -/
theorem Own.of_relative {name name' : Text} (h : Own disks ix name) (hr : ix'.root = ix.root) (hd : d ∈ disks)
    (hn : ix'.relative d (Path.ofText name) = .ok name') : Own disks ix' name' := by
  have hself := h.congr hr d hd
  rw [hself] at hn
  cases hn
  exact h.congr hr

/-- A file of the scan: it has a name of its own and is there to be read. -/
structure Listed (disks : List Disk) (d : Disk) (ix : SemanticIndex) (p : Path) (name : Text) : Prop where
  named : ix.relative d p = .ok name
  own : Own disks ix name
  there : readSource d (ix.root.join (Path.ofText name)) ≠ .missing

theorem Listed.congr {p : Path} {name : Text} (h : Listed disks d ix p name)
    (hr : ix'.root = ix.root) : Listed disks d ix' p name :=
  ⟨(relative_congr hr d p).trans h.named, h.own.congr hr, hr ▸ h.there⟩

theorem own_of_listed (h : ∀ p ∈ files, ∃ name, Listed disks d ix p name) :
    ∀ p ∈ files, ∀ name, ix.relative d p = .ok name → Own disks ix name := by
  intro p hp name hn
  obtain ⟨name', hl⟩ := h p hp
  rw [hl.named] at hn
  cases hn
  exact hl.own

theorem Current.congr {name : Text} (hr : ix'.root = ix.root) (hhash : ix'.store.hash? name = ix.store.hash? name)
    (h : Current d ix name) : Current d ix' name := by
  obtain ⟨source, hread, hknown⟩ := h
  exact ⟨source, hr.symm ▸ hread, hhash.trans hknown⟩

theorem IndexReport.errors_add {outcome : IndexOutcome} (h : (r.add outcome).errors = []) :
    r.errors = [] ∧ outcome.status ≠ .error := by
  obtain ⟨hr, ho⟩ := List.append_eq_nil_iff.mp h
  refine ⟨hr, fun he => ?_⟩
  rw [if_pos he] at ho
  cases ho

/-- Removing names comes to the store without them. -/
theorem removeAll_eq (r : IndexReport) (hnames : ∀ name ∈ names, ix.relative d (Path.ofText name) = .ok name) :
    ∃ ix' r', ix.removeAll d r names = ⟨d, ix', .ok r'⟩ ∧ r'.errors = r.errors ∧ ix'.root = ix.root ∧
      ix'.file = ix.file ∧ ix'.store = names.foldl forgotten ix.store := by
  induction names generalizing ix r with
  | nil => exact ⟨ix, r, rfl, rfl, rfl, rfl, rfl⟩
  | cons name rest ih =>
    rw [List.forall_mem_cons] at hnames
    obtain ⟨hfirst, hrest⟩ := hnames
    have hforgotten : ∀ name' ∈ rest, (ix.forget name).1.relative d (Path.ofText name') = .ok name' := hrest
    obtain ⟨ix', r', hrun, herr, hroot, hfile, hstore⟩ :=
      ih { r with deleted := r.deleted + (ix.forget name).2.deleted } hforgotten
    refine ⟨ix', r', ?_, herr, hroot, hfile, hstore⟩
    have hstep : ix.removeFile d (Path.ofText name) false = ⟨d, (ix.forget name).1, .ok (ix.forget name).2⟩ := by
      unfold removeFile
      rw [hfirst]
      rfl
    unfold removeAll
    rw [hstep]
    exact hrun

theorem hash?_forgotten_all (names : List Text) (s : Store) (name : Text) :
    (names.foldl forgotten s).hash? name = if name ∈ names then none else s.hash? name := by
  induction names generalizing s with
  | nil => rfl
  | cons first rest ih =>
    rw [List.foldl_cons, ih, hash?_forgotten]
    by_cases he : name = first
    · simp [he]
    · simp [he]

theorem removeAll_own (r : IndexReport) (hd : d ∈ disks) (hnames : ∀ name ∈ names, Own disks ix name) :
    ∃ ix' r', ix.removeAll d r names = ⟨d, ix', .ok r'⟩ ∧ r'.errors = r.errors ∧ ix'.root = ix.root ∧
      ix'.file = ix.file ∧ ∀ name, ix'.store.hash? name = if name ∈ names then none else ix.store.hash? name := by
  obtain ⟨ix', r', hrun, herr, hroot, hfile, hstore⟩ := removeAll_eq r fun name hm => hnames name hm d hd
  refine ⟨ix', r', hrun, herr, hroot, hfile, ?_⟩
  rw [hstore]
  exact hash?_forgotten_all names ix.store

variable [Host]

/-- What indexing each file keeps is kept by indexing all of them. -/
theorem indexAll_keeps {I : SemanticIndex → Prop}
    (hstep : ∀ ix', I ix' → ∀ p ∈ files, I (ix'.indexFile e d p false).index)
    (h : I ix) (seen : List Text) (r : IndexReport) :
    (ix.indexAll e d seen r files).disk = d ∧ I (ix.indexAll e d seen r files).index := by
  induction files generalizing ix seen r with
  | nil => exact ⟨rfl, h⟩
  | cons p rest ih =>
    have hfirst := hstep ix h p List.mem_cons_self
    have hdisk := indexFile_disk e ix d p
    unfold indexAll
    split
    · rename_i d₁ ix₁ fault hrun
      rw [hrun] at hfirst hdisk
      exact ⟨hdisk, hfirst⟩
    · rename_i d₁ ix₁ outcome hrun
      rw [hrun] at hfirst hdisk
      dsimp only at hfirst hdisk
      subst hdisk
      have hrest : ∀ ix', I ix' → ∀ p ∈ rest, I (ix'.indexFile e d₁ p false).index :=
        fun ix' h' p hp => hstep ix' h' p (List.mem_cons_of_mem _ hp)
      exact ih hrest hfirst (seen ++ [outcome.path]) (r.add outcome)

def sources (d : Disk) (ix : SemanticIndex) : List Path :=
  d.sourceFiles { extensions := some Graph.extensions } ix.root

/-- What is kept by indexing each source file, and by taking out each file that has a digest once they are indexed,
is kept by a reconciliation. -/
theorem indexWorkspace_keeps {I : SemanticIndex → Prop}
    (hindex : ∀ ix', I ix' → ∀ p ∈ sources d ix, I (ix'.indexFile e d p false).index)
    (hremove : ∀ ix₁, I ix₁ → ∀ name, ix₁.store.hash? name ≠ none →
      ∀ ix', I ix' → I (ix'.removeFile d (Path.ofText name) false).index)
    (h : I ix) : I (ix.indexWorkspace e d).index := by
  obtain ⟨hdisk, hall⟩ := indexAll_keeps hindex h [] {}
  unfold indexWorkspace
  dsimp only
  rw [← sources]
  split
  · rename_i hrun
    rwa [hrun] at hall
  · rename_i d₁ ix₁ seen r hrun
    rw [hrun] at hdisk hall
    dsimp only at hdisk hall
    subst hdisk
    have hremoved : I (ix₁.removeAll d₁ r (ix₁.stale seen)).index :=
      removeAll_keeps (fun ix' h' name hm => hremove ix₁ hall name (mem_stale.mp hm).1 ix' h') hall r
    split
    · rename_i hrun
      rwa [hrun] at hremoved
    · rename_i hrun
      rw [hrun] at hremoved
      rwa [settle_index]

theorem Tracks.indexFile_among (hc : Computes e f) (hd : d ∈ disks)
    (hown : ∀ p ∈ files, ∀ name, ix.relative d p = .ok name → Own disks ix name) :
    ∀ ix', ix'.root = ix.root ∧ Tracks f disks ix' → ∀ p ∈ files,
      (ix'.indexFile e d p false).index.root = ix.root ∧ Tracks f disks (ix'.indexFile e d p false).index := by
  rintro ix' ⟨hroot, htracks⟩ p hp
  obtain ⟨hroot', htracks'⟩ := htracks.indexFile false hc hd (own_of_root hown hroot p hp)
  exact ⟨hroot'.trans hroot, htracks'⟩

theorem indexAll_tracks (seen : List Text) (r : IndexReport) (hc : Computes e f) (hd : d ∈ disks)
    (h : Tracks f disks ix)
    (hown : ∀ p ∈ files, ∀ name, ix.relative d p = .ok name → Own disks ix name) :
    (ix.indexAll e d seen r files).disk = d ∧ (ix.indexAll e d seen r files).index.root = ix.root ∧
    Tracks f disks (ix.indexAll e d seen r files).index :=
  indexAll_keeps (I := fun ix' => ix'.root = ix.root ∧ Tracks f disks ix') (Tracks.indexFile_among hc hd hown) ⟨rfl, h⟩
    seen r

/-- One file of the scan becomes current, and what was current stays so. -/
theorem Listed.indexFile {p : Path} {name : Text} (h : Listed disks d ix p name) (hc : Computes e f)
    (hd : d ∈ disks) (outcome : IndexOutcome) (hrun : (ix.indexFile e d p false).result = .ok outcome)
    (herr : outcome.status ≠ .error) :
    outcome.path = name ∧ Current d (ix.indexFile e d p false).index name ∧
    ∀ name', Current d ix name' → Current d (ix.indexFile e d p false).index name' := by
  obtain ⟨hroot, hchange, hok⟩ := indexFile_spec false hc hd h.named h.own
  obtain ⟨hpath, hcurrent⟩ := hok h.there outcome hrun
  refine ⟨hpath, hcurrent herr, fun name' hbefore => ?_⟩
  by_cases he : name' = name
  · exact he ▸ hcurrent herr
  · exact hbefore.congr hroot (hchange.hash?_of_ne he)

/-- How a reconciliation goes: every listed file, then every stale name, then the store is saved. -/
theorem indexWorkspace_cases (e : Embedder) (d : Disk) (ix : SemanticIndex) :
    (∃ d₁ ix₁ fault, ix.indexAll e d [] {} (sources d ix) = ⟨d₁, ix₁, .error fault⟩ ∧
      ix.indexWorkspace e d = ⟨d₁, ix₁, .error fault⟩) ∨
    ∃ d₁ ix₁ seen r, ix.indexAll e d [] {} (sources d ix) = ⟨d₁, ix₁, .ok (seen, r)⟩ ∧
      ∀ ix₂ r₂, ix₁.removeAll d₁ r (ix₁.stale seen) = ⟨d₁, ix₂, .ok r₂⟩ →
        ix.indexWorkspace e d = ix₂.settle d₁ true r₂ := by
  unfold indexWorkspace
  dsimp only
  rw [← sources]
  split
  · rename_i d₁ ix₁ fault hall
    exact Or.inl ⟨d₁, ix₁, fault, hall, rfl⟩
  · rename_i d₁ ix₁ seen r hall
    refine Or.inr ⟨d₁, ix₁, seen, r, hall, ?_⟩
    intro ix₂ r₂ hremove
    rw [hremove]

/-- A reconciliation that finds names of their own in the store: the stale ones are taken out, and no other. -/
theorem indexWorkspace_own (hd : d ∈ disks)
    (hown : ∀ name, (ix.indexAll e d [] {} (sources d ix)).index.store.hash? name ≠ none →
      Own disks (ix.indexAll e d [] {} (sources d ix)).index name) :
    (∃ fault, (ix.indexAll e d [] {} (sources d ix)).result = .error fault ∧
      (ix.indexWorkspace e d).result = .error fault) ∨
    ∃ seen r, ∃ (ix₂ : SemanticIndex) (r₂ : IndexReport),
      (ix.indexAll e d [] {} (sources d ix)).result = .ok (seen, r) ∧
      ix.indexWorkspace e d = ix₂.settle d true r₂ ∧ r₂.errors = r.errors ∧
      ix₂.root = (ix.indexAll e d [] {} (sources d ix)).index.root ∧
      ix₂.file = (ix.indexAll e d [] {} (sources d ix)).index.file ∧
      ∀ name, ix₂.store.hash? name =
        if name ∈ (ix.indexAll e d [] {} (sources d ix)).index.stale seen then none
        else (ix.indexAll e d [] {} (sources d ix)).index.store.hash? name := by
  have hdisk : (ix.indexAll e d [] {} (sources d ix)).disk = d :=
    (indexAll_keeps (I := fun _ => True) (fun _ _ _ _ => trivial) trivial [] {}).1
  rcases indexWorkspace_cases e d ix with ⟨d₁, ix₁, fault, hall, hw⟩ | ⟨d₁, ix₁, seen, r, hall, hthen⟩
  · rw [hall, hw]
    exact Or.inl ⟨fault, rfl, rfl⟩
  · rw [hall] at hdisk hown ⊢
    dsimp only at hdisk hown ⊢
    subst hdisk
    obtain ⟨ix₂, r₂, hremove, herr, hroot, hfile, hhash⟩ :=
      removeAll_own r hd fun name (hm : name ∈ ix₁.stale seen) => hown name (mem_stale.mp hm).1
    exact Or.inr ⟨seen, r, ix₂, r₂, rfl, hthen ix₂ r₂ hremove, herr, hroot, hfile, hhash⟩

theorem Tracks.indexWorkspace (h : Tracks f disks ix) (hc : Computes e f) (hd : d ∈ disks)
    (hown : ∀ p ∈ sources d ix, ∀ name, ix.relative d p = .ok name → Own disks ix name) :
    (ix.indexWorkspace e d).index.root = ix.root ∧ Tracks f disks (ix.indexWorkspace e d).index := by
  refine indexWorkspace_keeps (I := fun ix' => ix'.root = ix.root ∧ Tracks f disks ix')
    (Tracks.indexFile_among hc hd hown) ?_ ⟨rfl, h⟩
  rintro ix₁ ⟨hroot₁, htracks₁⟩ name hname ix' ⟨hroot, htracks⟩
  obtain ⟨hroot', htracks'⟩ := htracks.removeFile (d := d) false fun name' hn =>
    (htracks₁.own name hname).of_relative (hroot.trans hroot₁.symm) hd hn
  exact ⟨hroot'.trans hroot, htracks'⟩

section
variable {P : SemanticIndex → Text → Prop} {C : IndexReport → Prop} {G : IndexOutcome → Prop}

variable (hreport : ∀ r outcome, C (r.add outcome) → C r ∧ G outcome)

variable (hstep : ∀ ix' p name, Listed disks d ix' p name →
  (ix'.indexFile e d p false).index.root = ix'.root ∧
  ∀ outcome, (ix'.indexFile e d p false).result = .ok outcome → G outcome →
    outcome.path = name ∧ P (ix'.indexFile e d p false).index name ∧
    ∀ other, P ix' other → P (ix'.indexFile e d p false).index other)
include hreport hstep

/-- Listed files of which each has `P` once it is indexed, and leaves it to the names that have it, have it all in the

end. What `C` says of a report, `G` says of each outcome in it. -/

theorem indexAll_listed
    (hfiles : ∀ p ∈ files, ∃ name, Listed disks d ix p name)
    (hrun : (ix.indexAll e d seen r files).result = .ok (seen', r')) (hall : C r') :
    C r ∧
    (∀ name, P ix name → P (ix.indexAll e d seen r files).index name) ∧
    (∀ p ∈ files, ∀ name, ix.relative d p = .ok name → P (ix.indexAll e d seen r files).index name) ∧
    (∀ name, name ∈ seen' ↔ name ∈ seen ∨ ∃ p ∈ files, ix.relative d p = .ok name) := by
  induction files generalizing ix seen r with
  | nil =>
    cases hrun
    exact ⟨hall, fun _ h => h, by simp, by simp⟩
  | cons p rest ih =>
    rw [List.forall_mem_cons] at hfiles
    obtain ⟨⟨name, hlisted⟩, hrest⟩ := hfiles
    obtain ⟨hroot, hfile⟩ := hstep ix p name hlisted
    have hdisk := indexFile_disk e ix d p
    unfold indexAll at hrun ⊢
    cases hfirst : ix.indexFile e d p false with
    | mk d₁ ix₁ result =>
      rw [hfirst] at hrun hroot hdisk hfile
      dsimp only at hroot hdisk hfile
      subst hdisk
      cases result with
      | error fault => cases hrun
      | ok outcome =>
        have hnext : ∀ p ∈ rest, ∃ name, Listed disks d₁ ix₁ p name := by
          intro p hp
          obtain ⟨name, hl⟩ := hrest p hp
          exact ⟨name, hl.congr hroot⟩
        obtain ⟨hadded, hkeep, hreach, hseen⟩ := ih hnext hrun
        obtain ⟨hr, houtcome⟩ := hreport r outcome hadded
        obtain ⟨hpath, hnow, hbefore⟩ := hfile outcome rfl houtcome
        refine ⟨hr, fun name' h => hkeep name' (hbefore name' h), ?_, ?_⟩
        · rw [List.forall_mem_cons]
          constructor
          · intro name' hn
            rw [hlisted.named] at hn
            cases hn
            exact hkeep name hnow
          · intro p hp name' hn
            exact hreach p hp name' ((relative_congr hroot d₁ p).trans hn)
        · intro name'
          rw [hseen, hpath, List.mem_append, List.mem_singleton, or_assoc]
          simp only [relative_congr hroot, List.mem_cons, exists_eq_or_imp, hlisted.named, Except.ok.injEq,
            eq_comm (a := name')]

/-- The same of a reconciliation, if `P` is about the root and the digest of a file. No other file keeps a digest. -/
theorem indexWorkspace_listed {report : IndexReport}
    (hcongr : ∀ ix₁ ix₂ name, ix₂.root = ix₁.root → ix₂.store.hash? name = ix₁.store.hash? name →
        P ix₁ name → P ix₂ name)
    (herrors : ∀ r r', r'.errors = r.errors → C r' → C r) (hd : d ∈ disks)
    (hlisted : ∀ p ∈ sources d ix, ∃ name, Listed disks d ix p name)
    (hown : ∀ name, (ix.indexAll e d [] {} (sources d ix)).index.store.hash? name ≠ none →
      Own disks (ix.indexAll e d [] {} (sources d ix)).index name)
    (hrun : (ix.indexWorkspace e d).result = .ok report) (hall : C report) :
    (∀ p ∈ sources d ix, ∀ name, ix.relative d p = .ok name → P (ix.indexWorkspace e d).index name) ∧
    ∀ name, (ix.indexWorkspace e d).index.store.hash? name ≠ none →
      ∃ p ∈ sources d ix, ix.relative d p = .ok name := by
  rcases indexWorkspace_own hd hown with ⟨fault, -, hfault⟩ | ⟨seen, r, ix₂, r₂, hok, hw, herr, hroot, -, hhash⟩
  · rw [hfault] at hrun
    cases hrun
  · rw [hw] at hrun ⊢
    obtain rfl := settle_ok hrun
    rw [settle_index]
    obtain ⟨-, -, hreach, hseen⟩ := indexAll_listed hreport hstep hlisted hok (herrors r _ herr hall)
    simp only [List.not_mem_nil, false_or] at hseen
    refine ⟨fun p hp name hn => hcongr _ _ _ hroot ?_ (hreach p hp name hn), fun name hn => ?_⟩
    · rw [hhash, if_neg fun hs => (mem_stale.mp hs).2 ((hseen name).mpr ⟨p, hp, hn⟩)]
    · rw [← hseen]
      by_contra hunseen
      rw [hhash] at hn
      split at hn
      · exact hn rfl
      · rename_i hs
        exact hs (mem_stale.mpr ⟨hn, hunseen⟩)

end

/-- After a run without errors the names in the store are those of the scan, all of them current. -/
theorem indexWorkspace_ok {report : IndexReport} (h : Tracks f disks ix) (hc : Computes e f) (hd : d ∈ disks)
    (hlisted : ∀ p ∈ sources d ix, ∃ name, Listed disks d ix p name)
    (hrun : (ix.indexWorkspace e d).result = .ok report) (herr : report.errors = []) :
    (∀ p ∈ sources d ix, ∀ name, ix.relative d p = .ok name → Current d (ix.indexWorkspace e d).index name) ∧
    ∀ name, (ix.indexWorkspace e d).index.store.hash? name ≠ none →
      ∃ p ∈ sources d ix, ix.relative d p = .ok name := by
  obtain ⟨-, -, htracks⟩ := indexAll_tracks [] {} hc hd h (own_of_listed hlisted)
  exact indexWorkspace_listed (P := Current d) (C := fun r => r.errors = [])
      (G := fun outcome => outcome.status ≠ .error)
    (fun _ _ => IndexReport.errors_add)
    (fun _ _ _ hl => ⟨(indexFile_spec false hc hd hl.named hl.own).1, hl.indexFile hc hd⟩)
    (fun _ _ _ => Current.congr) (fun _ _ hsame => hsame.symm.trans) hd hlisted htracks.own hrun herr

end CodeAgent.SemanticIndex
