import CodeAgent.Host.Usual
import CodeAgent.Proofs.Index.Mirror
import CodeAgent.Proofs.Index.Notice
import CodeAgent.Proofs.Store.Replace

namespace CodeAgent

theorem Disk.Unlinked.settled {rule : ScanRule} {d : Disk} {x : Place} (h : d.Unlinked x) (htidy : d.Tidy)
    (hx : Disk.Clean x) : d.Settled rule x where
  tree := h.tree
  distinct := htidy.distinct
  clean := htidy.clean
  root := by
    have hplain : d.Plain (x ++ []) := h.plain (by simpa using hx.names)
    rwa [List.append_nil] at hplain
  noLink y hy := by
    obtain ⟨dirs, name, rfl, -⟩ := hy
    exact h.noLink _ (Or.inr (List.prefix_append _ _))

namespace SemanticIndex

open Source Disk

variable {e e' : Embedder} {disks : List Disk} {ix ix' : SemanticIndex} {d d' : Disk} {root file p : Path}

variable {name other : Text} {files : List Path}

variable {visits : List Visit}

/-- An index at its places in which every name with a digest is its own name on some disks. -/
structure Owns (disks : List Disk) (root file : Path) (ix : SemanticIndex) : Prop where
  root : ix.root = root
  file : ix.file = file
  own : ∀ name, ix.store.hash? name ≠ none → Own disks ix name

theorem Owns.minds (h : Owns disks root file ix) (hm : Minds name ix ix') (hown : Own disks ix name) :
    Owns disks root file ix' := by
  refine ⟨hm.root.trans h.root, hm.file.trans h.file, fun other hother => ?_⟩
  by_cases he : other = name
  · exact he ▸ hown.congr hm.root
  · rw [hm.hash other he] at hother
    exact (h.own other hother).congr hm.root

section
theorem Owns.removeFile (h : Owns disks root file ix) (persist : Bool)
    (hown : ∀ name, ix.relative d p = .ok name → Own disks ix name) :
    Owns disks root file (ix.removeFile d p persist).index := by
  cases hn : ix.relative d p with
  | error fault => rwa [removeFile_of_error hn]
  | ok name => exact h.minds (removeFile_minds hn persist) (hown name hn)

theorem settle_saved {α : Type} {outcome outcome' : α} (h : (ix.settle d true outcome).result = .ok outcome') :
    ix.store.save d ix.file = ((ix.settle d true outcome).disk, .ok ()) := by
  unfold settle at h ⊢
  rw [if_pos rfl] at h ⊢
  split at h
  · rename_i hsave
    rw [hsave]
  · cases h

section
variable {x : Place}

/-- A workspace in which no module was made, changed or taken away. -/
structure Calm (d d' : Disk) (x : Place) : Prop where
  before : d.Tidy
  after : d'.Tidy
  unlinked : d.Unlinked x
  noLink : ∀ y target, d'.lookup? y = some (.link target) → d.lookup? y = some (.link target)
  files : ∀ (rule : ScanRule) y, rule.extensions = some Graph.extensions → rule.Reaches x y →
    ∀ bytes, d'.lookup? y = some (.file bytes) ↔ d.lookup? y = some (.file bytes)

theorem Calm.unlinked' (h : Calm d d' x) : d'.Unlinked x where
  tree := h.after.tree
  named entry hm := (h.after.clean entry hm).names
  noLink y hy target hl := h.unlinked.noLink y hy target (h.noLink y target hl)

theorem fileName_not_kept (rule : ScanRule) (h : rule.extensions = some Graph.extensions) :
    rule.keeps Store.fileName = false := by
  unfold ScanRule.keeps
  rw [h]
  decide

/-- Saving a store calms a workspace: its file is no module, and nor is a directory. -/
theorem calm_of_save {s : Store} {dir : Path} (hu : d.Unlinked x) (htidy : d.Tidy) (hwritten : dir.Written)
    (hl : (d.ensureDirectories dir).1.NotLinked (dir.child Store.fileName))
    (h : s.save d (dir.child Store.fileName) = (d', .ok ())) : Calm d d' x := by
  obtain ⟨y, hgrows, -, hkept, -⟩ := Store.save_grows h hl
  refine ⟨htidy, hkept htidy hwritten, hu, hgrows.noLink, fun rule z hrule hz bytes => ?_⟩
  have hother : z ∉ [y ++ [Store.fileName]] := by
    rw [List.mem_singleton]
    rintro rfl
    obtain ⟨dirs, name, he, -, hkeeps⟩ := hz
    rw [← List.append_assoc] at he
    rw [← List.singleton_injective (List.append_inj_right' he rfl), fileName_not_kept rule hrule] at hkeeps
    cases hkeeps
  rcases hgrows.outside z hother with he | ⟨hnone, hdirectory⟩
  · rw [he]
  · simp [hnone, hdirectory]

/-- While the disk is calm a scan yields the same files. -/
theorem Calm.mem_sources (h : Calm d d' ix.root.parts) (hr : ix.Rooted) : p ∈ sources d' ix ↔ p ∈ sources d ix := by
  have hsettled : d.Settled { extensions := some Graph.extensions } ix.root.parts :=
    h.unlinked.settled h.before hr.clean
  have hsettled' : d'.Settled { extensions := some Graph.extensions } ix.root.parts :=
    h.unlinked'.settled h.after hr.clean
  by_cases hn : Nameable ix.root
  · unfold sources
    rw [mem_sourceFiles_iff hsettled hr.root hn, mem_sourceFiles_iff hsettled' hr.root hn]
    refine and_congr_right fun _ => and_congr_right fun hreach => exists_congr fun bytes => ?_
    exact h.files _ _ rfl hreach bytes
  · have hnone : ∀ {d : Disk}, p ∉ sources d ix := by
      intro d hm
      unfold sources sourceFiles at hm
      split at hm
      · rename_i hl
        exact hn (locate_nameable hl)
      · cases hm
    exact iff_of_false hnone hnone

/-- The modules of a calm workspace are read as before, under the names that they had. -/
theorem Calm.read (h : Calm d d' ix.root.parts) (hr : ix.Rooted) (hp : p ∈ sources d ix) :
    readSource d' p = readSource d p ∧ ix.relative d' p = ix.relative d p := by
  obtain ⟨rest, rfl, hnames, -⟩ := mem_sourceFiles h.unlinked hr.clean hr.root hp
  have hn : Nameable ix.root := by
    unfold sources sourceFiles at hp
    split at hp
    · rename_i hl
      exact locate_nameable hl
    · cases hp
  have hsettled : d.Settled { extensions := some Graph.extensions } ix.root.parts :=
    h.unlinked.settled h.before hr.clean
  obtain ⟨-, hreach, bytes, hfile⟩ := (mem_sourceFiles_iff hsettled hr.root hn).mp hp
  have hfile' := (h.files _ _ rfl hreach bytes).mpr hfile
  have hstat := stat_eq h.before.tree h.after.tree (h.unlinked.plain hnames) (h.unlinked'.plain hnames) hfile hfile'
  refine ⟨?_, hr.relative_below_congr h.unlinked h.unlinked' hnames⟩
  unfold readSource readText readBytes
  rw [hstat]

end

variable [Host]

theorem Owns.indexFile (h : Owns disks root file ix) (e : Embedder) (persist : Bool) (hd : d ∈ disks)
    (hown : ∀ name, ix.relative d p = .ok name → Own disks ix name) :
    Owns disks root file (ix.indexFile e d p persist).index := by
  cases hn : ix.relative d p with
  | error fault => rwa [indexFile_of_error hn]
  | ok name => exact h.minds (indexFile_minds e hn (hown name hn d hd) persist) (hown name hn)

theorem Owns.indexFile_among (h : Owns disks root file ix) (e : Embedder) (hd : d ∈ disks)
    (hown : ∀ p ∈ files, ∀ name, ix.relative d p = .ok name → Own disks ix name) :
    ∀ ix', Owns disks root file ix' → ∀ p ∈ files, Owns disks root file (ix'.indexFile e d p false).index :=
  fun _ h' p hp => h'.indexFile e false hd (own_of_root hown (h'.root.trans h.root.symm) p hp)

theorem Owns.indexAll (h : Owns disks root file ix) (e : Embedder) (hd : d ∈ disks) (seen : List Text) (r : IndexReport)
    (hown : ∀ p ∈ files, ∀ name, ix.relative d p = .ok name → Own disks ix name) :
    (ix.indexAll e d seen r files).disk = d ∧ Owns disks root file (ix.indexAll e d seen r files).index :=
  indexAll_keeps (h.indexFile_among e hd hown) h seen r

theorem Owns.indexWorkspace (h : Owns disks root file ix) (e : Embedder) (hd : d ∈ disks)
    (hown : ∀ p ∈ sources d ix, ∀ name, ix.relative d p = .ok name → Own disks ix name) :
    Owns disks root file (ix.indexWorkspace e d).index := by
  refine indexWorkspace_keeps (h.indexFile_among e hd hown) ?_ h
  intro ix₁ howns₁ name hname ix' howns
  exact howns.removeFile false fun name' hn =>
    (howns₁.own name hname).of_relative (howns.root.trans howns₁.root.symm) hd hn

theorem Owns.visit {v : Visit} (h : Owns disks root file ix) (e : Embedder) (hr : ix.Rooted)
    (hu : ∀ d' ∈ disks, d'.Unlinked ix.root.parts) (hd : v.disk ∈ disks)
    (hs : ∀ path, v.call.path? = some path → Steady disks ix (Path.ofText path)) :
    Owns disks root file (ix.visit e v) := by
  obtain ⟨d, call⟩ := v
  have hown := hr.call_own hu hd hs
  cases call with
  | indexFile path persist => exact h.indexFile e persist hd (hown path rfl)
  | removeFile path persist => exact h.removeFile persist (hown path rfl)
  | indexWorkspace => exact h.indexWorkspace e hd (hr.sources_own hu hd)

/-- Whatever calls an index gets, and whatever they come to, the names in its store stay their own. -/
theorem Owns.after (h : Owns disks root file ix) (e : Embedder) (hr : ix.Rooted)
    (hu : ∀ d' ∈ disks, d'.Unlinked ix.root.parts) (hd : ∀ v ∈ visits, v.disk ∈ disks)
    (hs : ∀ v ∈ visits, ∀ path, v.call.path? = some path → Steady disks ix (Path.ofText path)) :
    Owns disks root file (ix.after e visits) := by
  refine after_keeps (I := Owns disks root file) ?_ h
  intro ix' howns v hv
  have hroot := howns.root.trans h.root.symm
  exact howns.visit e (hr.congr hroot) (hroot.symm ▸ hu) (hd v hv) fun path hpath => (hs v hv path hpath).congr hroot

/-- Bringing a file to what the disk has of it would change nothing. -/
def AtRest (d : Disk) (ix : SemanticIndex) (name : Text) : Prop :=
  match readSource d (ix.root.join (Path.ofText name)) with
  | .text source => ix.store.hash? name = some (hashText source) ∨ Unparsed .loop source
  | .unreadable => True
  | .missing => False
  | .refused _ => False

theorem AtRest.congr (h : AtRest d ix name) (hroot : ix'.root = ix.root)
    (hread : readSource d' (ix.root.join (Path.ofText name)) = readSource d (ix.root.join (Path.ofText name)))
    (hhash : ix'.store.hash? name = ix.store.hash? name) : AtRest d' ix' name := by
  unfold AtRest at h ⊢
  rwa [hroot, hread, hhash]

/-- A file that was indexed without a fault is at rest, and the files that were at rest stay so. -/
theorem Listed.indexFile_rest (h : Listed disks d ix p name) (hd : d ∈ disks) (outcome : IndexOutcome)
    (hrun : (ix.indexFile e d p false).result = .ok outcome) :
    outcome.path = name ∧ AtRest d (ix.indexFile e d p false).index name ∧
      ∀ other, AtRest d ix other → AtRest d (ix.indexFile e d p false).index other := by
  have hminds := indexFile_minds e h.named (h.own d hd) false
  have hself : outcome.path = name ∧ AtRest d (ix.indexFile e d p false).index name := by
    unfold AtRest
    rw [hminds.root]
    unfold SemanticIndex.indexFile at hrun ⊢
    simp only [h.named] at hrun ⊢
    cases hread : readSource d (ix.root.join (Path.ofText name)) with
    | missing => exact absurd hread h.there
    | unreadable =>
      rw [hread] at hrun
      cases hrun
      exact ⟨rfl, trivial⟩
    | refused fault =>
      rw [hread] at hrun
      cases hrun
    | text source =>
      rw [hread] at hrun
      obtain ⟨-, hrest⟩ := update_minds e ix name source
      dsimp only at hrun ⊢
      split at hrun
      · cases hrun
      · rename_i ix₁ outcome₁ hupdate
        rw [hupdate] at hrest
        obtain rfl := settle_ok hrun
        simp only [settle_index]
        exact hrest _ rfl
  refine ⟨hself.1, hself.2, fun other hother => ?_⟩
  by_cases he : other = name
  · exact he ▸ hself.2
  · exact hother.congr hminds.root rfl (hminds.hash other he)

/-- After a reconciliation the files of the scan are at rest and no other file has a digest. -/
theorem Owns.indexWorkspace_rest {report : IndexReport} (h : Owns disks root file ix) (hd : d ∈ disks)
    (hlisted : ∀ p ∈ sources d ix, ∃ name, Listed disks d ix p name)
    (hrun : (ix.indexWorkspace e d).result = .ok report) :
    (∀ p ∈ sources d ix, ∀ name, ix.relative d p = .ok name → AtRest d (ix.indexWorkspace e d).index name) ∧
    (∀ name, (ix.indexWorkspace e d).index.store.hash? name ≠ none → ∃ p ∈ sources d ix, ix.relative d p = .ok name) ∧
    (ix.indexWorkspace e d).index.store.save d file = ((ix.indexWorkspace e d).disk, .ok ()) := by
  obtain ⟨-, howns⟩ := h.indexAll e hd [] {} (own_of_listed hlisted)
  obtain ⟨hrest, hnames⟩ := indexWorkspace_listed (P := AtRest d) (C := fun _ => True) (G := fun _ => True)
    (fun _ _ _ => ⟨trivial, trivial⟩)
    (fun _ _ _ hl =>
      ⟨(indexFile_minds e hl.named (hl.own d hd) false).root, fun outcome ho _ => hl.indexFile_rest hd outcome ho⟩)
    (fun _ _ _ hr hhash hname => hname.congr hr rfl hhash) (fun _ _ _ _ => trivial) hd hlisted howns.own hrun trivial
  refine ⟨hrest, hnames, ?_⟩
  rcases indexWorkspace_own hd howns.own with ⟨fault, -, hfault⟩ | ⟨seen, r, ix₂, r₂, -, hw, -, -, hfile, -⟩
  · rw [hfault] at hrun
    cases hrun
  · rw [hw] at hrun ⊢
    rw [settle_index, ← howns.file, ← hfile]
    exact settle_saved hrun

/-- A reconciliation comes to an end if every file can be indexed and the store can be saved. -/
theorem Owns.indexWorkspace_ok (h : Owns disks root file ix) (hd : d ∈ disks)
    (hown : ∀ p ∈ sources d ix, ∀ name, ix.relative d p = .ok name → Own disks ix name)
    (hall : ∃ seen r, (ix.indexAll e d [] {} (sources d ix)).result = .ok (seen, r))
    (hsave : ∀ s : Store, (s.save d file).2 = .ok ()) : ∃ report, (ix.indexWorkspace e d).result = .ok report := by
  obtain ⟨-, howns⟩ := h.indexAll e hd [] {} hown
  rcases indexWorkspace_own hd howns.own with ⟨fault, hfault, -⟩ | ⟨seen, r, ix₂, r₂, -, hw, -, -, hfile, -⟩
  · obtain ⟨seen, r, hok⟩ := hall
    rw [hfault] at hok
    cases hok
  · refine ⟨r₂, ?_⟩
    have hsaved := hsave ix₂.store
    rw [hw]
    unfold settle
    rw [if_pos rfl, hfile, howns.file]
    split
    · rfl
    · rename_i hfault
      rw [hfault] at hsaved
      cases hsaved

/-- A file at rest is left as it is, without a call of the embedding service. -/
theorem AtRest.indexFile (h : AtRest d ix name) (e : Embedder) (hn : ix.relative d p = .ok name) :
    ∃ outcome, ix.indexFile e d p false = ⟨d, ix, .ok outcome⟩ ∧ outcome.path = name ∧ outcome.embedded = 0 ∧
      outcome.deleted = 0 := by
  unfold AtRest at h
  unfold SemanticIndex.indexFile
  rw [hn]
  dsimp only
  split at h
  · rename_i source hread
    rw [hread]
    dsimp only
    by_cases hknown : ix.store.hash? name = some (hashText source)
    · rw [update, if_pos hknown]
      exact ⟨_, rfl, rfl, rfl, rfl⟩
    · obtain ⟨fault, hfault, hcaught⟩ := h.resolve_left hknown
      rw [update, if_neg hknown, hfault]
      cases fault with
      | overNested reason => exact absurd rfl (hcaught reason)
      | malformed => exact ⟨_, rfl, rfl, rfl, rfl⟩
      | nulCharacter => exact ⟨_, rfl, rfl, rfl, rfl⟩
      | notEncodable => exact ⟨_, rfl, rfl, rfl, rfl⟩
  · rename_i hread
    rw [hread]
    exact ⟨_, rfl, rfl, rfl, rfl⟩
  · cases h
  · cases h

/-- Files at rest are passed over, and no text is sent for them. -/
theorem indexAll_idle (e : Embedder) (seen : List Text) (r : IndexReport)
    (hfiles : ∀ p ∈ files, ∃ name, ix.relative d p = .ok name ∧ AtRest d ix name) :
    ∃ seen' r', ix.indexAll e d seen r files = ⟨d, ix, .ok (seen', r')⟩ ∧ r'.embedded = r.embedded ∧
      r'.deleted = r.deleted ∧ seen ⊆ seen' ∧ ∀ p ∈ files, ∀ name, ix.relative d p = .ok name → name ∈ seen' := by
  induction files generalizing seen r with
  | nil => exact ⟨seen, r, rfl, rfl, rfl, List.Subset.refl _, by simp⟩
  | cons p rest ih =>
    rw [List.forall_mem_cons] at hfiles
    obtain ⟨⟨name, hn, hrest⟩, hfiles⟩ := hfiles
    obtain ⟨outcome, hstep, hpath, hembedded, hdeleted⟩ := hrest.indexFile e hn
    obtain ⟨seen', r', hrun, hembedded', hdeleted', hseen, hall⟩ := ih (seen ++ [outcome.path]) (r.add outcome) hfiles
    obtain ⟨hbefore, hnow⟩ := List.append_subset.mp hseen
    refine ⟨seen', r', ?_, ?_, ?_, hbefore, ?_⟩
    · unfold indexAll
      rw [hstep]
      exact hrun
    · simp only [hembedded', IndexReport.add, hembedded, Nat.add_zero]
    · simp only [hdeleted', IndexReport.add, hdeleted, Nat.add_zero]
    · rw [List.forall_mem_cons]
      refine ⟨fun name' hn' => ?_, hall⟩
      rw [hn] at hn'
      cases hn'
      exact hpath ▸ hnow List.mem_cons_self

/-- Where every file is at rest and no other file has a digest, a reconciliation saves the store as it is. -/
theorem indexWorkspace_idle (e : Embedder)
    (hfiles : ∀ p ∈ sources d ix, ∃ name, ix.relative d p = .ok name ∧ AtRest d ix name)
    (hnames : ∀ name, ix.store.hash? name ≠ none → ∃ p ∈ sources d ix, ix.relative d p = .ok name)
    (hsave : ix.store.save d ix.file = (d', .ok ())) :
    ∃ report, ix.indexWorkspace e d = ⟨d', ix, .ok report⟩ ∧ report.embedded = 0 ∧ report.deleted = 0 := by
  obtain ⟨seen, r, hrun, hembedded, hdeleted, -, hseen⟩ := indexAll_idle e [] {} hfiles
  have hstale : ix.stale seen = [] := by
    refine List.eq_nil_iff_forall_not_mem.mpr fun name hm => ?_
    obtain ⟨hn, hunseen⟩ := mem_stale.mp hm
    obtain ⟨p, hp, hname⟩ := hnames name hn
    exact hunseen (hseen p hp name hname)
  refine ⟨r, ?_, hembedded, hdeleted⟩
  unfold indexWorkspace
  dsimp only
  rw [← sources, hrun]
  dsimp only
  simp only [hstale, removeAll, settle, ↓reduceIte, hsave]

/-- What is assumed of an index, of the calls that it got, and of the disk that it is brought to: no link stands in
the workspace on any of the disks, nor where the store is written. -/
structure Visited (ix : SemanticIndex) (visits : List Visit) (d : Disk) (dir : Path) : Prop where
  empty : ix.store = {}
  resolved : ∃ d₀ given, resolve d₀ (Path.ofText given) = .ok ix.root
  unlinked : ∀ d' ∈ disksOf visits d, d'.Unlinked ix.root.parts
  steady : ∀ v ∈ visits, ∀ path, v.call.path? = some path → Steady (disksOf visits d) ix (Path.ofText path)
  tidy : d.Tidy
  written : dir.Written
  file : ix.file = dir.child Store.fileName
  notLinked : (d.ensureDirectories dir).1.NotLinked (dir.child Store.fileName)

theorem Visited.owns {dir : Path} (h : Visited ix visits d dir) (e : Embedder) :
    ix.Rooted ∧ Owns (disksOf visits d) ix.root ix.file (ix.after e visits) := by
  obtain ⟨d₀, given, hresolved⟩ := h.resolved
  have hrooted := rooted_of_resolve hresolved
  have hstart : Owns (disksOf visits d) ix.root ix.file ix := by
    refine ⟨rfl, rfl, fun name hn => ?_⟩
    rw [h.empty] at hn
    exact absurd rfl hn
  exact ⟨hrooted,
    hstart.after e hrooted h.unlinked (fun v hv => List.mem_append_left _ (List.mem_map_of_mem hv)) h.steady⟩

/-- After any calls on any disks, and whatever the embedding service answered to them: when a reconciliation comes to
an end, the next one with the disk that it left asks for no vectors, embeds and deletes nothing, and leaves the index
and the disk as they are. -/
theorem reconciled_idle {dir : Path} {report : IndexReport} (h : Visited ix visits d dir) (e e' : Embedder)
    (hrun : ((ix.after e visits).indexWorkspace e d).result = .ok report) :
    ∃ again, ((ix.after e visits).indexWorkspace e d).index.indexWorkspace e'
        ((ix.after e visits).indexWorkspace e d).disk =
        ⟨((ix.after e visits).indexWorkspace e d).disk, ((ix.after e visits).indexWorkspace e d).index, .ok again⟩ ∧
      again.embedded = 0 ∧ again.deleted = 0 := by
  have hd := mem_disksOf visits d
  obtain ⟨hrooted, howns⟩ := h.owns e
  generalize ix.after e visits = before at howns hrun ⊢
  have hrooted₁ := hrooted.congr howns.root
  have hunlinked := howns.root.symm ▸ h.unlinked
  have hlisted : ∀ p ∈ sources d before, ∃ name, Listed (disksOf visits d) d before p name ∧
      before.root.join (Path.ofText name) = p := fun p hp => hrooted₁.listed hunlinked hd hp
  obtain ⟨hrest, hnames, hsave⟩ := howns.indexWorkspace_rest hd (fun p hp => (hlisted p hp).imp fun _ hl => hl.1) hrun
  have howns₁ := howns.indexWorkspace e hd (hrooted₁.sources_own hunlinked hd)
  generalize before.indexWorkspace e d = first at *
  have hroot : first.index.root = before.root := howns₁.root.trans howns.root.symm
  rw [h.file] at hsave
  have hcalm : Calm d first.disk before.root.parts :=
    calm_of_save (hunlinked d hd) h.tidy h.written h.notLinked hsave
  obtain ⟨-, -, -, -, hagain⟩ := Store.save_grows hsave h.notLinked
  refine indexWorkspace_idle e' (fun p hp => ?_) (fun name hn => ?_) (howns₁.file.trans h.file ▸ hagain)
  · rw [sources_congr hroot, hcalm.mem_sources hrooted₁] at hp
    obtain ⟨name, hl, hjoin⟩ := hlisted p hp
    obtain ⟨hread, hrelative⟩ := hcalm.read hrooted₁ hp
    refine ⟨name, ?_, (hrest p hp name hl.named).congr rfl ?_ rfl⟩
    · rw [relative_congr hroot, hrelative]
      exact hl.named
    · rw [hroot, hjoin, hread]
  · obtain ⟨p, hp, hname⟩ := hnames name hn
    obtain ⟨-, hrelative⟩ := hcalm.read hrooted₁ hp
    refine ⟨p, ?_, ?_⟩
    · rw [sources_congr hroot, hcalm.mem_sources hrooted₁]
      exact hp
    · rw [relative_congr hroot, hrelative]
      exact hname

end

attribute [local instance] Host.usual

def rootIndex : SemanticIndex := { root := ⟨"/", ["w"]⟩, file := ⟨"/", ["chunks.json"]⟩ }

def oldVisits : List Visit := [⟨oneModule "a", .indexFile "a.py" false⟩]

def brokenDisk : Disk := oneModule "("

theorem brokenDisk_housed : Store.Housed brokenDisk ⟨"/", []⟩ Store.fileName [] := by
  have htemporary : Store.temporaryPath brokenDisk ⟨"/", []⟩ = ⟨"/", [".chunks-0.tmp"]⟩ := by cbv
  have hnone : brokenDisk.lookup? [Store.fileName] = none := by cbv
  refine ⟨⟨by cbv, by cbv⟩, Store.fileName_ne_up, Store.temporaryName_ne_fileName, ?_, ?_, ?_,
    ⟨by cbv, by cbv, by decide⟩⟩
  · simp [hnone]
  · simp [hnone]
  · rw [htemporary]
    exact ⟨by cbv, by cbv, by decide⟩

/-- What the index was called for before the file broke. -/
theorem broken_visited : Visited rootIndex oldVisits brokenDisk ⟨"/", []⟩ where
  empty := rfl
  resolved := ⟨brokenDisk, "/w", by cbv⟩
  unlinked := by
    intro d' hd'
    rcases List.mem_cons.mp hd' with rfl | hd'
    · exact oneModule_unlinked "a"
    · exact List.mem_singleton.mp hd' ▸ oneModule_unlinked "("
  steady := by
    intro v hv path hpath
    refine steady_of_linkless (fun d' hd' => ?_) _
    rcases List.mem_cons.mp hd' with rfl | hd'
    · exact oneModule_linkless "a"
    · exact List.mem_singleton.mp hd' ▸ oneModule_linkless "("
  tidy := ⟨by decide, by decide, by decide⟩
  written := ⟨Or.inr (Or.inl rfl), by simp⟩
  file := rfl
  notLinked := by
    rw [brokenDisk_housed.leads.ensureDirectories]
    exact fun x _ => oneModule_linkless "(" x

/-- The first pass over the broken file comes to a report. -/
theorem broken_reconciled :
    ∃ report, ((rootIndex.after blank oldVisits).indexWorkspace blank brokenDisk).result = .ok report := by
  obtain ⟨hrooted, howns⟩ := broken_visited.owns blank
  have hsources : sources brokenDisk (rootIndex.after blank oldVisits) = [⟨"/", ["w", "a.py"]⟩] := by
    rw [sources_congr howns.root]
    cbv
  have hall :
      ((rootIndex.after blank oldVisits).indexAll blank brokenDisk [] {} [⟨"/", ["w", "a.py"]⟩]).result.isOk := by
    decide +kernel
  have hd := mem_disksOf oldVisits brokenDisk
  have hown := (hrooted.congr howns.root).sources_own (howns.root.symm ▸ broken_visited.unlinked) hd
  refine howns.indexWorkspace_ok hd hown ?_ fun s => ?_
  · rw [hsources]
    cases hrun :
        ((rootIndex.after blank oldVisits).indexAll blank brokenDisk [] {} [⟨"/", ["w", "a.py"]⟩]).result with
    | error fault =>
      rw [hrun] at hall
      cases hall
    | ok found => exact ⟨found.1, found.2, rfl⟩
  · obtain ⟨bytes, -, hsave⟩ := brokenDisk_housed.save s
    exact congrArg Prod.snd hsave

/-- The record of the earlier text is kept while the module cannot be parsed. -/
theorem broken_reconciled_idle :
    (rootIndex.after blank oldVisits).store.size = 1 ∧
    ∃ report, ((rootIndex.after blank oldVisits).indexWorkspace blank brokenDisk).result = .ok report ∧
      Visited rootIndex oldVisits brokenDisk ⟨"/", []⟩ ∧
      ∃ again, ((rootIndex.after blank oldVisits).indexWorkspace blank brokenDisk).index.indexWorkspace blank
          ((rootIndex.after blank oldVisits).indexWorkspace blank brokenDisk).disk =
          ⟨((rootIndex.after blank oldVisits).indexWorkspace blank brokenDisk).disk,
            ((rootIndex.after blank oldVisits).indexWorkspace blank brokenDisk).index, .ok again⟩ ∧
        again.embedded = 0 ∧ again.deleted = 0 := by
  obtain ⟨report, hrun⟩ := broken_reconciled
  exact ⟨by decide +kernel, report, hrun, broken_visited, reconciled_idle broken_visited blank blank hrun⟩

end SemanticIndex

end CodeAgent
