import CodeAgent.Proofs.Index.Reconcile
import CodeAgent.Proofs.Json.Printer
import CodeAgent.Proofs.Store.Save

namespace CodeAgent

/-- Whether a store can be saved does not depend on what it holds. -/
theorem Store.save_ok (s : Store) {d d₁ d₂ : Disk} {file temporary : Path} {place : Place} {P : Disk → Prop}
    (hdirectories : d.ensureDirectories file.parent = (d₁, .ok ()))
    (htemporary : temporaryPath d₁ file.parent = temporary)
    (hopen : d₁.openForWriting temporary = .ok (place, d₂))
    (hrename : ∀ bytes, ∃ d₃, (d₂.put place (.file bytes)).rename temporary file = .ok d₃ ∧ P d₃) :
    (s.save d file).2 = .ok () ∧ P (s.save d file).1 := by
  obtain ⟨bytes, hbytes⟩ := (Json.isPrintable_write s.toJson).encode
  obtain ⟨d₃, hmoved, hsaved⟩ := hrename bytes
  rw [save_eq, hdirectories]
  dsimp only
  rw [htemporary, Disk.writeText, hopen]
  dsimp only
  rw [hbytes]
  dsimp only
  rw [hmoved]
  exact ⟨rfl, hsaved⟩

namespace SemanticIndex

open Source Disk

/-- A version of a file: its name in the store, its text, and the statements of it. -/
structure Version where
  name : Text
  source : Text
  file : List Stmt

variable {f : Text → Vector64} {e : Embedder} {disks : List Disk} {ix : SemanticIndex} {d : Disk}

variable {name source : Text} {file : List Stmt} {p : Path} {v : Version}

variable {seen names : List Text} {r : IndexReport} {files : List Path} {vs : List Version}

/-- An embedding service that gives each text its own vector and always answers. -/
def Answers (e : Embedder) (f : Text → Vector64) : Prop := ∀ asked texts, e asked texts = .ok (texts.map f)

theorem Answers.computes (h : Answers e f) : Computes e f := by
  intro asked texts vectors hv
  rw [h] at hv
  cases hv
  rfl

def brought (f : Text → Vector64) (s : Store) (name source : Text) (file : List Stmt) : Store :=
  if s.hash? name = some (hashText source) then s else replaced f s name source (chunks name source file)

def Version.bring (f : Text → Vector64) (s : Store) (v : Version) : Store := brought f s v.name v.source v.file

def reconciled (f : Text → Vector64) (s : Store) (vs : List Version) : Store :=
  let s := vs.foldl (Version.bring f) s
  ((s.fileHashes.keys.filter (· ∉ vs.map (·.name))).mergeSort Text.ble).foldl forgotten s

theorem mem_forgotten_all {s : Store} (h : s.Distinct) (names : List Text) {r : StoredChunk} :
    r ∈ (names.foldl forgotten s).records ↔ r ∈ s.records ∧ r.chunk.path ∉ names := by
  induction names generalizing s with
  | nil => simp
  | cons name rest ih =>
    rw [List.foldl_cons, ih (distinct_forgotten h name), mem_forgotten h, List.mem_cons, not_or, and_assoc]

theorem distinct_brought {s : Store} (h : s.Distinct) (vs : List Version) :
    (vs.foldl (Version.bring f) s).Distinct := by
  induction vs generalizing s with
  | nil => exact h
  | cons v rest ih =>
    refine ih ?_
    unfold Version.bring brought
    split
    · exact h
    · exact distinct_replaced h

/-- What was brought stays. -/
theorem mem_reconciled {s : Store} (h : s.Distinct) {r : StoredChunk}
    (hr : r ∈ (vs.foldl (Version.bring f) s).records) (hp : r.chunk.path ∈ vs.map (·.name)) :
    r ∈ (reconciled f s vs).records := by
  refine (mem_forgotten_all (distinct_brought h vs) _).mpr ⟨hr, fun hm => ?_⟩
  rw [List.mem_mergeSort, List.mem_filter, decide_eq_true_eq] at hm
  exact hm.2 hp

variable [Host]

/-- With a service that answers, an update succeeds. -/
theorem update_answers (ha : Answers e f) (ix : SemanticIndex) (name : Text) (hp : parse .loop source = .ok file) :
    ∃ outcome, (ix.update e name source).2 = .ok outcome ∧ outcome.path = name ∧ outcome.status ≠ .error ∧
      (ix.update e name source).1.root = ix.root ∧ (ix.update e name source).1.file = ix.file ∧
      (ix.update e name source).1.store = brought f ix.store name source file := by
  unfold update brought
  dsimp only
  split
  · exact ⟨_, rfl, rfl, by simp, rfl, rfl, rfl⟩
  · rw [hp]
    dsimp only
    have hembed : ∃ asked, ix.embed e ((freshChunks (ix.store.recordsFor name) (chunks name source file)).map
        (·.text)) = ({ ix with asked }, .ok
          ((freshChunks (ix.store.recordsFor name) (chunks name source file)).map fun c => f c.text)) := by
      unfold embed
      split
      · rename_i hempty
        rw [List.isEmpty_iff, List.map_eq_nil_iff] at hempty
        rw [hempty]
        exact ⟨ix.asked, rfl⟩
      · rw [ha, List.map_map]
        exact ⟨_, rfl⟩
    obtain ⟨asked, hembed⟩ := hembed
    rw [hembed]
    exact ⟨_, rfl, rfl, by simp, rfl, rfl, rfl⟩

/-- The version of a file that stands on a disk. -/
structure Version.Stands (d : Disk) (ix : SemanticIndex) (p : Path) (v : Version) : Prop where
  named : ix.relative d p = .ok v.name
  read : readSource d (ix.root.join (Path.ofText v.name)) = .text v.source
  parsed : parse .loop v.source = .ok v.file

/-- With a service that answers, the file is indexed as it stands. -/
theorem indexFile_answers (ha : Answers e f) (hv : v.Stands d ix p) :
    ∃ ix' outcome, ix.indexFile e d p false = ⟨d, ix', .ok outcome⟩ ∧ outcome.path = v.name ∧
      outcome.status ≠ .error ∧ ix'.root = ix.root ∧ ix'.file = ix.file ∧ ix'.store = v.bring f ix.store := by
  obtain ⟨outcome, hok, hpath, hstatus, hroot, hfile, hstore⟩ :=
    update_answers ha ix v.name hv.parsed
  refine ⟨_, outcome, ?_, hpath, hstatus, hroot, hfile, hstore⟩
  unfold indexFile
  rw [hv.named]
  dsimp only
  rw [hv.read]
  dsimp only
  split
  · rename_i he
    rw [he] at hok
    cases hok
  · rename_i he
    rw [he] at hok
    cases hok
    rw [he]
    rfl

theorem Version.Stands.congr {ix' : SemanticIndex} (h : v.Stands d ix p) (hr : ix'.root = ix.root) :
    v.Stands d ix' p :=
  ⟨(relative_congr hr d p).trans h.named, hr ▸ h.read, h.parsed⟩

/-- With a service that answers, every file is brought into the store in turn. -/
theorem indexAll_answers (ha : Answers e f) (seen : List Text) (r : IndexReport)
    (hvs : List.Forall₂ (fun p v => v.Stands d ix p) files vs) :
    ∃ ix' r', ix.indexAll e d seen r files = ⟨d, ix', .ok (seen ++ vs.map (·.name), r')⟩ ∧
      r'.errors = r.errors ∧ ix'.root = ix.root ∧ ix'.file = ix.file ∧
      ix'.store = vs.foldl (Version.bring f) ix.store := by
  induction files generalizing ix seen r vs with
  | nil =>
    cases hvs
    exact ⟨ix, r, by simp [indexAll], rfl, rfl, rfl, rfl⟩
  | cons p rest ih =>
    cases hvs with
    | @cons _ v _ vs hv hrest =>
      obtain ⟨ix₁, outcome, hstep, hpath, hstatus, hroot, hfile, hstore⟩ := indexFile_answers ha hv
      have hnext : List.Forall₂ (fun p v => v.Stands d ix₁ p) rest vs :=
        hrest.imp fun _ _ h => h.congr hroot
      obtain ⟨ix', r', hrun, herr, hroot', hfile', hstore'⟩ :=
        ih (seen ++ [outcome.path]) (r.add outcome) hnext
      refine ⟨ix', r', ?_, ?_, hroot'.trans hroot, hfile'.trans hfile, ?_⟩
      · unfold indexAll
        rw [hstep]
        dsimp only
        rw [hrun, hpath, List.map_cons, List.append_assoc]
        rfl
      · rw [herr, IndexReport.add, if_neg hstatus, List.append_nil]
      · rw [hstore', hstore, List.foldl_cons]

/-- A reconciliation that every source file and the disk allow succeeds without errors. -/
theorem indexWorkspace_answers (ha : Answers e f) (h : Tracks f disks ix) (hd : d ∈ disks)
    (hown : ∀ p ∈ sources d ix, ∀ name, ix.relative d p = .ok name → Own disks ix name)
    (hvs : List.Forall₂ (fun p v => v.Stands d ix p) (sources d ix) vs)
    (hsave : ((reconciled f ix.store vs).save d ix.file).2 = .ok ()) :
    (∃ report, (ix.indexWorkspace e d).result = .ok report ∧ report.errors = []) ∧
    (ix.indexWorkspace e d).index.store = reconciled f ix.store vs := by
  obtain ⟨ix₁, r₁, hall, herr₁, hroot₁, hfile₁, hstore₁⟩ := indexAll_answers ha [] {} hvs
  obtain ⟨-, -, htracks⟩ := indexAll_tracks [] {} ha.computes hd h hown
  rw [hall] at htracks
  have hstale : ∀ name ∈ ix₁.stale (vs.map (·.name)), ix₁.relative d (Path.ofText name) = .ok name :=
    fun name hm => htracks.own name (mem_stale.mp hm).1 d hd
  obtain ⟨ix₂, r₂, hremove, herr₂, -, hfile₂, hstore₂⟩ := removeAll_eq r₁ hstale
  have hstore : ix₂.store = reconciled f ix.store vs := by
    rw [hstore₂, stale, hstore₁]
    rfl
  have hrun : ix.indexWorkspace e d = ix₂.settle d true r₂ := by
    rcases indexWorkspace_cases e d ix with ⟨d', ix', fault, hall', -⟩ | ⟨d', ix', seen, r', hall', hthen⟩
    · rw [hall] at hall'
      cases hall'
    · rw [hall] at hall'
      cases hall'
      exact hthen ix₂ r₂ hremove
  rw [hrun, settle_index]
  refine ⟨⟨r₂, ?_, herr₂.trans herr₁⟩, hstore⟩
  rw [← hstore, ← hfile₁, ← hfile₂] at hsave
  unfold settle
  rw [if_pos rfl]
  split
  · rfl
  · rename_i hfault
    rw [hfault] at hsave
    cases hsave

end SemanticIndex

end CodeAgent
