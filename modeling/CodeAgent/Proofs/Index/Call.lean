import CodeAgent.Index.History
import CodeAgent.Proofs.Index.Name
import CodeAgent.Proofs.Index.Update

namespace CodeAgent.SemanticIndex

open Source Disk

variable {f : Text → Vector64} {e : Embedder} {disks : List Disk} {ix ix' : SemanticIndex} {d : Disk}

variable {name source : Text} {p : Path} {persist : Bool} {met : Text → Text → Prop}

theorem embed_spec (hc : Computes e f) (ix : SemanticIndex) (texts : List Text) :
    (ix.embed e texts).1.root = ix.root ∧ (ix.embed e texts).1.store = ix.store ∧
    ∀ vectors, (ix.embed e texts).2 = .ok vectors → vectors = texts.map f := by
  unfold embed
  split
  · rename_i hempty
    obtain rfl := List.isEmpty_iff.mp hempty
    refine ⟨rfl, rfl, ?_⟩
    intro vectors hv
    cases hv
    rfl
  · exact ⟨rfl, rfl, hc ix.asked texts⟩

theorem settle_index {α : Type} (outcome : α) : (ix.settle d persist outcome).index = ix := by
  unfold settle
  split
  · split <;> rfl
  · rfl

theorem settle_ok {α : Type} {outcome outcome' : α} (h : (ix.settle d persist outcome).result = .ok outcome') :
    outcome' = outcome := by
  unfold settle at h
  split at h
  · split at h
    · cases h
      rfl
    · cases h
  · cases h
    rfl

def Met (disks : List Disk) (root : Path) (name source : Text) : Prop :=
  ∃ d ∈ disks, d.readText (root.join (Path.ofText name)) = .ok source

theorem met_unified (disks : List Disk) (root : Path) : Unified (Met disks root) := by
  rintro name source ⟨d, -, hr⟩
  exact readText_no_return hr

def Own (disks : List Disk) (ix : SemanticIndex) (name : Text) : Prop :=
  ∀ d ∈ disks, ix.relative d (Path.ofText name) = .ok name

theorem relative_congr (h : ix'.root = ix.root) (d : Disk) (p : Path) :
    ix'.relative d p = ix.relative d p := by
  unfold relative
  rw [h]

theorem Own.congr (h : Own disks ix name) (hr : ix'.root = ix.root) : Own disks ix' name := by
  intro d hd
  rw [relative_congr hr]
  exact h d hd

theorem removeNamed_spec :
    (ix.removeNamed d name persist).index.root = ix.root ∧
    (ix.removeNamed d name persist).index.store = forgotten ix.store name := by
  unfold removeNamed
  dsimp only
  rw [settle_index]
  exact ⟨rfl, rfl⟩

theorem removeFile_spec (persist : Bool) (hn : ix.relative d p = .ok name) :
    (ix.removeFile d p persist).index.root = ix.root ∧
    (ix.removeFile d p persist).index.store = forgotten ix.store name := by
  unfold removeFile
  rw [hn]
  exact removeNamed_spec

theorem removeFile_of_error {fault : DiskFault} (hn : ix.relative d p = .error fault) :
    ix.removeFile d p persist = ⟨d, ix, .error (.disk fault)⟩ := by
  unfold removeFile
  rw [hn]

theorem removeFile_disk : (ix.removeFile d p false).disk = d := by
  unfold removeFile
  split <;> rfl

variable [Host]

/-- Without an error the digest in the store is that of the text afterwards. -/
theorem update_spec (hc : Computes e f) (ix : SemanticIndex) (hm : met name source) :
    (ix.update e name source).1.root = ix.root ∧
    Change f met name ix.store (ix.update e name source).1.store ∧
    ∀ outcome, (ix.update e name source).2 = .ok outcome → outcome.path = name ∧
      (outcome.status ≠ .error →
        (ix.update e name source).1.store.hash? name = some (hashText source)) := by
  unfold update
  dsimp only
  split
  · rename_i hknown
    refine ⟨rfl, .same, ?_⟩
    intro outcome ho
    cases ho
    exact ⟨rfl, fun _ => hknown⟩
  · split
    · refine ⟨rfl, .same, ?_⟩
      intro outcome ho
      cases ho
    · refine ⟨rfl, .same, ?_⟩
      intro outcome ho
      cases ho
      exact ⟨rfl, fun hne => absurd rfl hne⟩
    · rename_i file hp
      have hembed := embed_spec hc ix
        ((freshChunks (ix.store.recordsFor name) (chunks name source file)).map (·.text))
      split
      · rename_i ix₁ fault he
        rw [he] at hembed
        obtain ⟨hroot, hstore, -⟩ := hembed
        refine ⟨hroot, hstore.symm ▸ .same, ?_⟩
        intro outcome ho
        cases ho
      · rename_i ix₁ vectors he
        rw [he] at hembed
        obtain ⟨hroot, hstore, hvectors⟩ := hembed
        have hv := hvectors vectors rfl
        rw [List.map_map] at hv
        subst hv
        have hreplaced : replaceChunks ix₁.store name source
            (freshChunks (ix.store.recordsFor name) (chunks name source file))
            ((freshChunks (ix.store.recordsFor name) (chunks name source file)).map (f ∘ (·.text)))
            (vanishedIds (ix.store.recordsFor name) (chunks name source file)) =
            replaced f ix.store name source (chunks name source file) := by
          rw [hstore]
          rfl
        dsimp only
        rw [hreplaced]
        refine ⟨hroot, .replaced source file hm hp, ?_⟩
        intro outcome ho
        cases ho
        exact ⟨rfl, fun _ => by rw [hash?_replaced, if_pos rfl]⟩

/-- The digest in the store is that of the text on the disk. -/
def Current (d : Disk) (ix : SemanticIndex) (name : Text) : Prop :=
  ∃ source, d.readText (ix.root.join (Path.ofText name)) = .ok source ∧
    ix.store.hash? name = some (hashText source)

/-- Without an error, and unless the file is gone, the file is current afterwards. -/
theorem indexFile_spec (persist : Bool) (hc : Computes e f) (hd : d ∈ disks) (hn : ix.relative d p = .ok name)
    (hown : Own disks ix name) :
    (ix.indexFile e d p persist).index.root = ix.root ∧
    Change f (Met disks ix.root) name ix.store (ix.indexFile e d p persist).index.store ∧
    (readSource d (ix.root.join (Path.ofText name)) ≠ .missing →
      ∀ outcome, (ix.indexFile e d p persist).result = .ok outcome → outcome.path = name ∧
        (outcome.status ≠ .error → Current d (ix.indexFile e d p persist).index name)) := by
  unfold indexFile
  rw [hn]
  dsimp only
  split
  · obtain ⟨hroot, hstore⟩ := removeFile_spec persist (hown d hd)
    rename_i hmissing
    exact ⟨hroot, hstore.symm ▸ .forgotten, fun hne => absurd hmissing hne⟩
  · refine ⟨rfl, .same, fun _ outcome ho => ?_⟩
    cases ho
    exact ⟨rfl, fun hne => absurd rfl hne⟩
  · refine ⟨rfl, .same, fun _ outcome ho => ?_⟩
    cases ho
  · rename_i source hread
    have htext := readText_of_readSource hread
    have hmet : Met disks ix.root name source := ⟨d, hd, htext⟩
    have hupdate := update_spec hc ix hmet
    split
    · rename_i ix₁ fault hu
      rw [hu] at hupdate
      obtain ⟨hroot, hchange, -⟩ := hupdate
      refine ⟨hroot, hchange, fun _ outcome ho => ?_⟩
      cases ho
    · rename_i ix₁ outcome₁ hu
      rw [hu] at hupdate
      obtain ⟨hroot, hchange, hok⟩ := hupdate
      rw [settle_index]
      refine ⟨hroot, hchange, fun _ outcome ho => ?_⟩
      obtain rfl := settle_ok ho
      obtain ⟨hpath, hhash⟩ := hok _ rfl
      refine ⟨hpath, fun hne => ⟨source, ?_, hhash hne⟩⟩
      rw [hroot]
      exact htext

theorem indexFile_of_error {fault : DiskFault} (hn : ix.relative d p = .error fault) :
    ix.indexFile e d p persist = ⟨d, ix, .error (.disk fault)⟩ := by
  unfold indexFile
  rw [hn]

/-- What is not saved does not touch the disk. -/
theorem indexFile_disk (e : Embedder) (ix : SemanticIndex) (d : Disk) (p : Path) :
    (ix.indexFile e d p false).disk = d := by
  unfold indexFile
  split
  · rfl
  · split
    · exact removeFile_disk
    · rfl
    · rfl
    · split <;> rfl

/-- What holds of an index after every call: the store is faithful, and its names are their own. -/
structure Tracks (f : Text → Vector64) (disks : List Disk) (ix : SemanticIndex) : Prop where
  faithful : Faithful f (Met disks ix.root) ix.store
  own : ∀ name, ix.store.hash? name ≠ none → Own disks ix name

theorem tracks_empty (h : ix.store = {}) : Tracks f disks ix := by
  constructor
  · rw [h]
    exact faithful_empty f _
  · intro name hn
    rw [h] at hn
    exact absurd rfl hn

theorem Tracks.change (h : Tracks f disks ix) (hr : ix'.root = ix.root) (hown : Own disks ix name)
    (hc : Change f (Met disks ix.root) name ix.store ix'.store) : Tracks f disks ix' := by
  constructor
  · rw [hr]
    exact hc.faithful (met_unified disks ix.root) h.faithful
  · intro name' hn
    by_cases he : name' = name
    · exact he ▸ hown.congr hr
    · rw [hc.hash?_of_ne he] at hn
      exact (h.own name' hn).congr hr

theorem Tracks.indexFile (h : Tracks f disks ix) (persist : Bool) (hc : Computes e f) (hd : d ∈ disks)
    (hown : ∀ name, ix.relative d p = .ok name → Own disks ix name) :
    (ix.indexFile e d p persist).index.root = ix.root ∧
    Tracks f disks (ix.indexFile e d p persist).index := by
  cases hn : ix.relative d p with
  | error fault =>
    rw [indexFile_of_error hn]
    exact ⟨rfl, h⟩
  | ok name =>
    obtain ⟨hroot, hchange, -⟩ := indexFile_spec persist hc hd hn (hown name hn)
    exact ⟨hroot, h.change hroot (hown name hn) hchange⟩

theorem Tracks.removeFile (h : Tracks f disks ix) (persist : Bool)
    (hown : ∀ name, ix.relative d p = .ok name → Own disks ix name) :
    (ix.removeFile d p persist).index.root = ix.root ∧
    Tracks f disks (ix.removeFile d p persist).index := by
  cases hn : ix.relative d p with
  | error fault =>
    rw [removeFile_of_error hn]
    exact ⟨rfl, h⟩
  | ok name =>
    obtain ⟨hroot, hstore⟩ := removeFile_spec persist hn
    exact ⟨hroot, h.change hroot (hown name hn) (hstore.symm ▸ .forgotten)⟩

end CodeAgent.SemanticIndex
