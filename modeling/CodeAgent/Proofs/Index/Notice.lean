import CodeAgent.Proofs.Index.Call
import CodeAgent.Proofs.Store.Save

namespace CodeAgent.SemanticIndex

open Source Disk

variable {e : Embedder} {ix ix' : SemanticIndex} {d : Disk} {s : Store} {p : Path}

variable {name other source : Text} {cs : List Chunk} {vectors : List Vector64} {ids : List Text}

def Willing (e : Embedder) : Prop := ∀ asked texts, ∃ vectors, e asked texts = .ok vectors

/-- Nothing of a file is in the store. -/
structure Lacks (ix : SemanticIndex) (name : Text) : Prop where
  hash : ix.store.hash? name = none
  records : ix.store.recordsFor name = []

/-- At most what the store holds of one file has changed: the digests of the others are the same, and they have no
new records. -/
structure Minds (name : Text) (ix ix' : SemanticIndex) : Prop where
  root : ix'.root = ix.root
  file : ix'.file = ix.file
  hash : ∀ other, other ≠ name → ix'.store.hash? other = ix.store.hash? other
  records : ∀ other, other ≠ name → ix'.store.recordsFor other ⊆ ix.store.recordsFor other

theorem Minds.refl (name : Text) (ix : SemanticIndex) : Minds name ix ix :=
  ⟨rfl, rfl, fun _ _ => rfl, fun _ _ => List.Subset.refl _⟩

theorem Minds.lacks (h : Minds name ix ix') (hne : other ≠ name) (hl : ix.Lacks other) : ix'.Lacks other where
  hash := (h.hash other hne).trans hl.hash
  records := List.subset_nil.mp (hl.records ▸ h.records other hne)

theorem mem_replaceChunks {r : StoredChunk} (h : r ∈ (replaceChunks s name source cs vectors ids).records) :
    r.chunk ∈ cs ∨ r ∈ s.records := by
  rcases Store.mem_of_mem_upsert (Store.mem_delete.mp h).1 with hr | hr
  · obtain ⟨⟨c, v⟩, hm, rfl⟩ := List.mem_map.mp hr
    exact Or.inl (List.of_mem_zip hm).1
  · exact Or.inr hr

theorem mem_of_mem_forgotten {r : StoredChunk} (h : r ∈ (forgotten s name).records) :
    r ∈ s.records ∧ r.chunk.path ≠ name := by
  obtain ⟨hr, hid⟩ := Store.mem_delete.mp h
  refine ⟨hr, fun hp => hid ?_⟩
  exact List.mem_map.mpr ⟨r, Store.mem_recordsFor.mpr ⟨hr, hp⟩, rfl⟩

theorem forget_minds (ix : SemanticIndex) (name : Text) : Minds name ix (ix.forget name).1 := by
  refine ⟨rfl, rfl, fun other hne => ?_, fun other hne r hr => ?_⟩
  · exact (hash?_forgotten other).trans (if_neg hne)
  · obtain ⟨hr, hp⟩ := Store.mem_recordsFor.mp hr
    exact Store.mem_recordsFor.mpr ⟨(mem_of_mem_forgotten hr).1, hp⟩

theorem forget_lacks (ix : SemanticIndex) (name : Text) : (ix.forget name).1.Lacks name := by
  refine ⟨(hash?_forgotten name).trans (if_pos rfl), List.eq_nil_iff_forall_not_mem.mpr fun r hr => ?_⟩
  obtain ⟨hr, hp⟩ := Store.mem_recordsFor.mp hr
  exact (mem_of_mem_forgotten hr).2 hp

theorem replaceChunks_minds {file : List Stmt} {fresh : List Chunk} (asked : List (List Text))
    (hf : fresh ⊆ chunks name source file) (vectors : List Vector64) (ids : List Text) :
    Minds name ix { ix with asked, store := replaceChunks ix.store name source fresh vectors ids } := by
  refine ⟨rfl, rfl, fun other hne => ?_, fun other hne r hr => ?_⟩
  · exact (hash?_replaceChunks other).trans (if_neg hne)
  · obtain ⟨hnew, hpath⟩ := Store.mem_recordsFor.mp hr
    rcases mem_replaceChunks hnew with hc | hold
    · exact absurd (hpath.symm.trans (path_of_mem_chunks (hf hc))) hne
    · exact Store.mem_recordsFor.mpr ⟨hold, hpath⟩

theorem embed_eq (e : Embedder) (ix : SemanticIndex) (texts : List Text) :
    ∃ asked, (ix.embed e texts).1 = { ix with asked } := by
  unfold embed
  split
  · exact ⟨ix.asked, rfl⟩
  · exact ⟨_, rfl⟩

theorem removeFile_minds (hn : ix.relative d p = .ok name) (persist : Bool) :
    Minds name ix (ix.removeFile d p persist).index := by
  unfold removeFile removeNamed
  rw [hn]
  dsimp only
  rw [settle_index]
  exact forget_minds ix name

/-- A store that can be saved, at its place on a disk without links. -/
structure Stored (d : Disk) (ix : SemanticIndex) : Prop where
  linkless : d.Linkless
  savable : Store.Savable d ix.file
  place : ∃ dir : Path, ix.file = dir.child Store.fileName ∧ (".." : Text) ∉ dir.parts

theorem Stored.congr (h : Stored d ix) (hf : ix'.file = ix.file) : Stored d ix' :=
  ⟨h.linkless, hf ▸ h.savable, hf ▸ h.place⟩

/-- A step that has succeeded and has at most saved the store. -/
structure Quiet {α : Type} (d : Disk) (step : IndexStep α) : Prop where
  ok : ∃ outcome, step.result = .ok outcome
  spares : d.Spares step.disk
  stored : Stored step.disk step.index

/-- A store that can be saved is saved, or left unsaved, without a fault. -/
theorem quiet_settle {α : Type} (h : Stored d ix) (persist : Bool) (outcome : α) :
    Quiet d (ix.settle d persist outcome) := by
  unfold settle
  split
  · obtain ⟨hok, hsavable⟩ := h.savable.save ix.store
    obtain ⟨dir, hfile, hdir⟩ := h.place
    split
    · rename_i d' _ hsave
      have hspares := Store.save_spares h.linkless hfile hdir hsave
      rw [hsave] at hsavable
      exact ⟨⟨_, rfl⟩, hspares, hspares.linkless h.linkless, hsavable, h.place⟩
    · rename_i hsave
      rw [hsave] at hok
      cases hok
  · exact ⟨⟨_, rfl⟩, .refl d, h⟩

theorem removeFile_quiet (h : Stored d ix) (hn : ix.relative d p = .ok name) :
    Quiet d (ix.removeFile d p true) ∧ Minds name ix (ix.removeFile d p true).index ∧
      (ix.removeFile d p true).index.Lacks name := by
  unfold removeFile removeNamed
  rw [hn]
  dsimp only
  rw [settle_index]
  exact ⟨quiet_settle (show Stored d (ix.forget name).1 from h.congr rfl) true _, forget_minds ix name,
    forget_lacks ix name⟩

variable [Host]

/-- Without a fault the digest is that of the text afterwards, or the text cannot be parsed. -/
theorem update_minds (e : Embedder) (ix : SemanticIndex) (name source : Text) :
    Minds name ix (ix.update e name source).1 ∧
    ∀ outcome, (ix.update e name source).2 = .ok outcome → outcome.path = name ∧
      ((ix.update e name source).1.store.hash? name = some (hashText source) ∨
        Unparsed .loop source) := by
  unfold update
  dsimp only
  split
  · rename_i hknown
    refine ⟨.refl name ix, fun outcome ho => ?_⟩
    cases ho
    exact ⟨rfl, Or.inl hknown⟩
  · split
    · exact ⟨.refl name ix, nofun⟩
    · rename_i fault hcaught hp
      refine ⟨.refl name ix, fun outcome ho => ?_⟩
      cases ho
      exact ⟨rfl, Or.inr ⟨fault, hp, hcaught⟩⟩
    · rename_i file hp
      obtain ⟨asked, hasked⟩ := embed_eq e ix
        ((freshChunks (ix.store.recordsFor name) (chunks name source file)).map (·.text))
      split
      · rename_i he
        rw [he] at hasked
        obtain rfl : _ = { ix with asked } := hasked
        exact ⟨⟨rfl, rfl, fun _ _ => rfl, fun _ _ => List.Subset.refl _⟩, nofun⟩
      · rename_i he
        rw [he] at hasked
        obtain rfl : _ = { ix with asked } := hasked
        refine ⟨replaceChunks_minds asked (fun c hc => (mem_freshChunks.mp hc).1) _ _, fun outcome ho => ?_⟩
        cases ho
        exact ⟨rfl, Or.inl ((hash?_replaceChunks name).trans (if_pos rfl))⟩

/-- Where the text of a file fits, only the embedding service fails. -/
theorem update_backend {fault : IndexFault} (hfit : Host.overNested? .loop source = none)
    (h : (ix.update e name source).2 = .error fault) : ∃ reason, fault = .backend reason := by
  unfold update at h
  dsimp only at h
  split at h
  · cases h
  · split at h
    · rename_i hp
      exact absurd hp (parse_not_overNested hfit)
    · cases h
    · split at h
      · cases h
        exact ⟨_, rfl⟩
      · cases h

/-- A text that fits is taken up, and if it can be parsed the digest is the one of the text afterwards. -/
theorem update_willing (hs : Willing e) (hfits : Fits source) (ix : SemanticIndex) (name : Text) :
    (∃ outcome, (ix.update e name source).2 = .ok outcome) ∧ Minds name ix (ix.update e name source).1 ∧
    ∀ file, parse .loop source = .ok file → (ix.update e name source).1.store.hash? name = some (hashText source) := by
  have hok : ∃ outcome, (ix.update e name source).2 = .ok outcome := by
    unfold update
    dsimp only
    split
    · exact ⟨_, rfl⟩
    · split
      · rename_i hp
        exact absurd hp (parse_not_overNested (hfits .loop))
      · exact ⟨_, rfl⟩
      · rename_i file hp
        have hembed : ∃ vectors, (ix.embed e ((freshChunks (ix.store.recordsFor name) (chunks name source file)).map
            (·.text))).2 = .ok vectors := by
          unfold embed
          split
          · exact ⟨_, rfl⟩
          · exact hs _ _
        obtain ⟨vectors, hv⟩ := hembed
        split
        · rename_i he
          rw [he] at hv
          cases hv
        · exact ⟨_, rfl⟩
  obtain ⟨hminds, hhash⟩ := update_minds e ix name source
  obtain ⟨outcome, ho⟩ := hok
  refine ⟨⟨outcome, ho⟩, hminds, fun file hp => ?_⟩
  rcases (hhash outcome ho).2 with hknown | ⟨fault, hfault, -⟩
  · exact hknown
  · rw [hp] at hfault
    cases hfault

/-- Indexing a file minds its own name only. -/
theorem indexFile_minds (e : Embedder) (hn : ix.relative d p = .ok name)
    (hown : ix.relative d (Path.ofText name) = .ok name) (persist : Bool) :
    Minds name ix (ix.indexFile e d p persist).index := by
  unfold indexFile
  rw [hn]
  dsimp only
  split
  · exact removeFile_minds hown persist
  · exact .refl name ix
  · exact .refl name ix
  · rename_i source _
    have hminds := (update_minds e ix name source).1
    split
    · rename_i he
      rwa [he] at hminds
    · rename_i he
      rw [settle_index]
      rwa [he] at hminds

/-- A file that is not there is forgotten, one that is there gets its digest, and what has no text is not learned. -/
theorem indexFile_quiet (hs : Willing e) (h : Stored d ix) (hn : ix.relative d p = .ok name)
    (hown : ix.relative d (Path.ofText name) = .ok name) (hjoin : ix.root.join (Path.ofText name) = p)
    (hr : ∀ fault, readSource d p ≠ .refused fault) (hfits : ∀ source, readSource d p = .text source → Fits source) :
    Quiet d (ix.indexFile e d p true) ∧ Minds name ix (ix.indexFile e d p true).index ∧
    (readSource d p = .missing → (ix.indexFile e d p true).index.Lacks name) ∧
    (∀ source file, readSource d p = .text source → parse .loop source = .ok file →
      (ix.indexFile e d p true).index.store.hash? name = some (hashText source)) ∧
    (readSource d p = .unreadable → (ix.indexFile e d p true).index = ix) := by
  unfold indexFile
  rw [hn]
  dsimp only
  rw [hjoin]
  cases hread : readSource d p with
  | missing =>
    obtain ⟨hquiet, hminds, hlacks⟩ := removeFile_quiet h hown
    exact ⟨hquiet, hminds, fun _ => hlacks, nofun, nofun⟩
  | unreadable => exact ⟨⟨⟨_, rfl⟩, .refl d, h⟩, .refl name ix, nofun, nofun, fun _ => rfl⟩
  | refused fault => exact absurd hread (hr fault)
  | text source =>
    obtain ⟨⟨outcome, hok⟩, hminds, hhash⟩ := update_willing hs (hfits source hread) ix name
    cases hu : ix.update e name source with
    | mk ix₁ result =>
      rw [hu] at hok hminds hhash
      dsimp only at hok hminds hhash
      subst hok
      simp only [hu, settle_index]
      refine ⟨quiet_settle (h.congr hminds.file) _ _, hminds, nofun, ?_, nofun⟩
      intro source' file hsource hp
      cases hsource
      exact hhash file hp

end CodeAgent.SemanticIndex
