import CodeAgent.Index.History
import CodeAgent.Proofs.Index.Idle
import CodeAgent.Proofs.Store.Without

namespace CodeAgent.SemanticIndex
open Source Disk

variable {e : Embedder} {ix ix' : SemanticIndex} {d : Disk} {s s' : Store} {p : Path} {name source : Text}
variable {file : List Stmt} {persist : Bool} {c : Chunk} {vectors : List Vector64}

def batches (texts : List Text) : List (List Text) := if texts.isEmpty then [] else [texts]

theorem flatten_batches (texts : List Text) : (batches texts).flatten = texts := by
  unfold batches
  split
  · rename_i hempty
    rw [List.isEmpty_iff.mp hempty]
    rfl
  · simp

theorem embed_asked (e : Embedder) (ix : SemanticIndex) (texts : List Text) :
    (ix.embed e texts).1 = { ix with asked := ix.asked ++ batches texts } := by
  unfold embed batches
  split
  · rw [List.append_nil]
  · rfl

def fresh (s : Store) (name source : Text) (file : List Stmt) : List Chunk :=
  freshChunks (s.recordsFor name) (chunks name source file)

def vanished (s : Store) (name source : Text) (file : List Stmt) : List Text :=
  vanishedIds (s.recordsFor name) (chunks name source file)

def broughtTo (s : Store) (name source : Text) (file : List Stmt) (vectors : List Vector64) : Store :=
  replaceChunks s name source (fresh s name source file) vectors (vanished s name source file)

def sending (ix : SemanticIndex) (name source : Text) (file : List Stmt) : SemanticIndex :=
  { ix with asked := ix.asked ++ batches ((fresh ix.store name source file).map (·.text)) }

/-- All that bringing a file to a text can come to. -/
inductive Updated [Host] (e : Embedder) (ix : SemanticIndex) (name source : Text) :
    SemanticIndex → Except IndexFault IndexOutcome → Prop where
  | unchanged (known : ix.store.hash? name = some (hashText source)) :
      Updated e ix name source ix
        (.ok { path := name, status := .unchanged, kept := (ix.store.recordsFor name).length })
  | malformed (new : ix.store.hash? name ≠ some (hashText source)) (unparsed : Unparsed .loop source) :
      Updated e ix name source ix (.ok { path := name, status := .error })
  | gaveUp (new : ix.store.hash? name ≠ some (hashText source)) (reason : Text)
      (nested : parse .loop source = .error (.overNested reason)) :
      Updated e ix name source ix (.error (.disk (.overNested reason)))
  | refused (new : ix.store.hash? name ≠ some (hashText source)) (file : List Stmt)
      (parsed : parse .loop source = .ok file)
      (fault : BackendFault)
      (answer : (ix.embed e ((fresh ix.store name source file).map (·.text))).2 = .error fault) :
      Updated e ix name source (ix.sending name source file) (.error (.backend fault))
  | brought (new : ix.store.hash? name ≠ some (hashText source)) (file : List Stmt)
      (parsed : parse .loop source = .ok file)
      (vectors : List Vector64)
      (answer : (ix.embed e ((fresh ix.store name source file).map (·.text))).2 = .ok vectors) :
      Updated e ix name source
        { ix.sending name source file with store := broughtTo ix.store name source file vectors }
        (.ok {
          path := name, status := .indexed, embedded := (fresh ix.store name source file).length,
          deleted := (vanished ix.store name source file).length,
          kept := (chunks name source file).length - (fresh ix.store name source file).length })

/-- What an update does to the index, case by case. -/
theorem updated [Host] (e : Embedder) (ix : SemanticIndex) (name source : Text) :
    Updated e ix name source (ix.update e name source).1 (ix.update e name source).2 := by
  unfold update
  dsimp only
  by_cases hknown : ix.store.hash? name = some (hashText source)
  · rw [if_pos hknown]
    exact .unchanged hknown
  · rw [if_neg hknown]
    cases hp : parse .loop source with
    | error fault =>
      cases fault with
      | overNested reason => exact .gaveUp hknown reason hp
      | _ => exact .malformed hknown ⟨_, hp, nofun⟩
    | ok file =>
      have hindex := embed_asked e ix ((fresh ix.store name source file).map (·.text))
      have hrefused := Updated.refused (e := e) hknown file hp
      have hbrought := Updated.brought (e := e) hknown file hp
      unfold fresh at hindex hrefused hbrought
      dsimp only
      cases he : ix.embed e ((freshChunks (ix.store.recordsFor name) (chunks name source file)).map (·.text)) with
      | mk ix₁ answer =>
        rw [he] at hindex hrefused hbrought
        dsimp only at hindex
        subst hindex
        cases answer with
        | error fault => exact hrefused fault rfl
        | ok vectors => exact hbrought vectors rfl

/-- All that indexing a file with a name can come to. -/
inductive Filed [Host] (e : Embedder) (d : Disk) (ix : SemanticIndex) (name : Text) (persist : Bool) :
    IndexStep IndexOutcome → Prop where
  | removed (gone : readSource d (ix.root.join (Path.ofText name)) = .missing) :
      Filed e d ix name persist (ix.removeFile d (Path.ofText name) persist)
  | unreadable (closed : readSource d (ix.root.join (Path.ofText name)) = .unreadable) :
      Filed e d ix name persist ⟨d, ix, .ok { path := name, status := .error }⟩
  | refused (fault : DiskFault) (closed : readSource d (ix.root.join (Path.ofText name)) = .refused fault) :
      Filed e d ix name persist ⟨d, ix, .error (.disk fault)⟩
  | failed (source : Text) (read : readSource d (ix.root.join (Path.ofText name)) = .text source)
      (ix' : SemanticIndex) (fault : IndexFault) (update : Updated e ix name source ix' (.error fault)) :
      Filed e d ix name persist ⟨d, ix', .error fault⟩
  | settled (source : Text) (read : readSource d (ix.root.join (Path.ofText name)) = .text source)
      (ix' : SemanticIndex) (outcome : IndexOutcome) (update : Updated e ix name source ix' (.ok outcome)) :
      Filed e d ix name persist (ix'.settle d (persist && outcome.status = .indexed) outcome)

/-- What indexing a file does, case by case. -/
theorem filed [Host] (e : Embedder) (hn : ix.relative d p = .ok name) (persist : Bool) :
    Filed e d ix name persist (ix.indexFile e d p persist) := by
  unfold indexFile
  rw [hn]
  dsimp only
  cases hread : readSource d (ix.root.join (Path.ofText name)) with
  | missing => exact .removed hread
  | unreadable => exact .unreadable hread
  | refused fault => exact .refused fault hread
  | text source =>
    have hupdated := updated e ix name source
    dsimp only
    cases hu : ix.update e name source with
    | mk ix₁ result =>
      rw [hu] at hupdated
      cases result with
      | error fault => exact .failed source hread ix₁ fault hupdated
      | ok outcome => exact .settled source hread ix₁ outcome hupdated

/-- What a call can do to a store with one file, whatever vectors it got. -/
inductive Revised (name : Text) (s : Store) : Store → Prop where
  | same : Revised name s s
  | brought (source : Text) (file : List Stmt) (vectors : List Vector64) :
      Revised name s (broughtTo s name source file vectors)
  | forgotten : Revised name s (forgotten s name)

theorem Updated.revised [Host] {result : Except IndexFault IndexOutcome} (h : Updated e ix name source ix' result) :
    ix'.root = ix.root ∧ Revised name ix.store ix'.store := by
  cases h with
  | unchanged => exact ⟨rfl, .same⟩
  | malformed => exact ⟨rfl, .same⟩
  | gaveUp => exact ⟨rfl, .same⟩
  | refused => exact ⟨rfl, .same⟩
  | brought new file parsed vectors => exact ⟨rfl, .brought source file vectors⟩

theorem removeFile_revised (hn : ix.relative d p = .ok name) (persist : Bool) :
    (ix.removeFile d p persist).index.root = ix.root ∧
    Revised name ix.store (ix.removeFile d p persist).index.store := by
  obtain ⟨hroot, hstore⟩ := removeFile_spec persist hn
  rw [hstore]
  exact ⟨hroot, .forgotten⟩

/-- Indexing a file revises what the store holds under its name, as long as that is its own name. -/
theorem indexFile_revised [Host] (e : Embedder) (hn : ix.relative d p = .ok name)
    (hself : ix.relative d (Path.ofText name) = .ok name) (persist : Bool) :
    (ix.indexFile e d p persist).index.root = ix.root ∧
    Revised name ix.store (ix.indexFile e d p persist).index.store := by
  have hfiled := filed e hn persist
  generalize ix.indexFile e d p persist = step at hfiled ⊢
  cases hfiled with
  | removed => exact removeFile_revised hself persist
  | unreadable => exact ⟨rfl, .same⟩
  | refused => exact ⟨rfl, .same⟩
  | failed source _ ix' fault hupdate => exact hupdate.revised
  | settled source _ ix' outcome hupdate =>
    rw [settle_index]
    exact hupdate.revised

theorem keyed_of_mem_chunks (h : c ∈ chunks name source file) :
    c.id = chunkId name c.startLine ∧ c.hash = hashText c.text := by
  unfold chunks at h
  split at h
  · split at h
    · cases h
    · rw [List.mem_singleton.mp h]
      exact ⟨rfl, rfl⟩
  · obtain ⟨definition, -, rfl⟩ := List.mem_map.mp ((firstOfEach_sublist _).subset h)
    exact ⟨rfl, rfl⟩

/-- The records that fresh chunks make are records of chunks of the text. -/
theorem chunk_of_fresh {sent : StoredChunk}
    (h : sent ∈ ((fresh s name source file).zip vectors).map fun (c, v) => (⟨c, v⟩ : StoredChunk)) :
    sent.chunk ∈ chunks name source file := by
  obtain ⟨⟨c, v⟩, hm, rfl⟩ := List.mem_map.mp h
  exact (mem_freshChunks.mp (List.of_mem_zip hm).1).1

/-- The store between the two halves of bringing it to a text. -/
theorem keyed_upsert_fresh (hs : s.Keyed) (name source : Text) (file : List Stmt) (vectors : List Vector64) :
    (s.upsert (((fresh s name source file).zip vectors).map fun (c, v) => ⟨c, v⟩)).Keyed := by
  apply hs.upsert
  · intro sent hsent
    have hchunk := chunk_of_fresh hsent
    rw [path_of_mem_chunks hchunk]
    exact (keyed_of_mem_chunks hchunk).1
  · intro sent hsent
    exact (keyed_of_mem_chunks (chunk_of_fresh hsent)).2

theorem Revised.keyed (h : Revised name s s') (hs : s.Keyed) : s'.Keyed := by
  cases h with
  | same => exact hs
  | brought source file vectors =>
    have hkeyed := (keyed_upsert_fresh hs name source file vectors).delete (vanished s name source file)
    exact ⟨hkeyed.distinct, hkeyed.id, hkeyed.hash⟩
  | forgotten =>
    have hkeyed := hs.delete ((s.recordsFor name).map (·.chunk.id))
    exact ⟨hkeyed.distinct, hkeyed.id, hkeyed.hash⟩

/-- Taking out ids that records of a file have. -/
theorem without_delete_own {t : Store} (hs : s.Keyed) (ht : t.Keyed) {ids : List Text}
    (hids : ids ⊆ (s.recordsFor name).map (·.chunk.id)) : (t.delete ids).without name = t.without name := by
  apply Store.without_delete
  intro record hrecord hid
  obtain ⟨own, hown, he⟩ := List.mem_map.mp (hids hid)
  obtain ⟨hstored, hpath⟩ := Store.mem_recordsFor.mp hown
  rw [← hpath]
  exact ht.path_eq hrecord (he.symm.trans (hs.id own hstored))

/-- Ids of different files never agree, so a call about one file leaves all the others alone. -/
theorem Revised.without (h : Revised name s s') (hs : s.Keyed) : s'.without name = s.without name := by
  cases h with
  | same => rfl
  | brought source file vectors =>
    have hupsert : (s.upsert (((fresh s name source file).zip vectors).map fun (c, v) => ⟨c, v⟩)).without name =
        s.without name := by
      apply Store.without_upsert
      · intro sent hsent
        exact path_of_mem_chunks (chunk_of_fresh hsent)
      · intro sent hsent record hrecord he
        exact hs.path_eq hrecord (he.trans (keyed_of_mem_chunks (chunk_of_fresh hsent)).1)
    have hvanished : vanished s name source file ⊆ (s.recordsFor name).map (·.chunk.id) :=
      List.filter_sublist.subset
    unfold broughtTo replaceChunks
    rw [Store.without_setHash, without_delete_own hs (keyed_upsert_fresh hs name source file vectors)
        hvanished, hupsert]
  | forgotten =>
    unfold SemanticIndex.forgotten
    rw [Store.without_eraseHash]
    exact without_delete_own hs hs (List.Subset.refl _)

/-- An index as its calls leave it. -/
structure Orderly (ix : SemanticIndex) : Prop where
  rooted : ix.Rooted
  keyed : ix.store.Keyed

theorem Orderly.revised (h : ix.Orderly) (hr : ix'.root = ix.root ∧ Revised name ix.store ix'.store) : ix'.Orderly :=
  ⟨h.rooted.congr hr.1, hr.2.keyed h.keyed⟩

theorem Orderly.removeFile (h : ix.Orderly) (d : Disk) (p : Path) (persist : Bool) :
    (ix.removeFile d p persist).index.Orderly := by
  cases hn : ix.relative d p with
  | error fault => rwa [removeFile_of_error hn]
  | ok name => exact h.revised (removeFile_revised hn persist)

/-- A name leads to itself, whatever links there are: what it leads to was resolved already. -/
theorem Rooted.relative_self (h : ix.Rooted) (hp : p.Written) (hn : ix.relative d p = .ok name) :
    ix.relative d (Path.ofText name) = .ok name := by
  rcases h.relative_cases hn with ⟨rest, hres, rfl⟩ | rfl
  · obtain ⟨hclean, -⟩ := (kept_clean d).resolve (fun part hm => (h.written_join hp).parts part hm) hres
    have hrest : ∀ name ∈ rest, IsName name := fun name hm => hclean.names name (List.mem_append_right _ hm)
    have hagain := resolve_idem hres
    unfold relative
    rw [h.join_relative hrest]
    simp only [hagain, h.below_root, Option.map_some, Option.getD_some]
  · rw [(h.written_join hp).ofText_text]
    unfold relative at hn ⊢
    rwa [h.join_join]

/-- Indexing a file keeps the index orderly. -/
theorem Orderly.indexFile [Host] (h : ix.Orderly) (e : Embedder) (d : Disk) (p : Path) (persist : Bool) :
    (ix.indexFile e d p persist).index.Orderly := by
  cases hn : ix.relative d p with
  | error fault => rwa [indexFile_of_error hn]
  | ok name =>
    have hfiled := filed e hn persist
    generalize ix.indexFile e d p persist = step at hfiled ⊢
    cases hfiled with
    | removed => exact h.removeFile d _ persist
    | unreadable => exact h
    | refused => exact h
    | failed source _ ix' fault hupdate => exact h.revised hupdate.revised
    | settled source _ ix' outcome hupdate =>
      rw [settle_index]
      exact h.revised hupdate.revised

theorem Orderly.indexWorkspace [Host] (h : ix.Orderly) (e : Embedder) (d : Disk) :
    (ix.indexWorkspace e d).index.Orderly :=
  indexWorkspace_keeps (fun _ h' p _ => h'.indexFile e d p false)
    (fun _ _ name _ _ h' => h'.removeFile d (Path.ofText name) false) h

theorem Orderly.visit [Host] (h : ix.Orderly) (e : Embedder) (v : Visit) : (ix.visit e v).Orderly := by
  obtain ⟨d, call⟩ := v
  cases call with
  | indexFile path persist => exact h.indexFile e d (Path.ofText path) persist
  | removeFile path persist => exact h.removeFile d (Path.ofText path) persist
  | indexWorkspace => exact h.indexWorkspace e d

/-- The indexes that there can be: a new one at a place that was resolved, what a call with any embedding service
leads to, and one that is opened elsewhere or later with the store of another. -/
inductive Reachable [Host] : SemanticIndex → Prop where
  | opened {d : Disk} {given : Text} {root : Path} (file : Path) (resolved : d.resolve (Path.ofText given) = .ok root) :
      Reachable { root, file }
  | called {ix : SemanticIndex} (e : Embedder) (v : Visit) (before : Reachable ix) : Reachable (ix.visit e v)
  | reopened {ix : SemanticIndex} (file : Path) (asked : List (List Text)) (before : Reachable ix) :
      Reachable { ix with file, asked }

theorem Reachable.after [Host] (h : ix.Reachable) (e : Embedder) (visits : List Visit) :
    (ix.after e visits).Reachable :=
  after_keeps (fun _ h' v _ => .called e v h') h

theorem Reachable.orderly [Host] (h : ix.Reachable) : ix.Orderly := by
  induction h with
  | opened file resolved => exact ⟨rooted_of_resolve resolved, Store.keyed_empty⟩
  | called e v _ ih => exact ih.visit e v
  | reopened file asked _ ih => exact ⟨⟨ih.rooted.root, ih.rooted.clean⟩, ih.keyed⟩

end CodeAgent.SemanticIndex
