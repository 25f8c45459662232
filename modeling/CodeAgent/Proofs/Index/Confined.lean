import CodeAgent.Host.Usual
import CodeAgent.Proofs.Index.Reachable
import CodeAgent.Proofs.Index.Turns
import Mathlib.Data.Finset.Card

namespace CodeAgent.SemanticIndex
open Source Disk

variable {e : Embedder} {ix ix' : SemanticIndex} {d : Disk} {s : Store} {name source : Text} {file : List Stmt}
variable {before cs : List Chunk} {records : List StoredChunk} {vectors : List Vector64} {persist : Bool}
variable {step : IndexStep IndexOutcome} {outcome : IndexOutcome} {p : Path}

/-- An embedding service that gives one vector for each text, if it answers. -/
def OneEach (e : Embedder) : Prop :=
  ∀ asked texts vectors, e asked texts = .ok vectors → vectors.length = texts.length

def mark (c : Chunk) : Text × Text := (c.id, c.hash)

def marks (cs : List Chunk) : Finset (Text × Text) := (cs.map mark).toFinset

def ids (cs : List Chunk) : Finset Text := (cs.map (·.id)).toFinset

def held (s : Store) (name : Text) : List Chunk := (s.recordsFor name).map (·.chunk)

/-- The numbers of an outcome: the ids that are new or have a new hash, those that stay, and those that are gone. -/
structure Counts (before cs : List Chunk) (outcome : IndexOutcome) : Prop where
  embedded : outcome.embedded = (marks cs \ marks before).card
  kept : outcome.kept = (marks cs ∩ marks before).card
  deleted : outcome.deleted = (ids before \ ids cs).card

/-- A store that was brought to the text of a file, with an outcome that counts what this took. -/
structure Brought (s s' : Store) (name source : Text) (file : List Stmt) (outcome : IndexOutcome) : Prop where
  records : ((held s' name).map mark).Perm ((chunks name source file).map mark)
  hash : s'.hash? name = some (hashText source)
  counts : Counts (held s name) (chunks name source file) outcome

/-- What the result of indexing a file says of the store. -/
structure Reported [Host] (d : Disk) (ix : SemanticIndex) (name : Text) (step : IndexStep IndexOutcome) : Prop where
  failed : ∀ fault, step.result = .error (.backend fault) → step.index.store = ix.store
  path : ∀ outcome, step.result = .ok outcome → outcome.path = name
  idle : ∀ outcome, step.result = .ok outcome → outcome.status = .unchanged ∨ outcome.status = .error →
    step.index.store = ix.store
  indexed : ∀ outcome, step.result = .ok outcome → outcome.status = .indexed → ∃ source file,
    d.readText (ix.root.join (Path.ofText name)) = .ok source ∧ parse .loop source = .ok file ∧
    Brought ix.store step.index.store name source file outcome
  /-- However the call ends, also when the store cannot be saved. -/
  whole : step.index.store = ix.store ∨ step.index.Lacks name ∨ ∃ source file outcome,
    d.readText (ix.root.join (Path.ofText name)) = .ok source ∧ parse .loop source = .ok file ∧
    Brought ix.store step.index.store name source file outcome

theorem nodup_marks (h : (cs.map (·.id)).Nodup) : (cs.map mark).Nodup := by
  apply List.Nodup.of_map Prod.fst
  rw [List.map_map]
  exact h

theorem mem_marks_held {m : Text × Text} :
    m ∈ marks (held s name) ↔ ∃ r ∈ s.recordsFor name, r.chunk.id = m.1 ∧ r.chunk.hash = m.2 := by
  simp [marks, held, mark, Prod.ext_iff]

/-- The chunks that are embedded are those with a mark of their own. -/
theorem length_fresh (s : Store) (name source : Text) (file : List Stmt) :
    (fresh s name source file).length = (marks (chunks name source file) \ marks (held s name)).card := by
  have hnodup : ((fresh s name source file).map mark).Nodup :=
    (nodup_marks (nodup_chunks name source file)).sublist (List.filter_sublist.map mark)
  have hmarks : marks (fresh s name source file) = marks (chunks name source file) \ marks (held s name) := by
    ext m
    rw [Finset.mem_sdiff, mem_marks_held]
    simp only [marks, List.mem_toFinset, List.mem_map, fresh, mem_freshChunks]
    constructor
    · intro h
      obtain ⟨c, ⟨hc, hnew⟩, rfl⟩ := h
      exact ⟨⟨c, hc, rfl⟩, hnew⟩
    · intro h
      obtain ⟨⟨c, hc, rfl⟩, hnew⟩ := h
      exact ⟨c, ⟨hc, hnew⟩, rfl⟩
  rw [← hmarks, marks, List.toFinset_card_of_nodup hnodup, List.length_map]

theorem length_kept (s : Store) (name source : Text) (file : List Stmt) :
    (chunks name source file).length - (fresh s name source file).length =
      (marks (chunks name source file) ∩ marks (held s name)).card := by
  have hall : (marks (chunks name source file)).card = (chunks name source file).length := by
    rw [marks, List.toFinset_card_of_nodup (nodup_marks (nodup_chunks name source file)), List.length_map]
  have hsplit := Finset.card_sdiff_add_card_inter (marks (chunks name source file)) (marks (held s name))
  rw [length_fresh]
  omega

theorem length_vanished (h : s.Distinct) (name source : Text) (file : List Stmt) :
    (vanished s name source file).length = (ids (held s name) \ ids (chunks name source file)).card := by
  have hnodup : (vanished s name source file).Nodup :=
    (h.sublist (List.filter_sublist.map _)).sublist List.filter_sublist
  have hids : (vanished s name source file).toFinset = ids (held s name) \ ids (chunks name source file) := by
    ext id
    simp [vanished, vanishedIds, ids, held]
  rw [← hids, List.toFinset_card_of_nodup hnodup]

/-- Records that agree with the chunks of a text have just their marks. -/
theorem Agree.perm (h : Agree records cs) (hr : (records.map (·.chunk.id)).Nodup) (hc : (cs.map (·.id)).Nodup) :
    ((records.map (·.chunk)).map mark).Perm (cs.map mark) := by
  have hmarks : ((records.map (·.chunk)).map mark).Nodup := by
    apply nodup_marks
    rwa [List.map_map]
  apply (List.perm_ext_iff_of_nodup hmarks (nodup_marks hc)).mpr
  intro m
  rw [List.map_map, List.mem_map, List.mem_map]
  constructor
  · intro hm
    obtain ⟨r, hr, rfl⟩ := hm
    obtain ⟨c, hc, hid, hhash⟩ := h.needed r hr
    exact ⟨c, hc, Prod.ext hid.symm hhash.symm⟩
  · intro hm
    obtain ⟨c, hc, rfl⟩ := hm
    obtain ⟨r, hr, hid, hhash⟩ := h.covered c hc
    exact ⟨r, hr, Prod.ext hid hhash⟩

theorem brought_of_broughtTo (h : s.Distinct) (hlength : vectors.length = (fresh s name source file).length)
    (ho : outcome.embedded = (fresh s name source file).length ∧
      outcome.deleted = (vanished s name source file).length ∧
      outcome.kept = (chunks name source file).length - (fresh s name source file).length) :
    Brought s (broughtTo s name source file vectors) name source file outcome := by
  obtain ⟨hembedded, hdeleted, hkept⟩ := ho
  have hagree : Agree ((broughtTo s name source file vectors).recordsFor name) (chunks name source file) :=
    agree_replaceChunks h hlength
  have hdistinct : (broughtTo s name source file vectors).Distinct := (h.upsert _).delete _
  refine ⟨?_, ?_, ?_⟩
  · exact hagree.perm (hdistinct.sublist (List.filter_sublist.map _)) (nodup_chunks name source file)
  · exact (hash?_replaceChunks name).trans (if_pos rfl)
  · exact ⟨hembedded.trans (length_fresh s name source file), hkept.trans (length_kept s name source file),
      hdeleted.trans (length_vanished h name source file)⟩

theorem embed_oneEach (he : OneEach e) {texts : List Text} (h : (ix.embed e texts).2 = .ok vectors) :
    vectors.length = texts.length := by
  unfold embed at h
  split at h
  · rename_i hempty
    rw [List.isEmpty_iff.mp hempty]
    cases h
    rfl
  · exact he ix.asked texts vectors h

/-- What comes of bringing a file to a text that was read. -/
theorem Updated.reported [Host] {result : Except IndexFault IndexOutcome} (h : Updated e ix name source ix' result)
    (he : OneEach e) (hs : ix.store.Distinct) :
    (∀ fault, result = .error fault → ix'.store = ix.store) ∧
    ∀ outcome, result = .ok outcome → outcome.path = name ∧
      ((outcome.status = .unchanged ∨ outcome.status = .error) ∧ ix'.store = ix.store ∨
        outcome.status = .indexed ∧ ∃ file, parse .loop source = .ok file ∧
          Brought ix.store ix'.store name source file outcome) := by
  cases h with
  | unchanged =>
    refine ⟨nofun, fun outcome ho => ?_⟩
    cases ho
    exact ⟨rfl, Or.inl ⟨Or.inl rfl, rfl⟩⟩
  | malformed =>
    refine ⟨nofun, fun outcome ho => ?_⟩
    cases ho
    exact ⟨rfl, Or.inl ⟨Or.inr rfl, rfl⟩⟩
  | gaveUp => exact ⟨fun _ _ => rfl, nofun⟩
  | refused => exact ⟨fun _ _ => rfl, nofun⟩
  | brought new file parsed vectors answer =>
    have hlength := embed_oneEach he answer
    rw [List.length_map] at hlength
    refine ⟨nofun, fun outcome ho => ?_⟩
    cases ho
    exact ⟨rfl, Or.inr ⟨rfl, file, parsed, brought_of_broughtTo hs hlength ⟨rfl, rfl, rfl⟩⟩⟩

theorem removeFile_outcome (hn : ix.relative d p = .ok name) (persist : Bool)
    (h : (ix.removeFile d p persist).result = .ok outcome) : outcome.path = name ∧ outcome.status = .removed := by
  unfold removeFile removeNamed at h
  rw [hn] at h
  obtain rfl := settle_ok h
  exact ⟨rfl, rfl⟩

theorem removeFile_lacks (hn : ix.relative d p = .ok name) (persist : Bool) :
    (ix.removeFile d p persist).index.Lacks name := by
  unfold removeFile removeNamed
  rw [hn]
  dsimp only
  rw [settle_index]
  exact forget_lacks ix name

theorem settle_not_backend {α : Type} (outcome : α) (fault : BackendFault) :
    (ix.settle d persist outcome).result ≠ .error (.backend fault) := by
  unfold settle
  split
  · split <;> simp
  · simp

/-- What is told of a file that was indexed agrees with what its store became. -/
theorem Filed.reported [Host] (h : Filed e d ix name persist step) (he : OneEach e) (hs : ix.store.Distinct)
    (hself : ix.relative d (Path.ofText name) = .ok name) : Reported d ix name step := by
  cases h with
  | removed =>
    have hremoved (outcome : IndexOutcome) (ho : (ix.removeFile d (Path.ofText name) persist).result = .ok outcome) :
        outcome.path = name ∧ outcome.status = .removed := removeFile_outcome hself persist ho
    refine ⟨?_, fun outcome ho => (hremoved outcome ho).1, ?_, ?_, Or.inr (Or.inl (removeFile_lacks hself persist))⟩
    · intro fault hfault
      unfold removeFile removeNamed at hfault
      rw [hself] at hfault
      exact absurd hfault (settle_not_backend _ fault)
    · intro outcome ho hidle
      rw [(hremoved outcome ho).2] at hidle
      simp at hidle
    · intro outcome ho hindexed
      rw [(hremoved outcome ho).2] at hindexed
      cases hindexed
  | unreadable =>
    refine ⟨nofun, ?_, fun _ _ _ => rfl, ?_, Or.inl rfl⟩
    · intro outcome ho
      cases ho
      rfl
    · intro outcome ho hindexed
      cases ho
      cases hindexed
  | refused => exact ⟨nofun, nofun, nofun, nofun, Or.inl rfl⟩
  | failed source _ ix' fault hupdate =>
    have hsame : ix'.store = ix.store := (hupdate.reported he hs).1 fault rfl
    exact ⟨fun _ _ => hsame, nofun, nofun, nofun, Or.inl hsame⟩
  | settled source hread ix' outcome hupdate =>
    obtain ⟨hpath, hstatus⟩ := (hupdate.reported he hs).2 outcome rfl
    have htext := readText_of_readSource hread
    refine ⟨?_, ?_, ?_, ?_, ?_⟩
    · intro fault hfault
      exact absurd hfault (settle_not_backend outcome fault)
    · intro outcome' ho
      obtain rfl := settle_ok ho
      exact hpath
    · intro outcome' ho hidle
      obtain rfl := settle_ok ho
      rw [settle_index]
      obtain ⟨-, hsame⟩ | ⟨hindexed, -⟩ := hstatus
      · exact hsame
      · rw [hindexed] at hidle
        simp at hidle
    · intro outcome' ho hindexed
      obtain rfl := settle_ok ho
      rw [settle_index]
      obtain ⟨hidle, -⟩ | ⟨-, file, hparse, hbrought⟩ := hstatus
      · rw [hindexed] at hidle
        simp at hidle
      · exact ⟨source, file, htext, hparse, hbrought⟩
    · rw [settle_index]
      obtain ⟨-, hsame⟩ | ⟨-, file, hparse, hbrought⟩ := hstatus
      · exact Or.inl hsame
      · exact Or.inr (Or.inr ⟨source, file, outcome, htext, hparse, hbrought⟩)

/-- Indexing or removing a file, in whatever state the index is, whatever links there are and however the call ends:
what the store says of other files stays as it is. A text that is not indexed changes nothing, and one that is
indexed has just its own chunks in the store. -/
theorem indexFile_confined [Host] (h : ix.Reachable) (he : OneEach e) (d : Disk) (given : Text) (persist : Bool) :
    (∀ fault, ix.relative d (Path.ofText given) = .error fault →
      (ix.indexFile e d (Path.ofText given) persist).index = ix ∧
      (ix.removeFile d (Path.ofText given) persist).index = ix) ∧
    ∀ name, ix.relative d (Path.ofText given) = .ok name →
      (ix.removeFile d (Path.ofText given) persist).index.store.without name = ix.store.without name ∧
      (ix.indexFile e d (Path.ofText given) persist).index.store.without name = ix.store.without name ∧
      Reported d ix name (ix.indexFile e d (Path.ofText given) persist) := by
  obtain ⟨hrooted, hkeyed⟩ := h.orderly
  constructor
  · intro fault hn
    rw [indexFile_of_error hn, removeFile_of_error hn]
    exact ⟨rfl, rfl⟩
  · intro name hn
    have hself := hrooted.relative_self (Path.written_ofText given) hn
    refine ⟨?_, ?_, (filed e hn persist).reported he hkeyed.distinct hself⟩
    · exact (removeFile_revised hn persist).2.without hkeyed
    · exact (indexFile_revised e hn hself persist).2.without hkeyed

attribute [local instance] Host.usual

theorem blank_oneEach : OneEach blank := by
  intro asked texts vectors hv
  cases hv
  exact List.length_map _

theorem newIndex_reachable : newIndex.Reachable := by
  have hresolved : renamedDisk.resolve (Path.ofText "/w") = .ok newIndex.root := by cbv
  exact .opened _ hresolved

theorem renamed_reachable : (newIndex.after blank renamedVisits).Reachable :=
  newIndex_reachable.after blank renamedVisits

theorem line_ids_ne : chunkId "a.py" 1 ≠ chunkId "a.py" 2 := fun he => absurd (chunkId_inj he).2 (by decide)

theorem renamed_hashes_ne : hashText (classText "A") ≠ hashText (classText "B") := by
  intro he
  have htexts := classText_hashes (by simp [classTexts]) (by simp [classTexts]) he
  exact absurd htexts (by decide)

theorem renamed_held :
    (newIndex.after blank renamedVisits).store.recordsFor "a.py" = (classChunks "a.py" "A").map fun c => ⟨c, []⟩ := by
  rw [renamed_before.2]
  simp [replaced, replaceChunks, freshChunks, vanishedIds, holds, classChunks, Store.recordsFor, Store.upsert,
    Store.upsertOne, Store.delete, Store.setHash, line_ids_ne]

theorem renamed_named : (newIndex.after blank renamedVisits).relative renamedDisk (Path.ofText "a.py") =
    .ok "a.py" := by
  obtain ⟨file, hp, -⟩ := parse_classText "B" mem_classNames.2
  have hstands : Version.Stands renamedDisk newIndex (Path.ofText "a.py") ⟨"a.py", classText "B", file⟩ :=
    oneModule_stands mem_classNames.2 hp (by decide)
  exact (hstands.congr renamed_regular.tracks.1).1

def twoModules (source : Text) : Disk :=
  ⟨[(["w"], .directory), (["w", "a.py"], .file (Utf8.encodeAny source)), (["w", "b.py"], .file (Utf8.encodeAny "b"))]⟩

def besideVisits : List Visit :=
  [⟨twoModules (classText "A"), .indexFile "b.py" false⟩, ⟨twoModules (classText "A"), .indexFile "a.py" false⟩]

def besideStore : Store :=
  replaced (fun _ => []) (replaced (fun _ => []) {} "b.py" "b" [wholeChunk "b.py" "b"]) "a.py" (classText "A")
    (classChunks "a.py" "A")

theorem twoModules_stands {name : Text} {file : List Stmt} (hname : name ∈ classNames)
    (hp : parse .loop (classText name) = .ok file) :
    Version.Stands (twoModules (classText name)) newIndex (Path.ofText "a.py") ⟨"a.py", classText name, file⟩ := by
  have hfound : ∀ name ∈ classNames,
      newIndex.relative (twoModules (classText name)) (Path.ofText "a.py") = .ok "a.py" ∧
      (twoModules (classText name)).readText ⟨"/", ["w", "a.py"]⟩ = .ok (classText name) :=
    forall_classNames ⟨by cbv, by cbv⟩ ⟨by cbv, by cbv⟩
  obtain ⟨hnamed, hread⟩ := hfound name hname
  exact ⟨hnamed, readSource_of_readText hread, hp⟩

theorem otherModule_stands : ∃ file, chunks "b.py" "b" file = [wholeChunk "b.py" "b"] ∧
    Version.Stands (twoModules (classText "A")) newIndex (Path.ofText "b.py") ⟨"b.py", "b", file⟩ := by
  have hempty : (parse .loop "b").toOption.map (·.flatMap Stmt.definitions) = some [] := by decide +kernel
  obtain ⟨file, hparse, hdefinitions⟩ := parse_defining hempty List.Pairwise.nil
  refine ⟨file, ?_, by cbv, readSource_of_readText (by cbv), hparse⟩
  unfold chunks
  rw [hdefinitions]
  exact if_neg (by decide)

/-- After both files were indexed the store has a record of each. -/
theorem beside_before :
    (newIndex.after blank besideVisits).root = newIndex.root ∧
    (newIndex.after blank besideVisits).store = besideStore := by
  obtain ⟨other, hother, hstands⟩ := otherModule_stands
  obtain ⟨file, hp, hdefinitions⟩ := parse_classText "A" mem_classNames.1
  obtain ⟨ix₁, _, hrun₁, -, -, hroot₁, -, hstore₁⟩ := indexFile_answers blank_answers hstands
  obtain ⟨ix₂, _, hrun₂, -, -, hroot₂, -, hstore₂⟩ :=
    indexFile_answers blank_answers ((twoModules_stands mem_classNames.1 hp).congr hroot₁)
  have hafter : newIndex.after blank besideVisits = ix₂ := by
    change ((newIndex.indexFile blank _ _ false).index.indexFile blank _ _ false).index = ix₂
    rw [hrun₁]
    exact congrArg IndexStep.index hrun₂
  have hfirst : ix₁.store = replaced (fun _ => []) {} "b.py" "b" [wholeChunk "b.py" "b"] := by
    rw [hstore₁, ← hother]
    change brought (fun _ => []) {} "b.py" "b" other = _
    exact if_neg (by simp [Store.hash?, Table.get?])
  rw [hafter, hstore₂, hfirst]
  refine ⟨hroot₂.trans hroot₁, ?_⟩
  unfold besideStore
  rw [← chunks_classText mem_classNames.1 hdefinitions]
  change brought (fun _ => []) _ "a.py" (classText "A") file = _
  refine if_neg ?_
  rw [hash?_replaced, if_neg (by decide)]
  simp [Store.hash?, Table.get?]

theorem beside_held :
    besideStore.recordsFor "a.py" = (classChunks "a.py" "A").map (fun c => ⟨c, []⟩) ∧
    besideStore.recordsFor "b.py" = [⟨wholeChunk "b.py" "b", []⟩] := by
  have hpath : ("b.py" : Text) ≠ "a.py" := by decide
  have hids : chunkId "b.py" 1 ≠ chunkId "a.py" 1 ∧ chunkId "b.py" 1 ≠ chunkId "a.py" 2 := by decide
  constructor
  · simp [besideStore, replaced, replaceChunks, freshChunks, vanishedIds, holds, classChunks, wholeChunk,
      Store.recordsFor, Store.upsert, Store.upsertOne, Store.delete, Store.setHash, line_ids_ne, hids, hpath]
  · simp [besideStore, replaced, replaceChunks, freshChunks, vanishedIds, holds, classChunks, wholeChunk,
      Store.recordsFor, Store.upsert, Store.upsertOne, Store.delete, Store.setHash, line_ids_ne, hids, hpath,
      hpath.symm]

/-- The class has another text than before, and its method the same one. -/
theorem beside_numbers {file : List Stmt} (h : chunks "a.py" (classText "B") file = classChunks "a.py" "B") :
    (fresh besideStore "a.py" (classText "B") file).length = 1 ∧
    (vanished besideStore "a.py" (classText "B") file).length = 0 ∧
    (chunks "a.py" (classText "B") file).length = 2 := by
  unfold fresh vanished
  rw [beside_held.1, h]
  simp [freshChunks, vanishedIds, holds, classChunks, line_ids_ne, line_ids_ne.symm, renamed_hashes_ne]

/-- The class is embedded anew, and its method is kept. -/
theorem beside_indexed :
    (newIndex.after blank besideVisits).relative (twoModules (classText "B")) (Path.ofText "a.py") = .ok "a.py" ∧
    ((newIndex.after blank besideVisits).indexFile blank (twoModules (classText "B"))
        (Path.ofText "a.py") false).result =
      .ok { path := "a.py", status := .indexed, embedded := 1, kept := 1 } := by
  obtain ⟨file, hp, hdefinitions⟩ := parse_classText "B" mem_classNames.2
  obtain ⟨hfresh, hvanished, hchunks⟩ := beside_numbers (chunks_classText mem_classNames.2 hdefinitions "a.py")
  obtain ⟨hroot, hstore⟩ := beside_before
  obtain ⟨hnamed, hread, -⟩ := (twoModules_stands mem_classNames.2 hp).congr hroot
  dsimp only at hnamed hread
  refine ⟨hnamed, ?_⟩
  rw [← hstore] at hfresh hvanished
  have hnew : (newIndex.after blank besideVisits).store.hash? "a.py" ≠ some (hashText (classText "B")) := by
    rw [hstore, besideStore, hash?_replaced, if_pos rfl]
    intro he
    exact renamed_hashes_ne (Option.some.inj he)
  generalize newIndex.after blank besideVisits = ix at *
  have hupdated := updated blank ix "a.py" (classText "B")
  unfold indexFile
  rw [hnamed]
  dsimp only
  rw [hread]
  dsimp only
  cases hupdate : ix.update blank "a.py" (classText "B") with
  | mk ix₁ result =>
    rw [hupdate] at hupdated
    dsimp only at hupdated ⊢
    cases hupdated with
    | unchanged known => exact absurd known hnew
    | malformed _ unparsed =>
      obtain ⟨fault, hfault, -⟩ := unparsed
      rw [hp] at hfault
      cases hfault
    | gaveUp _ reason nested =>
      rw [hp] at nested
      cases nested
    | refused _ _ _ fault answer =>
      unfold embed at answer
      split at answer <;> cases answer
    | brought _ _ parsed vectors _ =>
      rw [hp] at parsed
      cases parsed
      rw [hfresh, hvanished, hchunks]
      rfl

/-- The call about a renamed class beside another module, and what is known of it. -/
theorem renamed_confined :
    (newIndex.after blank besideVisits).Reachable ∧ OneEach blank ∧
    (newIndex.after blank besideVisits).relative (twoModules (classText "B")) (Path.ofText "a.py") = .ok "a.py" ∧
    ((newIndex.after blank besideVisits).indexFile blank (twoModules (classText "B"))
        (Path.ofText "a.py") false).result =
      .ok { path := "a.py", status := .indexed, embedded := 1, kept := 1 } ∧
    ((newIndex.after blank besideVisits).store.recordsFor "b.py").length = 1 ∧
    ((newIndex.after blank besideVisits).indexFile blank (twoModules (classText "B"))
        (Path.ofText "a.py") false).index.store.without "a.py" =
      (newIndex.after blank besideVisits).store.without "a.py" ∧
    Reported (twoModules (classText "B")) (newIndex.after blank besideVisits) "a.py"
      ((newIndex.after blank besideVisits).indexFile blank (twoModules (classText "B"))
          (Path.ofText "a.py") false) := by
  have hreachable : (newIndex.after blank besideVisits).Reachable := newIndex_reachable.after blank besideVisits
  obtain ⟨hnamed, hindexed⟩ := beside_indexed
  obtain ⟨-, hconfined⟩ := indexFile_confined hreachable blank_oneEach (twoModules (classText "B")) "a.py" false
  obtain ⟨-, hothers, hreported⟩ := hconfined "a.py" hnamed
  refine ⟨hreachable, blank_oneEach, hnamed, hindexed, ?_, hothers, hreported⟩
  rw [beside_before.2, beside_held.2]
  rfl

end CodeAgent.SemanticIndex
