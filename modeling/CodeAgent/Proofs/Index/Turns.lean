import CodeAgent.Host.Usual
import CodeAgent.Index.Turns
import CodeAgent.Proofs.Index.Mirror
import CodeAgent.Proofs.Index.Notice

namespace CodeAgent

namespace Store

variable {s : Store}

def bare (r : StoredChunk) : StoredChunk := { r with vector := [] }

def unvectored (s : Store) : Store := { s with records := s.records.map bare }

theorem unvectored_upsert (s : Store) (rs : List StoredChunk) :
    (s.upsert rs).unvectored = s.unvectored.upsert (rs.map bare) := by
  have hone (s : Store) (r : StoredChunk) : (s.upsertOne r).unvectored = s.unvectored.upsertOne (bare r) := by
    simp only [unvectored, upsertOne, List.map_append, List.map_cons, List.map_nil, List.filter_map]
    rfl
  induction rs generalizing s with
  | nil => rfl
  | cons r rest ih => exact (ih (s.upsertOne r)).trans (congrArg (·.upsert (rest.map bare)) (hone s r))

theorem unvectored_delete (s : Store) (ids : List Text) : (s.delete ids).unvectored = s.unvectored.delete ids := by
  simp only [unvectored, delete, List.filter_map]
  rfl

theorem recordsFor_unvectored (s : Store) (path : Text) :
    s.unvectored.recordsFor path = (s.recordsFor path).map bare := by
  simp only [unvectored, recordsFor, List.filter_map]
  rfl

theorem Distinct.unvectored (h : s.Distinct) : s.unvectored.Distinct := by
  unfold Distinct Store.unvectored
  rw [List.map_map]
  exact h

end Store

namespace SemanticIndex
open Source Disk

variable {e : Embedder} {ix : SemanticIndex} {s : Store} {name source : Text} {cs : List Chunk}
variable {records : List StoredChunk}

theorem agree_bare : Agree (records.map Store.bare) cs ↔ Agree records cs := by
  have hcovered (c : Chunk) : (∃ r ∈ records.map Store.bare, r.chunk.id = c.id ∧ r.chunk.hash = c.hash) ↔
      ∃ r ∈ records, r.chunk.id = c.id ∧ r.chunk.hash = c.hash := by
    simp [Store.bare]
  constructor
  · exact fun h => ⟨fun c hc => (hcovered c).mp (h.covered c hc),
      fun r hr => h.needed (Store.bare r) (List.mem_map_of_mem hr)⟩
  · refine fun h => ⟨fun c hc => (hcovered c).mpr (h.covered c hc), fun r hr => ?_⟩
    obtain ⟨r', hr', rfl⟩ := List.mem_map.mp hr
    exact h.needed r' hr'

/-- Whatever vectors the fresh chunks get, as long as each gets one, the records of the file are its chunks. -/
theorem agree_replaceChunks {file : List Stmt} {vectors : List Vector64} (h : s.Distinct)
    (hlength : vectors.length = (freshChunks (s.recordsFor name) (chunks name source file)).length) :
    Agree ((replaceChunks s name source (freshChunks (s.recordsFor name) (chunks name source file)) vectors
      (vanishedIds (s.recordsFor name) (chunks name source file))).recordsFor name) (chunks name source file) := by
  have hfresh : freshChunks (s.unvectored.recordsFor name) (chunks name source file) =
      freshChunks (s.recordsFor name) (chunks name source file) := by
    rw [Store.recordsFor_unvectored]
    simp only [freshChunks, holds, List.any_map]
    rfl
  have hvanished : vanishedIds (s.unvectored.recordsFor name) (chunks name source file) =
      vanishedIds (s.recordsFor name) (chunks name source file) := by
    rw [Store.recordsFor_unvectored]
    simp only [vanishedIds, List.map_map]
    rfl
  have hagree : Agree ((replaced (fun _ => []) s.unvectored name source (chunks name source file)).recordsFor name) _ :=
    agree_replaced h.unvectored (nodup_chunks name source file) fun c hc => path_of_mem_chunks hc
  unfold replaced at hagree
  rw [hfresh, hvanished] at hagree
  rw [← agree_bare, ← Store.recordsFor_unvectored]
  generalize freshChunks (s.recordsFor name) (chunks name source file) = fresh at hlength hagree ⊢
  have hbare : ((fresh.zip vectors).map fun x => Store.bare ⟨x.1, x.2⟩) =
      (fresh.zip (fresh.map fun _ => ([] : Vector64))).map fun x => (⟨x.1, x.2⟩ : StoredChunk) := by
    clear hagree
    induction fresh generalizing vectors with
    | nil => rfl
    | cons c rest ih =>
      cases vectors with
      | nil => cases hlength
      | cons v vectors => exact congrArg _ (ih (by simpa using hlength))
  have hstore : ∀ vanished, (replaceChunks s name source fresh vectors vanished).unvectored =
      replaceChunks s.unvectored name source fresh (fresh.map fun _ => []) vanished := by
    intro vanished
    change ((s.upsert ((fresh.zip vectors).map fun x => ⟨x.1, x.2⟩)).delete vanished).unvectored.setHash _ _ = _
    rw [Store.unvectored_delete, Store.unvectored_upsert, List.map_map]
    exact congrArg (fun rs => ((s.unvectored.upsert rs).delete vanished).setHash name (hashText source)) hbare
  rw [hstore]
  exact hagree

theorem removeFile_eq_forget {d : Disk} {p : Path} (h : ix.relative d p = .ok name) :
    (ix.removeFile d p false).index = (ix.forget name).1 := by
  unfold removeFile
  rw [h]
  rfl

/-- An embedding service that answers every batch, with one vector a text. -/
def Serves (e : Embedder) : Prop :=
  ∀ asked texts, ∃ vectors, e asked texts = .ok vectors ∧ vectors.length = texts.length

variable [Host]

/-- The store holds a file as it is in a text: its digest, and records with the ids and hashes of its chunks. -/
structure Holds (s : Store) (name source : Text) : Prop where
  hash : s.hash? name = some (hashText source)
  records : ∃ file, parse .loop source = .ok file ∧ Agree (s.recordsFor name) (chunks name source file)

/-- A store that holds one file as it is in one of some texts, or nothing of it. -/
structure Sound (known : Text → Prop) (name : Text) (ix : SemanticIndex) : Prop where
  distinct : ix.store.Distinct
  state : ix.Lacks name ∨ ∃ source, known source ∧ Holds ix.store name source

section
variable {known : Text → Prop} (h : Sound known name ix)
include h

theorem Sound.forget : Sound known name (ix.forget name).1 :=
  ⟨distinct_forgotten h.distinct name, Or.inl (forget_lacks ix name)⟩

/-- After a text that can be parsed was committed, the store holds the file as it is in the text. -/
theorem Sound.update (hs : Serves e) (hfree : ∀ t t', known t → known t' → hashText t = hashText t' → t = t')
    (hk : known source) : Sound known name (ix.update e name source).1 ∧
      ∀ file, parse .loop source = .ok file → Holds (ix.update e name source).1.store name source := by
  unfold SemanticIndex.update
  dsimp only
  split
  · rename_i hknown
    refine ⟨h, fun file _ => ?_⟩
    rcases h.state with hlacks | ⟨source', hk', hholds⟩
    · rw [hlacks.hash] at hknown
      cases hknown
    · obtain rfl : source' = source := by
        refine hfree _ _ hk' hk ?_
        have hhash := hholds.hash
        rw [hknown] at hhash
        exact (Option.some.inj hhash).symm
      exact hholds
  · split
    · rename_i hp
      refine ⟨h, fun file hp' => ?_⟩
      rw [hp] at hp'
      cases hp'
    · rename_i hp
      refine ⟨h, fun file hp' => ?_⟩
      rw [hp] at hp'
      cases hp'
    · rename_i file hp
      obtain ⟨asked, hasked⟩ := embed_eq e ix
        ((freshChunks (ix.store.recordsFor name) (chunks name source file)).map (·.text))
      have hembed : ∃ vectors,
          (ix.embed e ((freshChunks (ix.store.recordsFor name) (chunks name source file)).map (·.text))).2 =
            .ok vectors ∧
          vectors.length = (freshChunks (ix.store.recordsFor name) (chunks name source file)).length := by
        unfold embed
        split
        · rename_i hempty
          rw [List.isEmpty_iff, List.map_eq_nil_iff] at hempty
          exact ⟨[], rfl, by simp [hempty]⟩
        · obtain ⟨vectors, hv, hlength⟩ := hs ix.asked
            ((freshChunks (ix.store.recordsFor name) (chunks name source file)).map (·.text))
          exact ⟨vectors, hv, by rw [hlength, List.length_map]⟩
      obtain ⟨vectors, hv, hlength⟩ := hembed
      split
      · rename_i he
        rw [he] at hv
        cases hv
      · rename_i he
        rw [he] at hv hasked
        cases hv
        obtain rfl : _ = { ix with asked } := hasked
        have hholds : Holds (replaceChunks ix.store name source
            (freshChunks (ix.store.recordsFor name) (chunks name source file)) vectors
            (vanishedIds (ix.store.recordsFor name) (chunks name source file))) name source :=
          ⟨(hash?_replaceChunks name).trans (if_pos rfl), file, hp, agree_replaceChunks h.distinct hlength⟩
        exact ⟨⟨(h.distinct.upsert _).delete _, Or.inr ⟨source, hk, hholds⟩⟩, fun _ _ => hholds⟩

end

end SemanticIndex

/-- Turns after which a call still waits with what it has read, and the disk is as it was. -/
def Turn.Spares (call : Nat) : Turn → Prop
  | .disk _ => False
  | .look other => other ≠ call
  | .commit other => other ≠ call
  | .remove => True

def Turn.Looks (t : Turn) : Prop := ∃ call, t = .look call

/-- The last call to have the lock has begun after the last change of the disk: it indexes the file, or it removes a
file that is gone. -/
inductive Turn.LastIsFresh (gone : Prop) : List Turn → Prop where
  | index {past between rest : List Turn} {call : Nat} (hb : ∀ t ∈ between, t.Spares call)
      (hr : ∀ t ∈ rest, t.Looks) : Turn.LastIsFresh gone (past ++ .look call :: (between ++ .commit call :: rest))
  | remove {past rest : List Turn} (hg : gone) (hr : ∀ t ∈ rest, t.Looks) :
      Turn.LastIsFresh gone (past ++ .remove :: rest)

/-- Some call has begun after the last change of the disk: it indexes the file, or it removes a file that is gone. -/
inductive Turn.SomeIsFresh (gone : Prop) : List Turn → Prop where
  | index {past rest : List Turn} {call : Nat} (hr : ∀ t ∈ rest, ∀ d, t ≠ .disk d) :
      Turn.SomeIsFresh gone (past ++ .look call :: rest)
  | remove {past rest : List Turn} (hg : gone) (hr : ∀ t ∈ rest, ∀ d, t ≠ .disk d) :
      Turn.SomeIsFresh gone (past ++ .remove :: rest)

namespace Contest
open Source Disk SemanticIndex

variable {e : Embedder} {p : Path} {c : Contest} {turns : List Turn} {name source : Text} {d : Disk} {call : Nat}

section

variable [Host]

/-- A call that indexes a file without an overlap is a read and a commit. -/
theorem indexFile_eq_turns (e : Embedder) (p : Path) (c : Contest) (call : Nat) (hfree : c.looked = []) :
    c.run e p [.look call, .commit call] = { c with index := (c.index.indexFile e c.disk p false).index } := by
  obtain ⟨d, ix, looked⟩ := c
  obtain rfl : looked = [] := hfree
  unfold run
  simp only [List.foldl_cons, List.foldl_nil, turn, look]
  unfold SemanticIndex.indexFile
  cases hn : ix.relative d p with
  | error fault => simp [Except.map, Table.get?]
  | ok name =>
    simp only [Except.map, Table.set, Table.get?, Table.erase]
    cases hread : readSource d (ix.root.join (Path.ofText name)) with
    | missing => simp [commit]
    | unreadable => simp [commit]
    | refused fault => simp [commit]
    | text source =>
      simp only [commit, ↓reduceIte]
      cases hu : ix.update e name source with
      | mk ix₁ result =>
        cases result with
        | error fault => simp
        | ok outcome => simp [settle_index]

def path (c : Contest) (name : Text) : Path := c.index.root.join (Path.ofText name)

/-- What is assumed of the calls: the file has one name on every disk, the embedding service answers, the texts that
the file can have are known and their digests differ, and none of the calls has begun. -/
structure Fair (known : Text → Prop) (e : Embedder) (p : Path) (name : Text) (turns : List Turn)
    (c : Contest) : Prop where
  idle : c.looked = []
  serves : Serves e
  named : ∀ d ∈ c.disks turns, c.index.relative d p = .ok name ∧ c.index.relative d (Path.ofText name) = .ok name
  met : ∀ d ∈ c.disks turns, ∀ source, readSource d (c.path name) = .text source → known source
  distinguished : ∀ t t', known t → known t' → hashText t = hashText t' → t = t'
  sound : Sound known name c.index

/-- What holds between the turns: the calls that wait have read texts that the file had. -/
structure Underway (known : Text → Prop) (name : Text) (c₀ c : Contest) : Prop where
  root : c.index.root = c₀.index.root
  sound : Sound known name c.index
  looked : ∀ call name' read, c.looked.get? call = some (name', read) →
    name' = name ∧ ∀ source, read = .text source → known source

section
variable {known : Text → Prop} {c₀ : Contest} {t : Turn}

/-- The disks of the later turns are among those of all turns. -/
theorem mem_disks_turn (h : d ∈ (c.turn e p t).disks turns) : d ∈ c.disks (t :: turns) := by
  have hsame (hdisk : (c.turn e p t).disk = c.disk) : d ∈ c.disks (t :: turns) := by
    unfold disks at h ⊢
    rw [hdisk] at h
    rcases List.mem_cons.mp h with rfl | h
    · exact List.mem_cons_self
    · refine List.mem_cons_of_mem _ ?_
      cases t with
      | disk d' => exact List.mem_cons_of_mem _ h
      | look call => exact h
      | commit call => exact h
      | remove => exact h
  cases t with
  | disk d' => exact List.mem_cons_of_mem _ h
  | look call =>
    refine hsame ?_
    unfold turn
    dsimp only
    split <;> rfl
  | commit call =>
    refine hsame ?_
    unfold turn
    dsimp only
    split <;> rfl
  | remove => exact hsame rfl

variable (hs : Serves e) (hfree : ∀ t t', known t → known t' → hashText t = hashText t' → t = t')
  (hn : ∀ d ∈ c₀.disks turns, c₀.index.relative d p = .ok name ∧ c₀.index.relative d (Path.ofText name) = .ok name)
  (hk : ∀ d ∈ c₀.disks turns, ∀ source, readSource d (c₀.path name) = .text source → known source)
include hs hfree hn hk

/-- Every turn keeps what holds between the turns. -/
theorem Underway.turn (h : Underway known name c₀ c) (hd : c.disk ∈ c₀.disks turns) (t : Turn) :
    Underway known name c₀ (c.turn e p t) := by
  obtain ⟨hnamed, hself⟩ := hn c.disk hd
  rw [← relative_congr h.root] at hnamed hself
  cases t with
  | disk d => exact ⟨h.root, h.sound, h.looked⟩
  | remove =>
    unfold Contest.turn
    dsimp only
    rw [removeFile_eq_forget hnamed]
    exact ⟨h.root, h.sound.forget, h.looked⟩
  | look call =>
    have hlook : c.index.look c.disk p = .ok (name, readSource c.disk (c₀.path name)) := by
      unfold look path
      rw [hnamed, h.root]
      rfl
    unfold Contest.turn
    dsimp only
    rw [hlook]
    refine ⟨h.root, h.sound, fun call' name' read hread => ?_⟩
    dsimp only at hread
    rw [Table.get?_set] at hread
    split at hread
    · cases hread
      exact ⟨rfl, hk c.disk hd⟩
    · exact h.looked call' name' read hread
  | commit call =>
    unfold Contest.turn
    dsimp only
    split
    · rename_i name' read hread
      obtain ⟨rfl, hknown⟩ := h.looked call name' read hread
      have hlooked : ∀ call' name'' read', (c.looked.erase call).get? call' = some (name'', read') →
          name'' = name' ∧ ∀ source, read' = .text source → known source := by
        intro call' name'' read' hread'
        rw [Table.get?_erase] at hread'
        split at hread'
        · cases hread'
        · exact h.looked call' name'' read' hread'
      cases read with
      | unreadable => exact ⟨h.root, h.sound, hlooked⟩
      | refused fault => exact ⟨h.root, h.sound, hlooked⟩
      | missing =>
        unfold commit
        rw [removeFile_eq_forget hself]
        exact ⟨h.root, h.sound.forget, hlooked⟩
      | text source =>
        have hminds := (update_minds e c.index name' source).1
        exact ⟨hminds.root.trans h.root, (h.sound.update hs hfree (hknown source rfl)).1, hlooked⟩
    · exact h

theorem Underway.run {later : List Turn} (h : Underway known name c₀ c)
    (hd : ∀ d ∈ c.disks later, d ∈ c₀.disks turns) : Underway known name c₀ (c.run e p later) := by
  induction later generalizing c with
  | nil => exact h
  | cons t rest ih =>
    refine ih (h.turn hs hfree hn hk (hd _ List.mem_cons_self) t) fun d hm => hd d (mem_disks_turn hm)

end

theorem turn_look (e : Embedder) (p : Path) (c : Contest) (call : Nat) :
    (c.turn e p (.look call)).disk = c.disk ∧ (c.turn e p (.look call)).index = c.index := by
  unfold turn
  dsimp only
  split <;> exact ⟨rfl, rfl⟩

theorem run_looks (h : ∀ t ∈ turns, t.Looks) :
    (c.run e p turns).disk = c.disk ∧ (c.run e p turns).index = c.index := by
  induction turns generalizing c with
  | nil => exact ⟨rfl, rfl⟩
  | cons t rest ih =>
    rw [List.forall_mem_cons] at h
    obtain ⟨⟨call, rfl⟩, hrest⟩ := h
    obtain ⟨hdisk, hindex⟩ := turn_look e p c call
    obtain ⟨hdisk', hindex'⟩ := ih (c := c.turn e p (.look call)) hrest
    exact ⟨hdisk'.trans hdisk, hindex'.trans hindex⟩

/-- A turn that spares a call leaves the disk and what the call has read. -/
theorem turn_spares {t : Turn} (h : t.Spares call) (e : Embedder) (p : Path) (c : Contest) :
    (c.turn e p t).disk = c.disk ∧ (c.turn e p t).looked.get? call = c.looked.get? call := by
  unfold Contest.turn
  cases t with
  | disk d => cases h
  | look other =>
    dsimp only
    split
    · exact ⟨rfl, Table.get?_set_of_ne (Ne.symm h) _ _⟩
    · exact ⟨rfl, rfl⟩
  | commit other =>
    dsimp only
    split
    · refine ⟨rfl, ?_⟩
      rw [Table.get?_erase, if_neg (Ne.symm h)]
    · exact ⟨rfl, rfl⟩
  | remove => exact ⟨rfl, rfl⟩

theorem run_spares (h : ∀ t ∈ turns, t.Spares call) :
    (c.run e p turns).disk = c.disk ∧ (c.run e p turns).looked.get? call = c.looked.get? call := by
  induction turns generalizing c with
  | nil => exact ⟨rfl, rfl⟩
  | cons t rest ih =>
    rw [List.forall_mem_cons] at h
    obtain ⟨hdisk, hlooked⟩ := turn_spares h.1 e p c
    obtain ⟨hdisk', hlooked'⟩ := ih (c := c.turn e p t) h.2
    exact ⟨hdisk'.trans hdisk, hlooked'.trans hlooked⟩

theorem run_append (e : Embedder) (p : Path) (c : Contest) (before after : List Turn) :
    c.run e p (before ++ after) = (c.run e p before).run e p after := List.foldl_append

/-- The disk between two turns is one that the calls can meet. -/
theorem disk_run_mem (before after : List Turn) : (c.run e p before).disk ∈ c.disks (before ++ after) := by
  induction before generalizing c with
  | nil => exact List.mem_cons_self
  | cons t rest ih => exact mem_disks_turn (ih (c := c.turn e p t))

theorem Fair.underway {known : Text → Prop} {past later : List Turn} (h : Fair known e p name (past ++ later) c) :
    Underway known name c (c.run e p past) := by
  have hstart : Underway known name c c := by
    refine ⟨rfl, h.sound, fun call name' read hread => ?_⟩
    rw [h.idle] at hread
    cases hread
  refine hstart.run h.serves h.distinguished h.named h.met fun d hd => ?_
  rcases List.mem_cons.mp hd with rfl | hd
  · exact List.mem_cons_self
  · refine List.mem_cons_of_mem _ ?_
    rw [List.filterMap_append]
    exact List.mem_append_left _ hd

/-- The store holds the file as the disk has it, as far as that can be parsed, and nothing of it when it is gone. -/
structure Shows (c : Contest) (q : Path) (name : Text) : Prop where
  text : ∀ source file, readSource c.disk q = .text source → parse .loop source = .ok file →
      Holds c.index.store name source
  gone : readSource c.disk q = .missing → c.index.Lacks name

theorem Shows.looks {q : Path} (h : Shows c q name) (ht : ∀ t ∈ turns, t.Looks) : Shows (c.run e p turns) q name := by
  obtain ⟨hdisk, hindex⟩ := run_looks (c := c) (e := e) (p := p) ht
  refine ⟨fun source file => ?_, ?_⟩
  · rw [hdisk, hindex]
    exact h.text source file
  · rw [hdisk, hindex]
    exact h.gone

section
variable {known : Text → Prop} {c₀ : Contest} (h : Underway known name c₀ c)
include h

/-- What a call begins with it still has when its turn comes, and so has the disk. -/
theorem Underway.waits {between : List Turn} (hn : c₀.index.relative c.disk p = .ok name)
    (hb : ∀ t ∈ between, t.Spares call) :
    (c.run e p (.look call :: between)).looked.get? call =
      some (name, readSource (c.run e p (.look call :: between)).disk (c₀.path name)) := by
  have hlook : c.index.look c.disk p = .ok (name, readSource c.disk (c₀.path name)) := by
    unfold look path
    rw [relative_congr h.root, hn, h.root]
    rfl
  obtain ⟨hdisk, hlooked⟩ := run_spares (c := c.turn e p (.look call)) (e := e) (p := p) hb
  change ((c.turn e p (.look call)).run e p between).looked.get? call =
    some (name, readSource ((c.turn e p (.look call)).run e p between).disk (c₀.path name))
  rw [hlooked, hdisk]
  unfold Contest.turn
  dsimp only
  rw [hlook]
  exact Table.get?_set_self _ _ _

/-- The commit of what was just read shows the file. -/
theorem Underway.commit_shows (hs : Serves e) (hfree : ∀ t t', known t → known t' → hashText t = hashText t' → t = t')
    (hn : c₀.index.relative c.disk (Path.ofText name) = .ok name)
    (hread : c.looked.get? call = some (name, readSource c.disk (c₀.path name))) :
    Shows (c.turn e p (.commit call)) (c₀.path name) name := by
  obtain ⟨-, hknown⟩ := h.looked call name _ hread
  unfold Contest.turn
  dsimp only
  rw [hread]
  dsimp only
  constructor
  · intro source file hsource hp
    dsimp only at hsource ⊢
    rw [hsource]
    exact (h.sound.update hs hfree (hknown source hsource)).2 file hp
  · intro hgone
    dsimp only at hgone ⊢
    rw [hgone]
    unfold commit
    rw [removeFile_eq_forget ((relative_congr h.root _ _).trans hn)]
    exact forget_lacks _ name

end

/-- In every order of reads, turns under the lock and changes of the disk: when the last call to have the lock has
begun after the last change, the store holds the file as it is, or nothing of it when it is gone. -/
theorem shows_of_last_fresh {known : Text → Prop} (h : Fair known e p name turns c)
    (hlast : Turn.LastIsFresh (readSource (c.run e p turns).disk (c.path name) = .missing) turns) :
    Shows (c.run e p turns) (c.path name) name := by
  cases hlast with
  | @remove past rest hg hr =>
    obtain ⟨hnamed, -⟩ := h.named _ (disk_run_mem (e := e) (p := p) past (.remove :: rest))
    rw [← relative_congr h.underway.root] at hnamed
    have hrun : c.run e p (past ++ .remove :: rest) = ((c.run e p past).turn e p .remove).run e p rest :=
      run_append e p c past _
    obtain ⟨hdisk, -⟩ := run_looks (c := (c.run e p past).turn e p .remove) (e := e) (p := p) hr
    rw [hrun] at hg ⊢
    refine Shows.looks ⟨fun source file hsource => ?_, fun _ => ?_⟩ hr
    · rw [← hdisk, hg] at hsource
      cases hsource
    · unfold turn
      dsimp only
      rw [removeFile_eq_forget hnamed]
      exact forget_lacks _ name
  | @index past between rest call hb hr =>
    have hnamed := h.named _ (disk_run_mem (e := e) (p := p) past (.look call :: (between ++ .commit call :: rest)))
    have hwaits := h.underway.waits (e := e) hnamed.1 hb
    have hsplit : past ++ .look call :: (between ++ .commit call :: rest) =
        (past ++ .look call :: between) ++ .commit call :: rest := by simp
    rw [hsplit] at h ⊢
    have hself := h.named _ (disk_run_mem (e := e) (p := p) (past ++ .look call :: between) (.commit call :: rest))
    rw [← run_append] at hwaits
    have hrun : c.run e p (past ++ .look call :: between ++ .commit call :: rest) =
        ((c.run e p (past ++ .look call :: between)).turn e p (.commit call)).run e p rest :=
      run_append e p c _ _
    rw [hrun]
    exact (h.underway.commit_shows h.serves h.distinguished hself.2 hwaits).looks hr

end

attribute [local instance] Host.usual

def shortTexts : List Text := ["a", "b"]

def shortContest : Contest := { disk := oneModule "a", index := newIndex }

def lateCommit : List Turn := [.look 0, .disk (oneModule "b"), .look 1, .commit 1, .commit 0]

def lateRemoval : List Turn := [.look 0, .commit 0, .remove]

def timelyCommit : List Turn := [.look 0, .disk (oneModule "b"), .look 1, .commit 0, .commit 1]

theorem forall_shortTexts {P : Text → Prop} (ha : P "a") (hb : P "b") : ∀ t ∈ shortTexts, P t := by
  intro t ht
  rcases List.mem_cons.mp ht with rfl | ht
  · exact ha
  · exact List.mem_singleton.mp ht ▸ hb

theorem parse_shortTexts : ∀ t ∈ shortTexts, ∃ file, parse .loop t = .ok file := by
  have hok : ∀ t ∈ shortTexts, (parse .loop t).isOk := by decide +kernel
  intro t ht
  have h := hok t ht
  cases hp : parse .loop t with
  | ok file => exact ⟨file, rfl⟩
  | error fault =>
    rw [hp] at h
    cases h

theorem read_shortTexts : ∀ t ∈ shortTexts, readSource (oneModule t) (shortContest.path "a.py") = .text t := by
  have hread : ∀ t ∈ shortTexts, (oneModule t).readText ⟨"/", ["w", "a.py"]⟩ = .ok t :=
    forall_shortTexts (by cbv) (by cbv)
  exact fun t ht => readSource_of_readText (hread t ht)

/-- Turns on short texts are fair. -/
theorem short_fair {turns : List Turn} (h : ∀ d ∈ shortContest.disks turns, ∃ t ∈ shortTexts, d = oneModule t) :
    Fair (· ∈ shortTexts) blank (Path.ofText "a.py") "a.py" turns shortContest where
  idle := rfl
  serves asked texts := ⟨_, rfl, List.length_map _⟩
  named := by
    have hnamed : ∀ t ∈ shortTexts, newIndex.relative (oneModule t) (Path.ofText "a.py") = .ok "a.py" :=
      forall_shortTexts (by cbv) (by cbv)
    intro d hd
    obtain ⟨t, ht, rfl⟩ := h d hd
    exact ⟨hnamed t ht, hnamed t ht⟩
  met := by
    intro d hd source hsource
    obtain ⟨t, ht, rfl⟩ := h d hd
    rw [read_shortTexts t ht] at hsource
    cases hsource
    exact ht
  distinguished := by
    have hn : (shortTexts.map hashText).Nodup := by decide +kernel
    exact fun t t' ht ht' he => List.inj_on_of_nodup_map hn ht ht' he
  sound := ⟨List.nodup_nil, Or.inl ⟨rfl, rfl⟩⟩

theorem short_disks {turns : List Turn}
    (h : ∀ d ∈ shortContest.disks turns, d ∈ [oneModule "a", oneModule "b"]) :
    ∀ d ∈ shortContest.disks turns, ∃ t ∈ shortTexts, d = oneModule t := by
  intro d hd
  rcases List.mem_cons.mp (h d hd) with rfl | hd
  · exact ⟨"a", by decide, rfl⟩
  · exact ⟨"b", by decide, List.mem_singleton.mp hd⟩

/-- A run of calls that are assumed what `Fair` says: the texts of the file can be parsed, no call waits at the end and
one of them has begun after the last change, and yet the store does not show the file. -/
structure Misled (known : Text → Prop) (e : Embedder) (p : Path) (name : Text) (turns : List Turn)
    (c : Contest) : Prop where
  fair : Fair known e p name turns c
  parsed : ∀ t, known t → ∃ file, parse .loop t = .ok file
  finished : (c.run e p turns).looked = []
  fresh : Turn.SomeIsFresh (readSource (c.run e p turns).disk (c.path name) = .missing) turns
  wrong : ¬ Shows (c.run e p turns) (c.path name) name

/-- That some call has begun after the last change is not enough: an older call can have the lock later and bring the
old text back, and a call that removes the file does not look whether it is there. -/
theorem late_turns_mislead :
    Misled (· ∈ shortTexts) blank (Path.ofText "a.py") "a.py" lateCommit shortContest ∧
    Misled (· ∈ shortTexts) blank (Path.ofText "a.py") "a.py" lateRemoval shortContest := by
  have hlast (turns : List Turn) (t : Text) (ht : t ∈ shortTexts)
      (hdisk : (shortContest.run blank (Path.ofText "a.py") turns).disk = oneModule t)
      (hhash : (shortContest.run blank (Path.ofText "a.py") turns).index.store.hash? "a.py" ≠ some (hashText t)) :
      ¬ Shows (shortContest.run blank (Path.ofText "a.py") turns) (shortContest.path "a.py") "a.py" := by
    intro hshows
    obtain ⟨file, hp⟩ := parse_shortTexts t ht
    exact hhash (hshows.text t file (hdisk ▸ read_shortTexts t ht) hp).hash
  constructor
  · exact ⟨short_fair (short_disks (by decide)), parse_shortTexts, by decide +kernel,
      @Turn.SomeIsFresh.index _ [.look 0, .disk (oneModule "b")] [.commit 1, .commit 0] 1 (by simp),
      hlast lateCommit "b" (by decide) rfl (by decide +kernel)⟩
  · exact ⟨short_fair (short_disks (by decide)), parse_shortTexts, by decide +kernel,
      @Turn.SomeIsFresh.index _ [] [.commit 0, .remove] 0 (by simp),
      hlast lateRemoval "a" (by decide) rfl (by decide +kernel)⟩

theorem timely_commit_shows :
    Fair (· ∈ shortTexts) blank (Path.ofText "a.py") "a.py" timelyCommit shortContest ∧
    Turn.LastIsFresh (readSource (shortContest.run blank (Path.ofText "a.py") timelyCommit).disk
      (shortContest.path "a.py") = .missing) timelyCommit ∧
    (shortContest.run blank (Path.ofText "a.py") timelyCommit).index.store.size = 1 ∧
    Shows (shortContest.run blank (Path.ofText "a.py") timelyCommit) (shortContest.path "a.py") "a.py" := by
  have hfair : Fair (· ∈ shortTexts) blank (Path.ofText "a.py") "a.py" timelyCommit shortContest :=
    short_fair (short_disks (by decide))
  have hlast : Turn.LastIsFresh (readSource (shortContest.run blank (Path.ofText "a.py") timelyCommit).disk
      (shortContest.path "a.py") = .missing) timelyCommit :=
    @Turn.LastIsFresh.index _ [.look 0, .disk (oneModule "b")] [.commit 0] [] 1 (by simp [Turn.Spares]) (by simp)
  exact ⟨hfair, hlast, by decide +kernel, shows_of_last_fresh hfair hlast⟩

end Contest
end CodeAgent
