import CodeAgent.Index.Basic
import CodeAgent.Proofs.Source.Chunk
import CodeAgent.Proofs.Store.Records

namespace CodeAgent.SemanticIndex

open Source

variable {f : Text → Vector64} {e : Embedder} {met : Text → Text → Prop} {s : Store}

variable {name source : Text} {file : List Stmt} {existing : List StoredChunk} {cs : List Chunk}

/-- An embedding service that gives each text its own vector whenever it answers. -/
def Computes (e : Embedder) (f : Text → Vector64) : Prop :=
  ∀ asked texts vectors, e asked texts = .ok vectors → vectors = texts.map f

/-- Records and chunks have the same ids with the same hashes. -/
structure Agree (records : List StoredChunk) (cs : List Chunk) : Prop where
  covered : ∀ c ∈ cs, ∃ r ∈ records, r.chunk.id = c.id ∧ r.chunk.hash = c.hash
  needed : ∀ r ∈ records, ∃ c ∈ cs, r.chunk.id = c.id ∧ r.chunk.hash = c.hash

theorem holds_iff {c : Chunk} :
    holds existing c = true ↔ ∃ r ∈ existing, r.chunk.id = c.id ∧ r.chunk.hash = c.hash := by
  simp [holds]

theorem mem_freshChunks {c : Chunk} :
    c ∈ freshChunks existing cs ↔ c ∈ cs ∧ ¬ ∃ r ∈ existing, r.chunk.id = c.id ∧ r.chunk.hash = c.hash := by
  rw [freshChunks, List.mem_filter, ← holds_iff]
  simp

theorem mem_vanishedIds {id : Text} :
    id ∈ vanishedIds existing cs ↔ (∃ r ∈ existing, r.chunk.id = id) ∧ ∀ c ∈ cs, c.id ≠ id := by
  simp [vanishedIds]

def replaced (f : Text → Vector64) (s : Store) (name source : Text) (cs : List Chunk) : Store :=
  let fresh := freshChunks (s.recordsFor name) cs
  replaceChunks s name source fresh (fresh.map fun c => f c.text) (vanishedIds (s.recordsFor name) cs)

/-- After an update a record is a fresh one, or an old one that was neither replaced nor has vanished. -/
theorem mem_replaced (hn : (cs.map (·.id)).Nodup) {r : StoredChunk} :
    r ∈ (replaced f s name source cs).records ↔
      (∃ c ∈ freshChunks (s.recordsFor name) cs, r = ⟨c, f c.text⟩) ∨
      (r ∈ s.records ∧ (∀ c ∈ freshChunks (s.recordsFor name) cs, r.chunk.id ≠ c.id) ∧
        r.chunk.id ∉ vanishedIds (s.recordsFor name) cs) := by
  have hfresh : ((freshChunks (s.recordsFor name) cs).map (·.id)).Nodup :=
    hn.sublist (List.filter_sublist.map _)
  have hkept : ∀ c ∈ freshChunks (s.recordsFor name) cs, c.id ∉ vanishedIds (s.recordsFor name) cs := by
    intro c hc hv
    exact (mem_vanishedIds.mp hv).2 c (mem_freshChunks.mp hc).1 rfl
  unfold replaced
  generalize freshChunks (s.recordsFor name) cs = fresh at hfresh hkept ⊢
  generalize vanishedIds (s.recordsFor name) cs = vanished at hkept ⊢
  have hrecords : ((fresh.zip (fresh.map fun c => f c.text)).map fun x => (⟨x.1, x.2⟩ : StoredChunk)) =
      fresh.map fun c => ⟨c, f c.text⟩ := by
    have hzip : fresh.zip (fresh.map fun c => f c.text) = fresh.map fun c => (c, f c.text) := by
      simpa using List.zip_map' (f := id) (g := fun c : Chunk => f c.text) (l := fresh)
    rw [hzip, List.map_map]
    rfl
  have hids : ((fresh.map fun c => (⟨c, f c.text⟩ : StoredChunk)).map (·.chunk.id)) = fresh.map (·.id) := by
    rw [List.map_map]
    rfl
  change r ∈ ((s.upsert ((fresh.zip (fresh.map fun c => f c.text)).map fun x => ⟨x.1, x.2⟩)).delete
    vanished).records ↔ _
  rw [hrecords, Store.mem_delete, Store.mem_upsert (hids ▸ hfresh), hids]
  constructor
  · rintro ⟨hr | ⟨hr, hnew⟩, hv⟩
    · obtain ⟨c, hc, rfl⟩ := List.mem_map.mp hr
      exact Or.inl ⟨c, hc, rfl⟩
    · exact Or.inr ⟨hr, fun c hc he => hnew (List.mem_map.mpr ⟨c, hc, he.symm⟩), hv⟩
  · rintro (⟨c, hc, rfl⟩ | ⟨hr, hnew, hv⟩)
    · exact ⟨Or.inl (List.mem_map.mpr ⟨c, hc, rfl⟩), hkept c hc⟩
    · refine ⟨Or.inr ⟨hr, fun hm => ?_⟩, hv⟩
      obtain ⟨c, hc, he⟩ := List.mem_map.mp hm
      exact hnew c hc he.symm

theorem distinct_replaced (h : s.Distinct) : (replaced f s name source cs).Distinct :=
  (h.upsert _).delete _

theorem hash?_replaceChunks {vectors : List Vector64} {ids : List Text} (name' : Text) :
    (replaceChunks s name source cs vectors ids).hash? name' =
      if name' = name then some (hashText source) else s.hash? name' := by
  rw [replaceChunks, Store.hash?_setHash]
  simp [Store.hash?, Store.delete]

theorem hash?_replaced (name' : Text) :
    (replaced f s name source cs).hash? name' =
      if name' = name then some (hashText source) else s.hash? name' :=
  hash?_replaceChunks name'

theorem Agree.congr {records records' : List StoredChunk} (h : Agree records cs)
    (hm : ∀ r, r ∈ records' ↔ r ∈ records) : Agree records' cs := by
  constructor
  · intro c hc
    obtain ⟨r, hr, he⟩ := h.covered c hc
    exact ⟨r, (hm r).mpr hr, he⟩
  · exact fun r hr => h.needed r ((hm r).mp hr)

theorem mem_replaced_of_fresh (f : Text → Vector64) (source : Text) (hn : (cs.map (·.id)).Nodup) {c : Chunk}
    (hc : c ∈ cs)
    (hnew : ¬ ∃ r ∈ s.recordsFor name, r.chunk.id = c.id ∧ r.chunk.hash = c.hash) :
    ⟨c, f c.text⟩ ∈ (replaced f s name source cs).records :=
  (mem_replaced hn).mpr (Or.inl ⟨c, mem_freshChunks.mpr ⟨hc, hnew⟩, rfl⟩)

/-- A record with the id and the digest of a chunk is not written again. -/
theorem mem_replaced_of_kept (f : Text → Vector64) (source : Text) (hn : (cs.map (·.id)).Nodup)
    {r : StoredChunk} {c : Chunk} (hr : r ∈ s.recordsFor name) (hc : c ∈ cs) (hid : r.chunk.id = c.id)
    (hhash : r.chunk.hash = c.hash) :
    r ∈ (replaced f s name source cs).records := by
  refine (mem_replaced hn).mpr (Or.inr ⟨(Store.mem_recordsFor.mp hr).1, ?_, ?_⟩)
  · intro c' hc' he
    obtain ⟨hm, hnot⟩ := mem_freshChunks.mp hc'
    obtain rfl : c = c' := List.inj_on_of_nodup_map hn hc hm (hid.symm.trans he)
    exact hnot ⟨r, hr, hid, hhash⟩
  · exact fun hv => (mem_vanishedIds.mp hv).2 c hc hid.symm

/-- Of a file the store holds what it held of every chunk that stayed, and the others anew. -/
theorem agree_replaced (h : s.Distinct) (hn : (cs.map (·.id)).Nodup) (hpath : ∀ c ∈ cs, c.path = name) :
    Agree ((replaced f s name source cs).recordsFor name) cs := by
  constructor
  · intro c hc
    by_cases hheld : ∃ r ∈ s.recordsFor name, r.chunk.id = c.id ∧ r.chunk.hash = c.hash
    · obtain ⟨r, hr, hid, hhash⟩ := hheld
      have hkept := mem_replaced_of_kept f source hn hr hc hid hhash
      exact ⟨r, Store.mem_recordsFor.mpr ⟨hkept, (Store.mem_recordsFor.mp hr).2⟩, hid, hhash⟩
    · have hfresh := mem_replaced_of_fresh f source hn hc hheld
      exact ⟨⟨c, f c.text⟩, Store.mem_recordsFor.mpr ⟨hfresh, hpath c hc⟩, rfl, rfl⟩
  · intro r hr
    obtain ⟨hrs, hrp⟩ := Store.mem_recordsFor.mp hr
    rcases (mem_replaced hn).mp hrs with ⟨c, hc, rfl⟩ | ⟨hold, hnew, hkept⟩
    · exact ⟨c, (mem_freshChunks.mp hc).1, rfl, rfl⟩
    · have hexisting : r ∈ s.recordsFor name := Store.mem_recordsFor.mpr ⟨hold, hrp⟩
      rw [mem_vanishedIds] at hkept
      push Not at hkept
      obtain ⟨c, hc, hid⟩ := hkept ⟨r, hexisting, rfl⟩
      have hstale : c ∉ freshChunks (s.recordsFor name) cs := fun hm => hnew c hm hid.symm
      rw [mem_freshChunks, not_and_not_right] at hstale
      obtain ⟨r', hr', hid', hhash⟩ := hstale hc
      obtain rfl : r' = r := h.eq_of_id (Store.mem_recordsFor.mp hr').1 hold (hid'.trans hid)
      exact ⟨c, hc, hid', hhash⟩

def forgotten (s : Store) (name : Text) : Store :=
  (s.delete ((s.recordsFor name).map (·.chunk.id))).eraseHash name

theorem mem_forgotten (h : s.Distinct) {r : StoredChunk} :
    r ∈ (forgotten s name).records ↔ r ∈ s.records ∧ r.chunk.path ≠ name := by
  change r ∈ (s.delete _).records ↔ _
  rw [Store.mem_delete, and_congr_right_iff]
  intro hr
  rw [not_iff_not, List.mem_map]
  constructor
  · rintro ⟨r', hr', he⟩
    obtain ⟨hrs', rfl⟩ := Store.mem_recordsFor.mp hr'
    rw [h.eq_of_id hr hrs' he.symm]
  · exact fun he => ⟨r, Store.mem_recordsFor.mpr ⟨hr, he⟩, rfl⟩

theorem distinct_forgotten (h : s.Distinct) (name : Text) : (forgotten s name).Distinct := h.delete _

theorem hash?_forgotten (name' : Text) :
    (forgotten s name).hash? name' = if name' = name then none else s.hash? name' :=
  Store.hash?_eraseHash (s.delete _) name name'

variable [Host]

/-- A chunk of a text that was met under the name in its path. -/
def IsChunk (met : Text → Text → Prop) (c : Chunk) : Prop :=
  ∃ source file, met c.path source ∧ parse .loop source = .ok file ∧ c ∈ chunks c.path source file

structure Faithful (f : Text → Vector64) (met : Text → Text → Prop) (s : Store) : Prop where
  distinct : s.Distinct
  drawn : ∀ r ∈ s.records, IsChunk met r.chunk ∧ r.vector = f r.chunk.text
  hashed : ∀ name hash, s.hash? name = some hash → ∃ source file, met name source ∧
    parse .loop source = .ok file ∧ hash = hashText source ∧ Agree (s.recordsFor name) (chunks name source file)
  known : ∀ r ∈ s.records, s.hash? r.chunk.path ≠ none

theorem faithful_empty (f : Text → Vector64) (met : Text → Text → Prop) : Faithful f met {} :=
  ⟨List.nodup_nil, by simp, by simp [Store.hash?, Table.get?], by simp⟩

def Unified (met : Text → Text → Prop) : Prop := ∀ name source, met name source → ∀ c ∈ source, c.val ≠ 13

theorem IsChunk.coherent {c : Chunk} (hmet : Unified met) (h : IsChunk met c) : c.Coherent c.path := by
  obtain ⟨source, file, hm, hp, hc⟩ := h
  exact chunks_coherent (hmet _ _ hm) hp c hc

/-- The records of other files stay as they are. -/
theorem Faithful.mem_recordsFor_replaced (h : Faithful f met s) (hmet : Unified met)
    (hn : (cs.map (·.id)).Nodup) (hcs : ∀ c ∈ cs, c.Coherent name) {name' : Text} (hne : name' ≠ name)
    (r : StoredChunk) :
    r ∈ (SemanticIndex.replaced f s name source cs).recordsFor name' ↔ r ∈ s.recordsFor name' := by
  rw [Store.mem_recordsFor, Store.mem_recordsFor, mem_replaced hn]
  constructor
  · rintro ⟨⟨c, hc, rfl⟩ | ⟨hr, -, -⟩, hrp⟩
    · exact absurd (hrp.symm.trans (hcs c (mem_freshChunks.mp hc).1).path) hne
    · exact ⟨hr, hrp⟩
  · rintro ⟨hr, rfl⟩
    refine ⟨Or.inr ⟨hr, ?_, ?_⟩, rfl⟩
    · intro c hc he
      have hid := (hcs c (mem_freshChunks.mp hc).1).id
      have hid' := ((h.drawn r hr).1.coherent hmet).id
      exact hne (chunkId_inj (hid'.symm.trans (he.trans hid))).1
    · intro hv
      obtain ⟨⟨r', hr', he⟩, -⟩ := mem_vanishedIds.mp hv
      obtain ⟨hrs', rfl⟩ := Store.mem_recordsFor.mp hr'
      exact hne (congrArg (·.chunk.path) (h.distinct.eq_of_id hr hrs' he.symm))

/-- Bringing a file to a text that was met. -/
theorem Faithful.replaced (h : Faithful f met s) (hmet : Unified met) (hm : met name source)
    (hp : parse .loop source = .ok file) :
    Faithful f met (SemanticIndex.replaced f s name source (chunks name source file)) := by
  have hn := nodup_chunks name source file
  have hcs : ∀ c ∈ chunks name source file, c.Coherent name := chunks_coherent (hmet _ _ hm) hp
  refine ⟨distinct_replaced h.distinct, ?_, ?_, ?_⟩
  · intro r hr
    rcases (mem_replaced hn).mp hr with ⟨c, hc, rfl⟩ | ⟨hold, -, -⟩
    · have hmem := (mem_freshChunks.mp hc).1
      have hpath := (hcs c hmem).path
      exact ⟨⟨source, file, by rwa [hpath], hp, by rwa [hpath]⟩, rfl⟩
    · exact h.drawn r hold
  · intro name' hash hh
    rw [hash?_replaced] at hh
    split at hh
    · rename_i he
      subst he
      cases hh
      exact ⟨source, file, hm, hp, rfl, agree_replaced h.distinct hn fun c hc => (hcs c hc).path⟩
    · rename_i hne
      obtain ⟨source', file', hm', hp', hhash, hagree⟩ := h.hashed name' hash hh
      exact ⟨source', file', hm', hp', hhash, hagree.congr (h.mem_recordsFor_replaced hmet hn hcs hne)⟩
  · intro r hr
    rw [hash?_replaced]
    split
    · simp
    · rename_i hne
      rcases (mem_replaced hn).mp hr with ⟨c, hc, rfl⟩ | ⟨hold, -, -⟩
      · exact absurd (hcs c (mem_freshChunks.mp hc).1).path hne
      · exact h.known r hold

/-- Taking a file out. -/
theorem Faithful.forgotten (h : Faithful f met s) (name : Text) :
    Faithful f met (SemanticIndex.forgotten s name) := by
  refine ⟨distinct_forgotten h.distinct name, ?_, ?_, ?_⟩
  · exact fun r hr => h.drawn r ((mem_forgotten h.distinct).mp hr).1
  · intro name' hash hh
    rw [hash?_forgotten] at hh
    split at hh
    · cases hh
    · rename_i hne
      obtain ⟨source, file, hm, hp, hhash, hagree⟩ := h.hashed name' hash hh
      refine ⟨source, file, hm, hp, hhash, hagree.congr fun r => ?_⟩
      rw [Store.mem_recordsFor, Store.mem_recordsFor, mem_forgotten h.distinct]
      constructor
      · rintro ⟨⟨hr, -⟩, hrp⟩
        exact ⟨hr, hrp⟩
      · rintro ⟨hr, hrp⟩
        exact ⟨⟨hr, hrp ▸ hne⟩, hrp⟩
  · intro r hr
    obtain ⟨hold, hne⟩ := (mem_forgotten h.distinct).mp hr
    rw [hash?_forgotten, if_neg hne]
    exact h.known r hold

/-- What a call can do to the store with one file. -/
inductive Change (f : Text → Vector64) (met : Text → Text → Prop) (name : Text) (s : Store) : Store → Prop where
  | same : Change f met name s s
  | replaced (source : Text) (file : List Stmt) (hm : met name source) (hp : parse .loop source = .ok file) :
      Change f met name s (replaced f s name source (chunks name source file))
  | forgotten : Change f met name s (forgotten s name)

theorem Change.faithful {s' : Store} (h : Change f met name s s') (hmet : Unified met)
    (hs : Faithful f met s) : Faithful f met s' := by
  cases h with
  | same => exact hs
  | replaced source file hm hp => exact hs.replaced hmet hm hp
  | forgotten => exact hs.forgotten name

theorem Change.hash?_of_ne {s' : Store} (h : Change f met name s s') {name' : Text} (hne : name' ≠ name) :
    s'.hash? name' = s.hash? name' := by
  cases h with
  | same => rfl
  | replaced => rw [hash?_replaced, if_neg hne]
  | forgotten => rw [hash?_forgotten, if_neg hne]

end CodeAgent.SemanticIndex
