import CodeAgent.Proofs.Json.RoundTrip
import CodeAgent.Proofs.Store.Records
import CodeAgent.Store.Document
import CodeAgent.Store.History

namespace CodeAgent

/-- A record that a document can hold: its texts have no surrogates, its vector is finite, and its line numbers have
no more digits than a reader takes. -/
structure StoredChunk.Storable (r : StoredChunk) : Prop where
  id : Utf8.Encodable r.chunk.id
  path : Utf8.Encodable r.chunk.path
  kind : Utf8.Encodable r.chunk.kind
  name : Utf8.Encodable r.chunk.name
  text : Utf8.Encodable r.chunk.text
  hash : Utf8.Encodable r.chunk.hash
  vector : ∀ x ∈ r.vector, x.isFinite
  startLine : r.chunk.startLine < Nat.pow 10 Decimal.maxDigits
  endLine : r.chunk.endLine < Nat.pow 10 Decimal.maxDigits

instance (r : StoredChunk) : Decidable r.Storable :=
  decidable_of_iff ((∀ t ∈ [r.chunk.id, r.chunk.path, r.chunk.kind, r.chunk.name, r.chunk.text, r.chunk.hash],
      Utf8.Encodable t) ∧ (∀ x ∈ r.vector, x.isFinite) ∧
      r.chunk.startLine < Nat.pow 10 Decimal.maxDigits ∧ r.chunk.endLine < Nat.pow 10 Decimal.maxDigits) <| by
    simp only [List.forall_mem_cons, List.not_mem_nil, false_implies, implies_true, and_true]
    constructor
    · rintro ⟨⟨hid, hpath, hkind, hname, htext, hhash⟩, hvector, hstart, hend⟩
      exact ⟨hid, hpath, hkind, hname, htext, hhash, hvector, hstart, hend⟩
    · rintro ⟨hid, hpath, hkind, hname, htext, hhash, hvector, hstart, hend⟩
      exact ⟨⟨hid, hpath, hkind, hname, htext, hhash⟩, hvector, hstart, hend⟩

/-- A change that brings in nothing that a document cannot hold. -/
def StoreChange.Storable : StoreChange → Prop
  | .upsert records => ∀ r ∈ records, r.Storable
  | .setHash path hash => Utf8.Encodable path ∧ Utf8.Encodable hash
  | .delete _ => True
  | .eraseHash _ => True

instance : (c : StoreChange) → Decidable c.Storable
  | .upsert records => inferInstanceAs (Decidable (∀ r ∈ records, r.Storable))
  | .setHash path hash => inferInstanceAs (Decidable (Utf8.Encodable path ∧ Utf8.Encodable hash))
  | .delete _ => inferInstanceAs (Decidable True)
  | .eraseHash _ => inferInstanceAs (Decidable True)

namespace Store

variable {s t : Store} {c : StoreChange} {changes : List StoreChange}

/-- A store that a document can hold: one record for an id, one digest for a file. -/
structure Storable (s : Store) : Prop where
  distinct : s.Distinct
  records : ∀ r ∈ s.records, r.Storable
  paths : (Table.keys s.fileHashes).Nodup
  hashes : ∀ x ∈ s.fileHashes, Utf8.Encodable x.1 ∧ Utf8.Encodable x.2

theorem storable_empty : Storable {} := ⟨List.nodup_nil, by simp, List.nodup_nil, by simp⟩

/-- A store that can be written can be written after a change. -/
theorem Storable.change (h : s.Storable) (hc : c.Storable) : (s.change c).Storable := by
  cases c with
  | upsert rs =>
    refine ⟨h.distinct.upsert rs, fun r hr => ?_, ?_, ?_⟩
    · exact (mem_of_mem_upsert hr).elim (hc r) (h.records r)
    · exact (fileHashes_upsert s rs).symm ▸ h.paths
    · exact (fileHashes_upsert s rs).symm ▸ h.hashes
  | delete ids => exact ⟨h.distinct.delete ids, fun r hr => h.records r (mem_delete.mp hr).1, h.paths, h.hashes⟩
  | setHash path hash =>
    refine ⟨h.distinct, h.records, Table.nodup_keys_set h.paths path hash, fun x hx => ?_⟩
    rcases Table.mem_set hx with hx | rfl
    · exact h.hashes x hx
    · exact hc
  | eraseHash path =>
    refine ⟨h.distinct, h.records, h.paths.sublist (List.filter_sublist.map _), fun x hx => ?_⟩
    exact h.hashes x (Table.mem_of_mem_erase hx)

/-- Whatever changes a store gets, a document can hold it. -/
theorem Storable.after (h : s.Storable) (hc : ∀ c ∈ changes, c.Storable) : (s.after changes).Storable := by
  induction changes generalizing s with
  | nil => exact h
  | cons c rest ih =>
    rw [List.forall_mem_cons] at hc
    exact ih (h.change hc.1) hc.2

theorem mapM_map_self {α β ε : Type} {f : β → Except ε α} {g : α → β} (as : List α) (h : ∀ a, f (g a) = .ok a) :
    (as.map g).mapM f = .ok as := by
  induction as with
  | nil => rfl
  | cons a rest ih =>
    rw [List.map_cons, List.mapM_cons, h, ih]
    rfl

theorem readRecord_recordJson (r : StoredChunk) : readRecord (recordJson r) = .ok r := by
  have hnumber (x : Binary64) : readNumber (.float x) = .ok x := rfl
  show (do
    let vector ← (r.vector.map Json.float).mapM readNumber
    Except.ok ({ r with vector } : StoredChunk)) = .ok r
  rw [mapM_map_self r.vector hnumber]
  rfl

theorem readRecords_toJson (h : s.Distinct) : readRecords (.arr (s.records.map recordJson)) = .ok s.records := by
  have hkeys : (Table.keys (s.records.map fun r => (r.chunk.id, r))).Nodup := by
    rw [Table.keys, List.map_map]
    exact h
  show (do
    let rs ← (s.records.map recordJson).mapM readRecord
    Except.ok ((Table.ofPairs (rs.map fun r : StoredChunk => (r.chunk.id, r))).map Prod.snd)) = .ok s.records
  rw [mapM_map_self s.records readRecord_recordJson]
  show Except.ok ((Table.ofPairs (s.records.map fun r => (r.chunk.id, r))).map Prod.snd) = .ok s.records
  rw [Table.ofPairs_of_nodup hkeys, List.map_map]
  exact congrArg Except.ok (List.map_id s.records)

theorem readHashes_toJson (s : Store) :
    readHashes (.obj (s.fileHashes.map fun (path, hash) => (path, .str hash))) = .ok s.fileHashes := by
  unfold readHashes
  exact mapM_map_self s.fileHashes fun _ => rfl

/-- The document of a store gives the store, whatever a store held before it reads the document. -/
theorem readDocument_toJson (h : s.Distinct) (t : Store) : t.readDocument s.toJson = (s, .ok ()) := by
  have hrecords : (Json.lookup "records" [("records", .arr (s.records.map recordJson)),
      ("file_hashes", .obj (s.fileHashes.map fun (path, hash) => (path, .str hash)))]).getD (.arr []) =
      .arr (s.records.map recordJson) := rfl
  have hhashes : (Json.lookup "file_hashes" [("records", .arr (s.records.map recordJson)),
      ("file_hashes", .obj (s.fileHashes.map fun (path, hash) => (path, .str hash)))]).getD (.obj []) =
      .obj (s.fileHashes.map fun (path, hash) => (path, .str hash)) := rfl
  unfold toJson readDocument
  dsimp only
  rw [hrecords, readRecords_toJson h]
  dsimp only
  rw [hhashes, readHashes_toJson]

theorem lossless_recordJson {r : StoredChunk} (h : r.Storable) : (recordJson r).Lossless := by
  have hvector : Json.LosslessItems (r.vector.map .float) := by
    rw [Json.losslessItems_iff, List.forall_mem_map]
    exact h.vector
  have hkeys :
      (["id", "vector", "path", "kind", "name", "text", "start_line", "end_line", "hash"] : List Text).Nodup := by
    decide
  refine ⟨hkeys, Json.losslessFields_iff.mpr ?_⟩
  simp only [List.forall_mem_cons, List.not_mem_nil, false_implies, implies_true, and_true]
  exact ⟨⟨by decide, h.id⟩, ⟨by decide, hvector⟩, ⟨by decide, h.path⟩, ⟨by decide, h.kind⟩, ⟨by decide, h.name⟩,
    ⟨by decide, h.text⟩, ⟨by decide, trivial⟩, ⟨by decide, trivial⟩, by decide, h.hash⟩

theorem lossless_toJson (h : s.Storable) : s.toJson.Lossless := by
  have hrecords : Json.LosslessItems (s.records.map recordJson) := by
    rw [Json.losslessItems_iff, List.forall_mem_map]
    exact fun r hr => lossless_recordJson (h.records r hr)
  have hhashes : Json.LosslessFields (s.fileHashes.map fun (path, hash) => (path, .str hash)) := by
    rw [Json.losslessFields_iff, List.forall_mem_map]
    exact h.hashes
  have hpaths : (Table.keys (s.fileHashes.map fun (path, hash) => (path, Json.str hash))).Nodup := by
    rw [Table.keys, List.map_map]
    exact h.paths
  have hkeys : (["records", "file_hashes"] : List Text).Nodup := by decide
  exact ⟨hkeys, by decide, hrecords, by decide, ⟨hpaths, hhashes⟩, trivial⟩

/-- The integers of a store can be read back. -/
theorem readableIntegers_toJson (h : s.Storable) : Json.ReadableIntegers s.toJson.integers := by
  have hfloats (v : Vector64) : Json.integersItems (v.map .float) = [] := by
    induction v with
    | nil => rfl
    | cons x rest ih => exact ih
  have hhashes (t : Table Text Text) :
      Json.integersFields (t.map fun (path, hash) => (path, Json.str hash)) = [] := by
    induction t with
    | nil => rfl
    | cons x rest ih => exact ih
  have hrecord {r : StoredChunk} (hr : r.Storable) : Json.ReadableIntegers (recordJson r).integers := by
    have hintegers : (recordJson r).integers =
        Json.integersItems (r.vector.map .float) ++ [(r.chunk.startLine : Int), (r.chunk.endLine : Int)] := rfl
    rw [hintegers, hfloats]
    intro i hi
    rcases List.mem_pair.mp hi with rfl | rfl
    · exact hr.startLine
    · exact hr.endLine
  have hrecords (rs : List StoredChunk) (hrs : ∀ r ∈ rs, r.Storable) :
      Json.ReadableIntegers (Json.integersItems (rs.map recordJson)) := by
    induction rs with
    | nil => exact fun i hi => absurd hi List.not_mem_nil
    | cons r rest ih =>
      obtain ⟨hr, hrest⟩ := List.forall_mem_cons.mp hrs
      exact fun i hi => (List.mem_append.mp hi).elim (hrecord hr i) (ih hrest i)
  have hintegers : s.toJson.integers = Json.integersItems (s.records.map recordJson) ++
      (Json.integersFields (s.fileHashes.map fun (path, hash) => (path, .str hash)) ++ []) := rfl
  rw [hintegers, hhashes, List.append_nil, List.append_nil]
  exact hrecords s.records h.records

/-- A store is written with four brackets open at most. -/
theorem depth_toJson (s : Store) : s.toJson.depth ≤ 4 := by
  have hfloats (v : Vector64) : Json.depthItems (v.map .float) = 0 := by
    induction v with
    | nil => rfl
    | cons x rest ih => exact (Nat.zero_max _).trans ih
  have hhashes (t : Table Text Text) : Json.depthFields (t.map fun (path, hash) => (path, Json.str hash)) = 0 := by
    induction t with
    | nil => rfl
    | cons x rest ih => exact (Nat.zero_max _).trans ih
  have hrecord (r : StoredChunk) : (recordJson r).depth ≤ 2 := by
    simp [recordJson, Json.depth, Json.depthFields, hfloats]
  have hrecords (rs : List StoredChunk) : Json.depthItems (rs.map recordJson) ≤ 2 := by
    induction rs with
    | nil => exact Nat.zero_le 2
    | cons r rest ih => exact Nat.max_le.mpr ⟨hrecord r, ih⟩
  have hs := hrecords s.records
  simp only [toJson, Json.depth, Json.depthFields, hhashes]
  omega

variable [Host]

/-- What is written of a store is read as its document, if four brackets may be open at once. -/
theorem read_write_toJson (hdepth : 4 ≤ Host.jsonDepth) (h : s.Storable) :
    Json.read (Json.write s.toJson) = .ok s.toJson :=
  Json.read_write_lossless (lossless_toJson h) (readableIntegers_toJson h) ((depth_toJson s).trans hdepth)

end Store
end CodeAgent
