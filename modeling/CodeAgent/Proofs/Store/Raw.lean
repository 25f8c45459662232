import CodeAgent.Proofs.Store.Load

namespace CodeAgent

theorem mapM_some_of_forall₂ {α β : Type} {f : α → Option β} {as : List α} {bs : List β}
    (h : List.Forall₂ (fun a b => f a = some b) as bs) : as.mapM f = some bs := by
  induction h with
  | nil => rfl
  | cons ha _ ih => simp [List.mapM_cons, ha, ih]

namespace Json

/-- Fields that were looked up by name are found again where they were put together. -/
theorem lookup_zip {fields : List (Text × Json)} {names : List Text} {values : List Json} (hn : names.Nodup)
    (h : names.mapM (lookup · fields) = some values) {name : Text} (hm : name ∈ names) :
    lookup name (names.zip values) = lookup name fields := by
  induction names generalizing values with
  | nil => cases hm
  | cons first rest ih =>
    obtain ⟨hfirst, hn⟩ := List.nodup_cons.mp hn
    rw [List.mapM_cons] at h
    obtain ⟨v, hv, hrest⟩ := Option.bind_eq_some_iff.mp h
    obtain ⟨vs, hvs, hvalues⟩ := Option.bind_eq_some_iff.mp hrest
    cases hvalues
    rw [List.zip_cons_cons, lookup, Table.get?]
    by_cases he : first = name
    · rw [if_pos he, ← he]
      exact hv.symm
    · rw [if_neg he]
      exact ih hn hvs ((List.mem_cons.mp hm).resolve_left (Ne.symm he))

theorem exists_lookups {fields : List (Text × Json)} {names : List Text}
    (h : ∀ name ∈ names, lookup name fields ≠ none) :
    ∃ values, names.mapM (lookup · fields) = some values ∧ values.length = names.length := by
  induction names with
  | nil => exact ⟨[], rfl, rfl⟩
  | cons first rest ih =>
    obtain ⟨hfirst, hrest⟩ := List.forall_mem_cons.mp h
    obtain ⟨v, hv⟩ := Option.ne_none_iff_exists'.mp hfirst
    obtain ⟨values, hvalues, hlength⟩ := ih hrest
    refine ⟨v :: values, ?_, by simp [hlength]⟩
    simp [List.mapM_cons, hv, hvalues]

end Json

namespace RawTable

variable {ν μ : Type} {R : ν → μ → Prop} {raw : RawTable ν} {table : Table Text μ} {v : ν} {w : μ}

/-- A raw table that has texts for its keys, and values that stand for those of a table. -/
def Shows (R : ν → μ → Prop) (raw : RawTable ν) (table : Table Text μ) : Prop :=
  List.Forall₂ (fun x y => x.1 = .str y.1 ∧ R x.2 y.2) raw table

theorem Shows.set (h : Shows R raw table) (key : Text) (hv : R v w) :
    Shows R (raw.set (.str key) v) (Table.set key w table) := by
  induction h with
  | nil => exact .cons ⟨rfl, hv⟩ .nil
  | @cons x y rest rest' hxy hrest ih =>
    obtain ⟨k, v'⟩ := x
    obtain ⟨k', w'⟩ := y
    obtain ⟨rfl, hvalue⟩ := hxy
    have hsame : (Json.str k').keyForm? = (Json.str key).keyForm? ↔ k' = key := by simp [Json.keyForm?]
    simp only [RawTable.set, Table.set, hsame]
    split
    · exact .cons ⟨rfl, hv⟩ hrest
    · exact .cons ⟨rfl, hvalue⟩ ih

theorem Shows.ofPairs (h : Shows R raw table) : Shows R (RawTable.ofPairs raw) (Table.ofPairs table) := by
  have hfold {done : RawTable ν} {done' : Table Text μ} (hdone : Shows R done done') :
      Shows R (raw.foldl (fun t x => t.set x.1 x.2) done) (table.foldl (fun t x => Table.set x.1 x.2 t) done') := by
    induction h generalizing done done' with
    | nil => exact hdone
    | @cons x y rest rest' hxy hrest ih =>
      obtain ⟨k, v⟩ := x
      obtain ⟨rfl, hvalue⟩ := hxy
      exact ih (hdone.set _ hvalue)
  exact hfold .nil

end RawTable

namespace RawStore

open Store (DocumentFault document)

variable {s : RawStore} {t t' : Store} {d : Disk} {file : Path} {fields fields' : List (Text × Json)} {v : Json}

variable {r : StoredChunk}

theorem exists_of_bind_ok {α β ε : Type} {x : Except ε α} {f : α → Except ε β} {b : β} (h : x >>= f = .ok b) :
    ∃ a, x = .ok a ∧ f a = .ok b := by
  cases x with
  | error fault => cases h
  | ok a => exact ⟨a, rfl, h⟩

theorem lookup_of_readTextField {name text : Text} (h : Store.readTextField fields name = .ok text) :
    Json.lookup name fields ≠ none := by
  unfold Store.readTextField at h
  split at h
  · rename_i hfound
    simp [hfound]
  · cases h

theorem lookup_of_readLineField {name : Text} {line : Nat} (h : Store.readLineField fields name = .ok line) :
    Json.lookup name fields ≠ none := by
  unfold Store.readLineField at h
  split at h
  · rename_i hfound
    simp [hfound]
  · cases h

/-- What a record needs of its fields. -/
theorem fields_of_readRecord (h : Store.readRecord (.obj fields) = .ok r) :
    fields.length = fieldNames.length ∧ (∀ name ∈ fieldNames, Json.lookup name fields ≠ none) ∧
      Json.lookup "id" fields = some (.str r.chunk.id) := by
  unfold Store.readRecord at h
  dsimp only at h
  split at h
  · rename_i id hid
    by_cases hlength : fields.length ≠ 9
    · rw [if_pos hlength] at h
      cases h
    · rw [if_neg hlength] at h
      split at h
      · rename_i items hvector
        obtain ⟨vector, -, h⟩ := exists_of_bind_ok h
        obtain ⟨path, hpath, h⟩ := exists_of_bind_ok h
        obtain ⟨kind, hkind, h⟩ := exists_of_bind_ok h
        obtain ⟨name, hname, h⟩ := exists_of_bind_ok h
        obtain ⟨text, htext, h⟩ := exists_of_bind_ok h
        obtain ⟨start, hstart, h⟩ := exists_of_bind_ok h
        obtain ⟨stop, hstop, h⟩ := exists_of_bind_ok h
        obtain ⟨hash, hhash, h⟩ := exists_of_bind_ok h
        cases h
        refine ⟨not_not.mp hlength, ?_, hid⟩
        simp only [fieldNames, List.forall_mem_cons, List.not_mem_nil, false_implies, implies_true, and_true]
        exact ⟨by simp [hid], by simp [hvector], lookup_of_readTextField hpath, lookup_of_readTextField hkind,
          lookup_of_readTextField hname, lookup_of_readTextField htext, lookup_of_readLineField hstart,
          lookup_of_readLineField hstop, lookup_of_readTextField hhash⟩
      · cases h
  · cases h
  · cases h

theorem readRecord_congr (hl : fields'.length = fields.length)
    (h : ∀ name ∈ fieldNames, Json.lookup name fields' = Json.lookup name fields) :
    Store.readRecord (.obj fields') = Store.readRecord (.obj fields) := by
  simp only [fieldNames, List.forall_mem_cons, List.not_mem_nil, false_implies, implies_true, and_true] at h
  obtain ⟨h1, h2, h3, h4, h5, h6, h7, h8, h9⟩ := h
  simp only [Store.readRecord, Store.readTextField, Store.readLineField, hl, h1, h2, h3, h4, h5, h6, h7, h8, h9]

/-- The raw form of a record shows the record. -/
theorem readRecord_raw (h : Store.readRecord v = .ok r) :
    ∃ record, readRecord v = .ok (.str r.chunk.id, record) ∧ chunk? record = some r := by
  cases v with
  | obj fields =>
    obtain ⟨hlength, hfound, hid⟩ := fields_of_readRecord h
    obtain ⟨values, hvalues, hcount⟩ := Json.exists_lookups hfound
    refine ⟨⟨values⟩, ?_, ?_⟩
    · unfold readRecord
      simp only [hid, hvalues, hlength, Json.keyForm?, Option.isSome_some, and_self, ↓reduceIte]
    · have hsame : Store.readRecord (.obj (fieldNames.zip values)) = Store.readRecord (.obj fields) := by
        apply readRecord_congr
        · rw [List.length_zip, hcount, Nat.min_self, hlength]
        · exact fun name hname => Json.lookup_zip (by decide) hvalues hname
      unfold chunk?
      rw [hsame, h]
      rfl
  | _ => cases h

theorem mapM_readRecord_raw {items : List Json} {read : List StoredChunk}
    (h : List.Forall₂ (fun v r => Store.readRecord v = .ok r) items read) :
    ∃ pairs, items.mapM readRecord = .ok pairs ∧
      RawTable.Shows (fun v w => chunk? v = some w) pairs (read.map fun r => (r.chunk.id, r)) := by
  induction h with
  | nil => exact ⟨[], rfl, .nil⟩
  | @cons item r items read hitem _ ih =>
    obtain ⟨record, hrecord, hshown⟩ := readRecord_raw hitem
    obtain ⟨pairs, hpairs, hshows⟩ := ih
    refine ⟨(.str r.chunk.id, record) :: pairs, ?_, .cons ⟨rfl, hshown⟩ hshows⟩
    rw [List.mapM_cons, hrecord, hpairs]
    rfl

/-- Records that are read are the same in raw form. -/
theorem readRecords_raw {rs : List StoredChunk} (h : Store.readRecords v = .ok rs) :
    ∃ table, readRecords v = .ok table ∧ table.mapM (fun x => chunk? x.2) = some rs := by
  cases v with
  | arr items =>
    obtain ⟨read, hread, hrs⟩ := exists_of_bind_ok h
    cases hrs
    obtain ⟨pairs, hpairs, hshows⟩ := mapM_readRecord_raw (mapM_ok_iff.mp hread)
    refine ⟨RawTable.ofPairs pairs, ?_, ?_⟩
    · unfold readRecords
      simp only [Json.items?, hpairs]
      rfl
    · apply mapM_some_of_forall₂
      exact List.forall₂_map_right_iff.mpr (hshows.ofPairs.imp fun _ _ hxy => hxy.2)
  | obj fields =>
    cases fields with
    | nil =>
      cases h
      exact ⟨[], rfl, rfl⟩
    | cons x rest => cases h
  | str t =>
    cases t with
    | nil =>
      cases h
      exact ⟨[], rfl, rfl⟩
    | cons c rest => cases h
  | _ => cases h

theorem readPair_raw {x : Text × Text} (h : Store.readPair v = .ok x) : readPair v = .ok (.str x.1, .str x.2) := by
  unfold Store.readPair at h
  split at h <;> cases h
  · rfl
  · rfl
  · rfl

theorem mapM_digest? {table : RawTable Json} {hs : Table Text Text}
    (h : RawTable.Shows (fun v w => v = .str w) table hs) : table.mapM digest? = some hs := by
  apply mapM_some_of_forall₂
  refine h.imp fun x y hxy => ?_
  obtain ⟨k, v⟩ := x
  obtain ⟨rfl, rfl⟩ := hxy
  rfl

/-- Digests that are read are the same in raw form. -/
theorem readHashes_raw {hs : Table Text Text} (h : Store.readHashes v = .ok hs) :
    ∃ table, readHashes v = .ok table ∧ table.mapM digest? = some hs := by
  cases v with
  | obj fields =>
    refine ⟨_, rfl, mapM_digest? (List.forall₂_map_left_iff.mpr ?_)⟩
    refine (mapM_ok_iff.mp h).imp fun x y hxy => ?_
    obtain ⟨path, v⟩ := x
    dsimp only at hxy
    split at hxy <;> cases hxy
    exact ⟨rfl, rfl⟩
  | arr items =>
    change (items.mapM Store.readPair).map Table.ofPairs = .ok hs at h
    cases hread : items.mapM Store.readPair with
    | error fault =>
      rw [hread] at h
      cases h
    | ok pairs =>
      rw [hread] at h
      cases h
      have hraw : items.mapM readPair = .ok (pairs.map fun x => (Json.str x.1, Json.str x.2)) := by
        apply mapM_ok_iff.mpr
        exact List.forall₂_map_right_iff.mpr ((mapM_ok_iff.mp hread).imp fun _ _ hx => readPair_raw hx)
      have hshows : RawTable.Shows (fun v w => v = .str w) (pairs.map fun x => (Json.str x.1, Json.str x.2)) pairs :=
        List.forall₂_map_left_iff.mpr (List.forall₂_same.mpr fun _ _ => ⟨rfl, rfl⟩)
      refine ⟨_, ?_, mapM_digest? hshows.ofPairs⟩
      unfold readHashes
      simp only [Json.items?, hraw]
      rfl
  | str t =>
    cases t with
    | nil =>
      cases h
      exact ⟨[], rfl, rfl⟩
    | cons c rest => cases h
  | _ => cases h

theorem store?_eq_some : s.store? = some t ↔
    s.records.mapM (fun x => chunk? x.2) = some t.records ∧ s.fileHashes.mapM digest? = some t.fileHashes := by
  unfold store?
  obtain ⟨records, fileHashes⟩ := t
  simp only [Option.bind_eq_bind, Option.bind_eq_some_iff, Option.pure_def, Option.some.injEq, Store.mk.injEq]
  constructor
  · intro h
    obtain ⟨rs, hrs, hs, hhs, rfl, rfl⟩ := h
    exact ⟨hrs, hhs⟩
  · intro h
    exact ⟨records, h.1, fileHashes, h.2, rfl, rfl⟩

/-- The raw form of a store shows the store. -/
theorem store?_ofStore (t : Store) : (ofStore t).store? = some t := by
  apply store?_eq_some.mpr
  constructor
  · apply mapM_some_of_forall₂
    refine List.forall₂_map_left_iff.mpr (List.forall₂_same.mpr fun r _ => ?_)
    change (Store.readRecord (Store.recordJson r)).toOption = some r
    rw [Store.readRecord_recordJson]
    rfl
  · apply mapM_some_of_forall₂
    exact List.forall₂_map_left_iff.mpr (List.forall₂_same.mpr fun _ _ => rfl)

/-- What a store takes from a document. -/
theorem of_readDocument (h : t.readDocument (.obj fields) = (t', .ok ())) :
    Store.readRecords ((Json.lookup "records" fields).getD (.arr [])) = .ok t'.records ∧
    Store.readHashes ((Json.lookup "file_hashes" fields).getD (.obj [])) = .ok t'.fileHashes := by
  unfold Store.readDocument at h
  dsimp only at h
  split at h
  · cases h
  · rename_i hrecords
    split at h
    · cases h
    · rename_i hhashes
      cases h
      exact ⟨hrecords, hhashes⟩

variable [Host]

/-- Loading is reading the document, if there is one. -/
theorem load_eq (t : Store) (d : Disk) (file : Path) :
    t.load d file = match document d file with
      | .error fault => (t, .error fault)
      | .ok none => (t, .ok ())
      | .ok (some v) => t.readDocument v := by
  unfold Store.load document
  cases d.exists? file with
  | error fault => rfl
  | ok there =>
    cases there with
    | false => rfl
    | true =>
      cases d.readText file with
      | error fault =>
        dsimp only
        split <;> rfl
      | ok text =>
        dsimp only
        cases Json.read text with
        | ok v => rfl
        | error fault => cases fault <;> rfl

/-- What a store can load its raw form loads too, and shows what the store has become. -/
theorem load_raw (hs : s.store? = some t) (h : t.load d file = (t', .ok ())) :
    (s.load d file).2 = .ok () ∧ (s.load d file).1.store? = some t' := by
  rw [load_eq] at h
  cases hfound : document d file with
  | error fault =>
    rw [hfound] at h
    cases h
  | ok found =>
    rw [hfound] at h
    cases found with
    | none =>
      cases h
      unfold load
      rw [hfound]
      exact ⟨rfl, hs⟩
    | some v =>
      cases v with
      | obj fields =>
        obtain ⟨hrecords, hhashes⟩ := of_readDocument h
        obtain ⟨records, hr, hshownRecords⟩ := readRecords_raw hrecords
        obtain ⟨fileHashes, hh, hshownHashes⟩ := readHashes_raw hhashes
        rw [load_taken hfound hr hh]
        exact ⟨rfl, store?_eq_some.mpr ⟨hshownRecords, hshownHashes⟩⟩
      | _ => cases h

end RawStore

end CodeAgent
