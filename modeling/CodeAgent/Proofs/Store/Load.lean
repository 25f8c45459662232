import CodeAgent.Host.Usual
import CodeAgent.Proofs.Store.Persist
import CodeAgent.Store.Raw
import Mathlib.Data.List.Forall2

namespace CodeAgent

theorem mapM_ok_iff {α β ε : Type} {f : α → Except ε β} {as : List α} {bs : List β} :
    as.mapM f = .ok bs ↔ List.Forall₂ (fun a b => f a = .ok b) as bs := by
  induction as generalizing bs with
  | nil => simp [pure, Except.pure, eq_comm]
  | cons a rest ih =>
    rw [List.mapM_cons]
    cases ha : f a with
    | error fault => simp [bind, Except.bind, List.forall₂_cons_left_iff, ha]
    | ok b =>
      cases hrest : rest.mapM f with
      | error fault => simp [bind, Except.bind, List.forall₂_cons_left_iff, ← ih, hrest]
      | ok bs' =>
        simp [bind, Except.bind, pure, Except.pure, List.forall₂_cons_left_iff, ← ih, hrest, ha, eq_comm]

theorem exists_mapM_ok_iff {α β ε : Type} {f : α → Except ε β} {as : List α} :
    (∃ bs, as.mapM f = .ok bs) ↔ ∀ a ∈ as, ∃ b, f a = .ok b := by
  simp only [mapM_ok_iff]
  induction as with
  | nil => simp
  | cons a rest ih => simp [List.forall₂_cons_left_iff, ← ih]

namespace RawStore
open Store (DocumentFault document)

variable {s : RawStore} {d : Disk} {file : Path} {fields : List (Text × Json)} {items : List Json} {v : Json}

/-- What is taken for a path with its digest. -/
inductive IsPair : Json → Prop where
  | list {key value : Json} (h : key.keyForm?.isSome) : IsPair (.arr [key, value])
  | text (a b : CodePoint) : IsPair (.str [a, b])
  | object (x y : Text × Json) : IsPair (.obj [x, y])

/-- What is taken for file digests, if a document has any. -/
inductive IsDigests : Option Json → Prop where
  | absent : IsDigests none
  | object (fields : List (Text × Json)) : IsDigests (some (.obj fields))
  | blank : IsDigests (some (.str []))
  | pairs (items : List Json) (h : ∀ v ∈ items, IsPair v) : IsDigests (some (.arr items))

/-- What is read as a pair. -/
theorem readPair_ok_iff : (∃ x, readPair v = .ok x) ↔ IsPair v := by
  constructor
  · intro h
    obtain ⟨x, hx⟩ := h
    cases v with
    | arr items =>
      rcases items with _ | ⟨key, _ | ⟨value, _ | ⟨_, _⟩⟩⟩
      · cases hx
      · cases hx
      · by_cases hkey : key.keyForm?.isSome
        · exact .list hkey
        · have herror : readPair (.arr [key, value]) = .error .illTyped := if_neg hkey
          rw [herror] at hx
          cases hx
      · cases hx
    | str t =>
      rcases t with _ | ⟨a, _ | ⟨b, _ | ⟨_, _⟩⟩⟩
      · cases hx
      · cases hx
      · exact .text a b
      · cases hx
    | obj fields =>
      rcases fields with _ | ⟨x, _ | ⟨y, _ | ⟨_, _⟩⟩⟩
      · cases hx
      · cases hx
      · exact .object x y
      · cases hx
    | null => cases hx
    | bool b => cases hx
    | int i => cases hx
    | float x => cases hx
  · intro h
    cases h with
    | list h => exact ⟨_, if_pos h⟩
    | text a b => exact ⟨_, rfl⟩
    | object x y => exact ⟨_, rfl⟩

theorem readHashes_items_ok_iff :
    (∃ table, (items.mapM readPair).map RawTable.ofPairs = .ok table) ↔ ∀ v ∈ items, IsPair v := by
  simp only [← readPair_ok_iff, ← exists_mapM_ok_iff]
  cases items.mapM readPair with
  | error fault => simp [Except.map]
  | ok pairs => simp [Except.map]

/-- A document has file digests to take just if they are a table in one of these forms. -/
theorem hashesOf_ok_iff : (∃ table, hashesOf fields = .ok table) ↔ IsDigests (Json.lookup "file_hashes" fields) := by
  unfold hashesOf
  cases Json.lookup "file_hashes" fields with
  | none => exact ⟨fun _ => .absent, fun _ => ⟨_, rfl⟩⟩
  | some v =>
    cases v with
    | obj fields => exact ⟨fun _ => .object fields, fun _ => ⟨_, rfl⟩⟩
    | arr items =>
      refine readHashes_items_ok_iff.trans ⟨.pairs items, fun h => ?_⟩
      cases h with
      | pairs _ h => exact h
    | str t =>
      cases t with
      | nil => exact ⟨fun _ => .blank, fun _ => ⟨_, rfl⟩⟩
      | cons a rest =>
        have hpair : ¬ IsPair (.str [a]) := nofun
        refine iff_of_false (fun h => ?_) nofun
        have hitems : ∀ v ∈ (a :: rest).map fun c => Json.str [c], IsPair v := readHashes_items_ok_iff.mp h
        exact hpair (hitems _ List.mem_cons_self)
    | null => exact iff_of_false (fun ⟨_, h⟩ => nomatch h) nofun
    | bool b => exact iff_of_false (fun ⟨_, h⟩ => nomatch h) nofun
    | int i => exact iff_of_false (fun ⟨_, h⟩ => nomatch h) nofun
    | float x => exact iff_of_false (fun ⟨_, h⟩ => nomatch h) nofun

section

variable [Host]

/-- A load that takes all or nothing. -/
inductive Whole (d : Disk) (file : Path) (s : RawStore) : RawStore → Prop where
  | kept : Whole d file s s
  | taken (fields : List (Text × Json)) (records : RawTable RawRecord) (fileHashes : RawTable Json)
      (found : document d file = .ok (some (.obj fields))) (new : recordsOf fields = .ok records)
      (digests : hashesOf fields = .ok fileHashes) : Whole d file s ⟨records, fileHashes⟩

/-- A document with records that a store can take, other than those it has, and with file digests that are no table. -/
def Tears (d : Disk) (file : Path) (s : RawStore) : Prop :=
  ∃ fields records, document d file = .ok (some (.obj fields)) ∧ recordsOf fields = .ok records ∧
    records ≠ s.records ∧ ¬ IsDigests (Json.lookup "file_hashes" fields)

section
variable {records : RawTable RawRecord} {fileHashes : RawTable Json} {fault : DocumentFault}
variable (hfound : document d file = .ok (some (.obj fields)))
include hfound

theorem load_no_records (hr : recordsOf fields = .error fault) : s.load d file = (s, .error fault) := by
  simp only [load, hfound, readDocument, hr]

theorem load_no_digests (hr : recordsOf fields = .ok records) (hh : hashesOf fields = .error fault) :
    s.load d file = ({ s with records }, .error fault) := by
  simp only [load, hfound, readDocument, hr, hh]

theorem load_taken (hr : recordsOf fields = .ok records) (hh : hashesOf fields = .ok fileHashes) :
    s.load d file = (⟨records, fileHashes⟩, .ok ()) := by
  simp only [load, hfound, readDocument, hr, hh]

end

theorem load_of_tears (h : Tears d file s) : (∃ fault, (s.load d file).2 = .error fault) ∧
    (s.load d file).1.records ≠ s.records := by
  obtain ⟨fields, records, hfound, hrecords, hnew, hdigests⟩ := h
  cases hhashes : hashesOf fields with
  | ok table => exact absurd (hashesOf_ok_iff.mp ⟨table, hhashes⟩) hdigests
  | error fault =>
    rw [load_no_digests hfound hrecords hhashes]
    exact ⟨⟨fault, rfl⟩, hnew⟩

/-- What comes of a document that is an object. -/
theorem load_obj_cases (s : RawStore) (hfound : document d file = .ok (some (.obj fields))) :
    Tears d file s ∨ Whole d file s (s.load d file).1 ∧
      ((s.load d file).2 ≠ .ok () → (s.load d file).1 = s) := by
  cases hrecords : recordsOf fields with
  | error fault =>
    rw [load_no_records hfound hrecords]
    exact Or.inr ⟨.kept, fun _ => rfl⟩
  | ok records =>
    cases hhashes : hashesOf fields with
    | ok fileHashes =>
      rw [load_taken hfound hrecords hhashes]
      exact Or.inr ⟨.taken fields records fileHashes hfound hrecords hhashes, fun hne => absurd rfl hne⟩
    | error fault =>
      by_cases hsame : records = s.records
      · subst hsame
        rw [load_no_digests hfound hrecords hhashes]
        exact Or.inr ⟨.kept, fun _ => rfl⟩
      · refine Or.inl ⟨fields, records, hfound, hrecords, hsame, fun hdigests => ?_⟩
        obtain ⟨table, htable⟩ := hashesOf_ok_iff.mpr hdigests
        rw [hhashes] at htable
        cases htable

/-- Whatever else stands in the file is passed over or refused as a whole. -/
theorem load_no_object (h : ∀ fields, document d file ≠ .ok (some (.obj fields))) : (s.load d file).1 = s := by
  unfold load
  cases hfound : document d file with
  | error fault => rfl
  | ok found =>
    cases found with
    | none => rfl
    | some v =>
      cases v with
      | obj fields => exact absurd hfound (h fields)
      | _ => rfl

theorem load_cases (s : RawStore) (d : Disk) (file : Path) :
    Tears d file s ∨ Whole d file s (s.load d file).1 ∧
      ((s.load d file).2 ≠ .ok () → (s.load d file).1 = s) := by
  by_cases hobject : ∃ fields, document d file = .ok (some (.obj fields))
  · obtain ⟨fields, hfound⟩ := hobject
    exact load_obj_cases s hfound
  · push Not at hobject
    rw [load_no_object hobject]
    exact Or.inr ⟨.kept, fun _ => rfl⟩

/-- A load takes both the records and the file digests of the document or leaves both as they were, and leaves them
when it fails, just if the document is not one that tears the store. It does take them from every document that has
both. -/
theorem load_whole_iff (s : RawStore) (d : Disk) (file : Path) :
    ((Whole d file s (s.load d file).1 ∧ ((s.load d file).2 ≠ .ok () → (s.load d file).1 = s)) ↔ ¬ Tears d file s) ∧
    ∀ fields records fileHashes, document d file = .ok (some (.obj fields)) → recordsOf fields = .ok records →
      hashesOf fields = .ok fileHashes → s.load d file = (⟨records, fileHashes⟩, .ok ()) := by
  refine ⟨⟨?_, (load_cases s d file).resolve_left⟩, fun _ _ _ => load_taken⟩
  intro hwhole htears
  obtain ⟨⟨fault, hfault⟩, hrecords⟩ := load_of_tears htears
  have hsame := hwhole.2 (by simp [hfault])
  exact hrecords (congrArg RawStore.records hsame)

def nullDigests : Json := .obj [("file_hashes", .null)]

end

attribute [local instance] Host.usual

def nullDisk : Disk := ⟨[(["s"], .file (Utf8.encodeAny (Json.write nullDigests)))]⟩

def oneFile : RawStore where
  records := [ofRecord ⟨⟨"a.py:1", "a.py", "function", "f", "def f():0", 1, 1, "h"⟩, []⟩]
  fileHashes := [(.str "a.py", .str "h")]

theorem document_nullDisk : document nullDisk ⟨"/", ["s"]⟩ = .ok (some nullDigests) := by
  have hbytes : nullDisk.readBytes ⟨"/", ["s"]⟩ = .ok (Utf8.encodeAny (Json.write nullDigests)) := rfl
  have hthere := Disk.exists?_of_readBytes hbytes
  have htext := Store.readText_write hbytes
  have hlossless : nullDigests.Lossless := ⟨by decide, by decide, trivial, trivial⟩
  have hread : Json.read (Json.write nullDigests) = .ok nullDigests :=
    Json.read_write_lossless hlossless nofun (by decide)
  simp only [document, hthere, htext, hread]

/-- A load that fails, and leaves the store with the file digests it had and without its records. -/
theorem null_digests_tear :
    (oneFile.load nullDisk ⟨"/", ["s"]⟩).2 = .error .illTyped ∧
    (oneFile.load nullDisk ⟨"/", ["s"]⟩).1.records = [] ∧
    (oneFile.load nullDisk ⟨"/", ["s"]⟩).1.fileHashes = oneFile.fileHashes ∧
    (oneFile.load nullDisk ⟨"/", ["s"]⟩).1 ≠ oneFile ∧
    ¬ Whole nullDisk ⟨"/", ["s"]⟩ oneFile (oneFile.load nullDisk ⟨"/", ["s"]⟩).1 := by
  have hload : oneFile.load nullDisk ⟨"/", ["s"]⟩ = ({ oneFile with records := [] }, .error .illTyped) :=
    load_no_digests document_nullDisk rfl rfl
  rw [hload]
  refine ⟨rfl, rfl, rfl, nofun, ?_⟩
  intro hwhole
  generalize hs : { oneFile with records := [] } = s at hwhole
  cases hwhole with
  | kept => cases hs
  | taken fields records fileHashes found new digests =>
    rw [document_nullDisk] at found
    cases found
    cases digests

end RawStore
end CodeAgent
