import CodeAgent.Proofs.Source.Chunk
import CodeAgent.Proofs.Store.Records

namespace CodeAgent

namespace Table

variable {κ ν : Type} [DecidableEq κ]

theorem erase_set_self (t : Table κ ν) (k : κ) (v : ν) : erase k (set k v t) = erase k t := by
  induction t with
  | nil => simp [set, erase]
  | cons x rest ih =>
    obtain ⟨k', v'⟩ := x
    simp only [erase] at ih ⊢
    simp only [set]
    split
    · rename_i he
      simp [he]
    · rw [List.filter_cons, List.filter_cons, ih]

theorem erase_erase_self (t : Table κ ν) (k : κ) : erase k (erase k t) = erase k t := by
  simp [erase]

end Table

namespace Store
open Source

variable {s : Store} {rs : List StoredChunk} {r r' : StoredChunk} {ids : List Text} {name : Text}

def without (s : Store) (name : Text) : Store :=
  ⟨s.records.filter (·.chunk.path ≠ name), s.fileHashes.erase name⟩

/-- Records of one file leave those of the others. -/
theorem without_upsert (hrs : ∀ r ∈ rs, r.chunk.path = name)
    (hids : ∀ r ∈ rs, ∀ r' ∈ s.records, r'.chunk.id = r.chunk.id → r'.chunk.path = name) :
    (s.upsert rs).without name = s.without name := by
  induction rs generalizing s with
  | nil => rfl
  | cons r rest ih =>
    obtain ⟨hr, hrest⟩ := List.forall_mem_cons.mp hrs
    obtain ⟨hid, hids⟩ := List.forall_mem_cons.mp hids
    have hone : (s.upsertOne r).without name = s.without name := by
      have hothers : (s.records.filter (·.chunk.id ≠ r.chunk.id)).filter (·.chunk.path ≠ name) =
          s.records.filter (·.chunk.path ≠ name) := by
        rw [List.filter_filter]
        apply List.filter_congr
        intro r' hr'
        have hown := hid r' hr'
        by_cases hp : r'.chunk.path = name
        · simp [hp]
        · have hne : r'.chunk.id ≠ r.chunk.id := fun he => hp (hown he)
          simp [hp, hne]
      simp only [without, upsertOne, List.filter_append, hothers]
      simp [hr]
    rw [← hone]
    apply ih hrest
    intro r₁ hr₁ r' hr' he
    rcases mem_upsertOne.mp hr' with rfl | ⟨hr', -⟩
    · exact hr
    · exact hids r₁ hr₁ r' hr' he

theorem without_delete (h : ∀ r ∈ s.records, r.chunk.id ∈ ids → r.chunk.path = name) :
    (s.delete ids).without name = s.without name := by
  have hothers : (s.records.filter (·.chunk.id ∉ ids)).filter (·.chunk.path ≠ name) =
      s.records.filter (·.chunk.path ≠ name) := by
    rw [List.filter_filter]
    apply List.filter_congr
    intro r hr
    have hown := h r hr
    by_cases hp : r.chunk.path = name
    · simp [hp]
    · have hout : r.chunk.id ∉ ids := fun hm => hp (hown hm)
      simp [hp, hout]
  simp only [without, delete, hothers]

theorem without_setHash (s : Store) (name hash : Text) : (s.setHash name hash).without name = s.without name := by
  simp only [without, setHash, Table.erase_set_self]

theorem without_eraseHash (s : Store) (name : Text) : (s.eraseHash name).without name = s.without name := by
  simp only [without, eraseHash, Table.erase_erase_self]

/-- One record for an id, and the id of every record says whose it is and where it starts. -/
structure Keyed (s : Store) : Prop where
  distinct : s.Distinct
  id : ∀ r ∈ s.records, r.chunk.id = chunkId r.chunk.path r.chunk.startLine
  hash : ∀ r ∈ s.records, r.chunk.hash = hashText r.chunk.text

theorem keyed_empty : Keyed {} := ⟨List.nodup_nil, by simp, by simp⟩

theorem Keyed.path_eq (h : s.Keyed) (hr : r ∈ s.records) {line : Nat} (he : r.chunk.id = chunkId name line) :
    r.chunk.path = name :=
  (chunkId_inj ((h.id r hr).symm.trans he)).1

theorem Keyed.upsert (h : s.Keyed) (hid : ∀ r ∈ rs, r.chunk.id = chunkId r.chunk.path r.chunk.startLine)
    (hhash : ∀ r ∈ rs, r.chunk.hash = hashText r.chunk.text) : (s.upsert rs).Keyed := by
  refine ⟨h.distinct.upsert rs, ?_, ?_⟩
  · intro r hr
    exact (mem_of_mem_upsert hr).elim (hid r) (h.id r)
  · intro r hr
    exact (mem_of_mem_upsert hr).elim (hhash r) (h.hash r)

theorem Keyed.delete (h : s.Keyed) (ids : List Text) : (s.delete ids).Keyed := by
  refine ⟨h.distinct.delete ids, ?_, ?_⟩
  · intro r hr
    exact h.id r (mem_delete.mp hr).1
  · intro r hr
    exact h.hash r (mem_delete.mp hr).1

end Store
end CodeAgent
