import CodeAgent.Store.Basic
import CodeAgent.Proofs.Table
import Mathlib.Data.List.Nodup

namespace CodeAgent.Store

variable {s : Store} {r : StoredChunk} {rs : List StoredChunk} {ids : List Text} {path path' : Text}

def Distinct (s : Store) : Prop := (s.records.map (·.chunk.id)).Nodup

theorem mem_recordsFor : r ∈ s.recordsFor path ↔ r ∈ s.records ∧ r.chunk.path = path := by
  simp [recordsFor]

theorem mem_delete : r ∈ (s.delete ids).records ↔ r ∈ s.records ∧ r.chunk.id ∉ ids := by
  simp [delete]

theorem Distinct.delete (h : s.Distinct) (ids : List Text) : (s.delete ids).Distinct :=
  h.sublist (List.filter_sublist.map _)

theorem Distinct.eq_of_id (h : s.Distinct) {r' : StoredChunk} (hr : r ∈ s.records) (hr' : r' ∈ s.records)
    (he : r.chunk.id = r'.chunk.id) : r = r' :=
  List.inj_on_of_nodup_map h hr hr' he

theorem Distinct.upsertOne (h : s.Distinct) (r : StoredChunk) : (s.upsertOne r).Distinct := by
  unfold Distinct Store.upsertOne
  rw [List.map_append, List.nodup_append]
  refine ⟨h.sublist (List.filter_sublist.map _), List.nodup_cons.mpr ⟨List.not_mem_nil, List.nodup_nil⟩, ?_⟩
  intro id hid id' hid'
  obtain ⟨r', hr', rfl⟩ := List.mem_map.mp hid
  obtain rfl := List.mem_singleton.mp hid'
  exact of_decide_eq_true (List.mem_filter.mp hr').2

theorem mem_upsertOne {r' : StoredChunk} :
    r' ∈ (s.upsertOne r).records ↔ r' = r ∨ r' ∈ s.records ∧ r'.chunk.id ≠ r.chunk.id := by
  simp [upsertOne, or_comm]

theorem Distinct.upsert (h : s.Distinct) (rs : List StoredChunk) : (s.upsert rs).Distinct := by
  induction rs generalizing s with
  | nil => exact h
  | cons r rest ih => exact ih (h.upsertOne r)

/-- Records with ids of their own are written, and the others keep away from those ids. -/
theorem mem_upsert (hn : (rs.map (·.chunk.id)).Nodup) :
    r ∈ (s.upsert rs).records ↔ r ∈ rs ∨ r ∈ s.records ∧ r.chunk.id ∉ rs.map (·.chunk.id) := by
  induction rs generalizing s with
  | nil => simp [upsert]
  | cons first rest ih =>
    rw [List.map_cons, List.nodup_cons] at hn
    obtain ⟨hfirst, hn⟩ := hn
    rw [upsert, List.foldl_cons, ← upsert, ih hn, mem_upsertOne, List.mem_cons, List.map_cons, List.mem_cons,
      not_or]
    constructor
    · rintro (hr | ⟨rfl | ⟨hr, hne⟩, hrest⟩)
      · exact Or.inl (Or.inr hr)
      · exact Or.inl (Or.inl rfl)
      · exact Or.inr ⟨hr, hne, hrest⟩
    · rintro ((rfl | hr) | ⟨hr, hne, hrest⟩)
      · exact Or.inr ⟨Or.inl rfl, hfirst⟩
      · exact Or.inl hr
      · exact Or.inr ⟨Or.inr ⟨hr, hne⟩, hrest⟩

/-- Every record was there or is a new one. -/
theorem mem_of_mem_upsert (h : r ∈ (s.upsert rs).records) : r ∈ rs ∨ r ∈ s.records := by
  induction rs generalizing s with
  | nil => exact Or.inr h
  | cons first rest ih =>
    rcases ih (s := s.upsertOne first) h with hr | hr
    · exact Or.inl (List.mem_cons_of_mem _ hr)
    · rcases mem_upsertOne.mp hr with rfl | ⟨hr, -⟩
      · exact Or.inl List.mem_cons_self
      · exact Or.inr hr

@[simp]
theorem fileHashes_upsert (s : Store) (rs : List StoredChunk) : (s.upsert rs).fileHashes = s.fileHashes := by
  induction rs generalizing s with
  | nil => rfl
  | cons r rest ih => exact ih (s.upsertOne r)

theorem hash?_setHash (s : Store) (path path' hash : Text) :
    (s.setHash path hash).hash? path' = if path' = path then some hash else s.hash? path' :=
  Table.get?_set _ _ _ _

theorem hash?_eraseHash (s : Store) (path path' : Text) :
    (s.eraseHash path).hash? path' = if path' = path then none else s.hash? path' :=
  Table.get?_erase _ _ _

end CodeAgent.Store
