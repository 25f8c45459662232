import CodeAgent.Disk.Tree
import CodeAgent.Proofs.Table

namespace CodeAgent.Disk

variable {d : Disk} {x y : Place} {e : Entry}

@[simp]
theorem lookup?_root (d : Disk) : d.lookup? [] = some .directory := rfl

theorem lookup?_of_ne (h : x ≠ []) : d.lookup? x = Table.get? x d.entries := by
  simp [lookup?, h]

theorem mem_of_lookup? (h : d.lookup? x = some e) (hx : x ≠ []) : (x, e) ∈ d.entries := by
  rw [lookup?_of_ne hx] at h
  exact Table.mem_of_get? h

theorem lookup?_put_self (d : Disk) (hx : x ≠ []) : (d.put x e).lookup? x = some e := by
  rw [lookup?_of_ne hx]
  exact Table.get?_set_self _ _ _

theorem lookup?_put_of_ne (d : Disk) (h : y ≠ x) : (d.put x e).lookup? y = d.lookup? y := by
  by_cases hy : y = []
  · simp [hy]
  · rw [lookup?_of_ne hy, lookup?_of_ne hy]
    exact Table.get?_set_of_ne h _ _

theorem lookup?_erase_self (d : Disk) (hx : x ≠ []) : (d.erase x).lookup? x = none := by
  rw [lookup?_of_ne hx]
  simp [erase, Table.get?_erase]

theorem lookup?_erase_of_ne (d : Disk) (h : y ≠ x) : (d.erase x).lookup? y = d.lookup? y := by
  by_cases hy : y = []
  · simp [hy]
  · rw [lookup?_of_ne hy, lookup?_of_ne hy]
    simp [erase, Table.get?_erase, h]

def IsTree (d : Disk) : Prop := ∀ entry ∈ d.entries, d.lookup? entry.1.dropLast = some .directory

instance (d : Disk) : Decidable d.IsTree := inferInstanceAs (Decidable (∀ entry ∈ d.entries, _))

theorem IsTree.parent (h : d.IsTree) (he : d.lookup? x = some e) :
    d.lookup? x.dropLast = some .directory := by
  by_cases hx : x = []
  · simp [hx]
  · exact h _ (mem_of_lookup? he hx)

/-- Above an entry there are only directories. -/
theorem IsTree.above (h : d.IsTree) (he : d.lookup? y = some e) (hp : x <+: y) (hne : x ≠ y) :
    d.lookup? x = some .directory := by
  obtain ⟨rest, rfl⟩ := hp
  induction hn : rest.length generalizing rest e with
  | zero =>
    rw [List.length_eq_zero_iff.mp hn] at hne
    simp at hne
  | succ n ih =>
    obtain ⟨rest, name, rfl⟩ := (List.eq_nil_or_concat rest).resolve_left (by rintro rfl; simp at hn)
    have hparent := h.parent he
    rw [List.concat_eq_append, ← List.append_assoc, List.dropLast_concat] at hparent
    by_cases hr : rest = []
    · simpa [hr] using hparent
    · exact ih rest hparent (by simpa using hr) (by simpa using hn)

theorem IsTree.put (h : d.IsTree) (hparent : d.lookup? x.dropLast = some .directory)
    (hx : d.lookup? x = some .directory → e = .directory) : (d.put x e).IsTree := by
  intro entry hm
  have hdirectory : d.lookup? entry.1.dropLast = some .directory := by
    rcases Table.mem_set hm with hm | rfl
    · exact h entry hm
    · exact hparent
  by_cases hat : entry.1.dropLast = x
  · by_cases hroot : x = []
    · simp [hat, hroot]
    · rw [hat] at hdirectory ⊢
      rw [lookup?_put_self d hroot, hx hdirectory]
  · rw [lookup?_put_of_ne d hat]
    exact hdirectory

theorem IsTree.erase (h : d.IsTree) (hx : d.lookup? x ≠ some .directory) : (d.erase x).IsTree := by
  intro entry hm
  have hdirectory := h entry (Table.mem_of_mem_erase hm)
  have hat : entry.1.dropLast ≠ x := by
    rintro he
    rw [he] at hdirectory
    exact hx hdirectory
  rw [lookup?_erase_of_ne d hat]
  exact hdirectory

end CodeAgent.Disk
