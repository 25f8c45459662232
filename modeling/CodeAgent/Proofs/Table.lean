import CodeAgent.Table
import Mathlib.Data.List.Induction

namespace CodeAgent

/-- An element of a list that grows at its end is the new one, or was there before. -/
theorem concat_eq_append_cons {α : Type} {l before after : List α} {x y : α} (h : l ++ [x] = before ++ y :: after) :
    l = before ∧ x = y ∨ ∃ after', l = before ++ y :: after' := by
  rcases List.eq_nil_or_concat after with rfl | ⟨after, last, rfl⟩
  · obtain ⟨he, hx⟩ := List.append_inj' h rfl
    exact Or.inl ⟨he, List.head_eq_of_cons_eq hx⟩
  · rw [List.concat_eq_append, ← List.cons_append, ← List.append_assoc] at h
    exact Or.inr ⟨after, (List.append_inj' h rfl).1⟩

namespace Table

variable {κ ν : Type} [DecidableEq κ]

theorem mem_of_get? {t : Table κ ν} {k : κ} {v : ν} (h : t.get? k = some v) : (k, v) ∈ t := by
  induction t with
  | nil => cases h
  | cons x rest ih =>
    obtain ⟨k', v'⟩ := x
    simp only [get?] at h
    split at h
    · rename_i he
      subst he
      cases h
      exact List.mem_cons_self
    · exact List.mem_cons_of_mem _ (ih h)

/-- Where no key comes twice, every pair is found. -/
theorem get?_of_mem {t : Table κ ν} {k : κ} {v : ν} (hn : (keys t).Nodup) (h : (k, v) ∈ t) : t.get? k = some v := by
  induction t with
  | nil => cases h
  | cons x rest ih =>
    obtain ⟨k', v'⟩ := x
    obtain ⟨hk, hn⟩ := List.nodup_cons.mp hn
    rw [get?]
    rcases List.mem_cons.mp h with he | h
    · cases he
      exact if_pos rfl
    · rw [if_neg]
      · exact ih hn h
      · rintro rfl
        exact hk (List.mem_map.mpr ⟨(k', v), h, rfl⟩)

theorem mem_keys_iff {t : Table κ ν} {k : κ} : k ∈ keys t ↔ get? k t ≠ none := by
  induction t with
  | nil => simp [keys, get?]
  | cons x rest ih =>
    obtain ⟨k', v'⟩ := x
    simp only [keys] at ih
    simp only [keys, get?, List.map_cons, List.mem_cons, ih]
    split
    · rename_i he
      simp [he]
    · rename_i hne
      simp [Ne.symm hne]

theorem get?_set_self (t : Table κ ν) (k : κ) (v : ν) : get? k (set k v t) = some v := by
  induction t with
  | nil => simp [set, get?]
  | cons x rest ih =>
    obtain ⟨k', v'⟩ := x
    simp only [set]
    split
    · simp [get?, *]
    · simp [get?, *]

theorem get?_set_of_ne {k k' : κ} (hne : k' ≠ k) (t : Table κ ν) (v : ν) :
    get? k' (set k v t) = get? k' t := by
  induction t with
  | nil => simp [set, get?, hne.symm]
  | cons x rest ih =>
    obtain ⟨k'', v'⟩ := x
    simp only [set]
    split
    · rename_i he
      subst he
      simp [get?, hne.symm]
    · simp only [get?, ih]

theorem get?_set (t : Table κ ν) (k k' : κ) (v : ν) :
    get? k' (set k v t) = if k' = k then some v else get? k' t := by
  split
  · rename_i he
    subst he
    exact get?_set_self t _ v
  · rename_i hne
    exact get?_set_of_ne hne t v

/-- A key that is erased has no value, and the others keep theirs. -/
theorem get?_erase (t : Table κ ν) (k k' : κ) :
    get? k' (erase k t) = if k' = k then none else get? k' t := by
  induction t with
  | nil => simp [erase, get?]
  | cons x rest ih =>
    obtain ⟨k'', v'⟩ := x
    simp only [erase] at ih ⊢
    by_cases he : k'' = k
    · subst he
      rw [List.filter_cons_of_neg (by simp), ih]
      split
      · rfl
      · rename_i hne
        simp [get?, Ne.symm hne]
    · rw [List.filter_cons_of_pos (by simp [he])]
      simp only [get?, ih]
      split
      · rename_i he'
        subst he'
        simp [he]
      · rfl

/-- Setting a key adds one pair at most. -/
theorem mem_set {t : Table κ ν} {k : κ} {v : ν} {x : κ × ν} (h : x ∈ set k v t) :
    x ∈ t ∨ x = (k, v) := by
  induction t with
  | nil =>
    right
    simpa [set] using h
  | cons y rest ih =>
    obtain ⟨k', v'⟩ := y
    simp only [set] at h
    split at h
    · rename_i he
      subst he
      rcases List.mem_cons.mp h with rfl | h
      · exact Or.inr rfl
      · exact Or.inl (List.mem_cons_of_mem _ h)
    · rcases List.mem_cons.mp h with rfl | h
      · exact Or.inl List.mem_cons_self
      · rcases ih h with h | h
        · exact Or.inl (List.mem_cons_of_mem _ h)
        · exact Or.inr h

/-- Looking only at some of the keys, setting a key shows if it is one of them. -/
theorem filter_set (p : κ → Bool) (t : Table κ ν) (k : κ) (v : ν) :
    (set k v t).filter (fun x => p x.1) =
      if p k then set k v (t.filter fun x => p x.1) else t.filter fun x => p x.1 := by
  induction t with
  | nil => cases hp : p k <;> simp [set, hp]
  | cons x rest ih =>
    obtain ⟨k', v'⟩ := x
    by_cases he : k' = k
    · subst he
      cases hp : p k' <;> simp [set, hp]
    · cases hp' : p k' <;> cases hp : p k <;> simp_all [set]

theorem mem_of_mem_erase {t : Table κ ν} {k : κ} {x : κ × ν} (h : x ∈ erase k t) : x ∈ t :=
  (List.mem_filter.mp h).1

theorem mem_keys_set (t : Table κ ν) (k k' : κ) (v : ν) :
    k' ∈ keys (set k v t) ↔ k' = k ∨ k' ∈ keys t := by
  induction t with
  | nil => simp [set, keys]
  | cons x rest ih =>
    obtain ⟨k'', v'⟩ := x
    simp only [keys] at ih ⊢
    simp only [set]
    split
    · rename_i he
      subst he
      simp
    · simp only [List.map_cons, List.mem_cons, ih]
      exact or_left_comm

/-- To set a key brings no key in twice. -/
theorem nodup_keys_set {t : Table κ ν} (h : (keys t).Nodup) (k : κ) (v : ν) :
    (keys (set k v t)).Nodup := by
  induction t with
  | nil => simp [set, keys]
  | cons x rest ih =>
    obtain ⟨k', v'⟩ := x
    simp only [keys, List.map_cons, List.nodup_cons] at h
    simp only [set]
    split
    · simpa [keys] using h
    · rename_i hne
      have hk : k' ∉ keys (set k v rest) := by
        rw [mem_keys_set]
        rintro (he | hm)
        · exact hne he
        · exact h.1 hm
      exact List.nodup_cons.mpr ⟨hk, ih h.2⟩

theorem set_of_not_mem {t : Table κ ν} {k : κ} (h : k ∉ keys t) (v : ν) : set k v t = t ++ [(k, v)] := by
  induction t with
  | nil => rfl
  | cons x rest ih =>
    obtain ⟨k', v'⟩ := x
    rw [keys, List.map_cons, List.mem_cons, not_or] at h
    rw [set, if_neg (Ne.symm h.1), ih h.2, List.cons_append]

/-- Pairs with keys of their own are a table already. -/
theorem ofPairs_of_nodup {pairs : List (κ × ν)} (h : (keys pairs).Nodup) : ofPairs pairs = pairs := by
  have hfold (rest done : List (κ × ν)) (h : (keys (done ++ rest)).Nodup) :
      rest.foldl (fun t x => set x.1 x.2 t) done = done ++ rest := by
    induction rest generalizing done with
    | nil => simp
    | cons x rest ih =>
      have hnew : x.1 ∉ keys done := by
        rw [keys, List.map_append, List.nodup_append] at h
        exact fun hm => h.2.2 _ hm _ List.mem_cons_self rfl
      rw [List.foldl_cons, set_of_not_mem hnew, ih _ (by simpa using h), List.append_assoc, List.singleton_append]
  exact hfold pairs [] h

/-- A table made of pairs has their keys. -/
theorem mem_keys_ofPairs (pairs : List (κ × ν)) (k : κ) :
    k ∈ keys (ofPairs pairs) ↔ k ∈ pairs.map (·.1) := by
  have go (t : Table κ ν) : k ∈ keys (pairs.foldl (fun t x => set x.1 x.2 t) t) ↔
      k ∈ keys t ∨ k ∈ pairs.map (·.1) := by
    induction pairs generalizing t with
    | nil => simp
    | cons x rest ih =>
      rw [List.foldl_cons, ih, mem_keys_set, List.map_cons, List.mem_cons, or_assoc]
      exact or_left_comm
  rw [ofPairs, go]
  simp [keys]

/-- A table made of pairs has the last value that came with a key. -/
theorem get?_ofPairs (pairs : List (κ × ν)) (k : κ) : get? k (ofPairs pairs) = get? k pairs.reverse := by
  induction pairs using List.reverseRecOn with
  | nil => rfl
  | append_singleton pairs x ih =>
    obtain ⟨k', v⟩ := x
    have hset : ofPairs (pairs ++ [(k', v)]) = set k' v (ofPairs pairs) := by
      rw [ofPairs, List.foldl_append]
      rfl
    rw [hset, get?_set, ih, List.reverse_append, List.reverse_singleton, List.singleton_append, get?]
    exact ite_congr (propext eq_comm) (fun _ => rfl) fun _ => rfl

/-- Where no key comes twice, the order of the pairs does not matter. -/
theorem get?_reverse {t : Table κ ν} (hn : (keys t).Nodup) (k : κ) : get? k t.reverse = get? k t := by
  have hreverse : (keys t.reverse).Nodup := ((List.reverse_perm t).map Prod.fst).nodup_iff.mpr hn
  ext v
  constructor
  · exact fun h => get?_of_mem hn (List.mem_reverse.mp (mem_of_get? h))
  · exact fun h => get?_of_mem hreverse (List.mem_reverse.mpr (mem_of_get? h))

end Table
end CodeAgent
