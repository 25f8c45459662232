import CodeAgent.Host.Usual
import CodeAgent.Proofs.Store.Records
import CodeAgent.Store.History
import CodeAgent.Store.Similarity
import Mathlib.Data.List.Permutation
import Mathlib.Data.Set.Card

namespace CodeAgent

/-- Places of values, each of them once, where the values stand in order. -/
structure Sorts {β : Type} (le : β → β → Bool) (order : List β → List Nat) : Prop where
  places : ∀ xs, (order xs).Perm (List.range xs.length)
  ordered : ∀ xs, ((order xs).filterMap fun i => xs[i]?).Pairwise fun a b => le a b

section

variable {α β : Type} {le : β → β → Bool} {order : List β → List Nat} {scored : List (α × β)} {x y : α × β} {n : Nat}

def inOrder (order : List β → List Nat) (scored : List (α × β)) : List (α × β) :=
  (order (scored.map (·.2))).filterMap fun i => scored[i]?

theorem Sorts.perm (h : Sorts le order) (scored : List (α × β)) : (inOrder order scored).Perm scored := by
  have hall : (List.range scored.length).filterMap (fun i => scored[i]?) = scored := by
    induction scored with
    | nil => rfl
    | cons x rest ih =>
      rw [List.length_cons, List.range_succ_eq_map, List.filterMap_cons, List.filterMap_map]
      exact congrArg (x :: ·) ih
  have hplaces := (h.places (scored.map (·.2))).filterMap fun i => scored[i]?
  rwa [List.length_map, hall] at hplaces

theorem Sorts.descending (h : Sorts (fun a b => le b a) order) (scored : List (α × β)) :
    (inOrder order scored).Pairwise fun x y => le y.2 x.2 := by
  have hscores := h.ordered (scored.map (·.2))
  simp only [List.getElem?_map] at hscores
  rw [← List.map_filterMap, List.pairwise_map] at hscores
  exact hscores

/-- The first places of an order are the first of what is put in order. -/
theorem Sorts.take_inOrder (h : Sorts le order) (scored : List (α × β)) (n : Nat) :
    ((order (scored.map (·.2))).take n).filterMap (fun i => scored[i]?) = (inOrder order scored).take n := by
  have hplace : ∀ i ∈ order (scored.map (·.2)), (scored[i]?).isSome = true := by
    intro i hi
    have hlt := (h.places _).mem_iff.mp hi
    rw [List.mem_range, List.length_map] at hlt
    rw [List.getElem?_eq_getElem hlt]
    rfl
  unfold inOrder
  generalize order (scored.map (·.2)) = is at hplace
  induction is generalizing n with
  | nil => simp
  | cons i rest ih =>
    obtain ⟨hi, hrest⟩ := List.forall_mem_cons.mp hplace
    obtain ⟨x, hx⟩ := Option.isSome_iff_exists.mp hi
    cases n with
    | zero => rfl
    | succ n => rw [List.take_succ_cons, List.filterMap_cons_some hx, List.filterMap_cons_some hx, List.take_succ_cons,
        ih n hrest]

/-- What is left out is not better than what is taken. -/
theorem Sorts.left_out_le (h : Sorts (fun a b => le b a) order) (hx : x ∈ (inOrder order scored).take n)
    (hy : y ∈ scored) (hout : y ∉ (inOrder order scored).take n) : le y.2 x.2 := by
  have hpairs := h.descending scored
  have hdropped : y ∈ (inOrder order scored).drop n := by
    have hmem : y ∈ inOrder order scored := (h.perm scored).mem_iff.mpr hy
    rw [← List.take_append_drop n (inOrder order scored)] at hmem
    exact (List.mem_append.mp hmem).resolve_left hout
  rw [← List.take_append_drop n (inOrder order scored), List.pairwise_append] at hpairs
  exact hpairs.2.2 x hx y hdropped

theorem mergePlaces_sorts (htotal : ∀ a b, le a b || le b a) (htrans : ∀ a b c, le a b → le b c → le a c) :
    Sorts le (mergePlaces le) where
  places xs := by
    have hperm := (List.mergeSort_perm xs.zipIdx fun x y => le x.1 y.1).map (·.2)
    rw [List.zipIdx_map_snd, ← List.range_eq_range'] at hperm
    exact hperm
  ordered xs := by
    have hfound : ∀ x ∈ xs.zipIdx.mergeSort fun x y => le x.1 y.1, ((fun i => xs[i]?) ∘ Prod.snd) x = some x.1 := by
      intro x hx
      exact List.mem_zipIdx_iff_getElem?.mp (List.mem_mergeSort.mp hx)
    have hpairs : (xs.zipIdx.mergeSort fun x y => le x.1 y.1).Pairwise fun x y => le x.1 y.1 :=
      List.pairwise_mergeSort (fun a b c => htrans a.1 b.1 c.1) (fun a b => htotal a.1 b.1) _
    rw [mergePlaces, List.filterMap_map, List.filterMap_congr hfound, List.filterMap_eq_map', List.pairwise_map]
    exact hpairs

end

namespace Binary64

theorem sortLe_total (a b : Binary64) : sortLe a b || sortLe b a := by
  have hcmp : (a.cmp b).isLE ∨ (b.cmp a).isLE := by
    simp only [cmp, Int.isLE_compare]
    exact Int.le_total _ _
  simp only [sortLe, Bool.or_eq_true, Bool.and_eq_true, Bool.not_eq_true']
  cases a.isNaN <;> cases b.isNaN <;> simp [hcmp]

theorem sortLe_trans (a b c : Binary64) (hab : sortLe a b) (hbc : sortLe b c) : sortLe a c := by
  simp only [sortLe, cmp, Bool.or_eq_true, Bool.and_eq_true, Bool.not_eq_true', Int.isLE_compare]
    at hab hbc ⊢
  rcases hbc with hc | ⟨hb, hbc⟩
  · exact Or.inl hc
  · rcases hab with hb' | ⟨ha, hab⟩
    · rw [hb] at hb'
      cases hb'
    · exact Or.inr ⟨ha, Int.le_trans hab hbc⟩

end Binary64

namespace Similarity

def scoreLe (a b : Binary64) : Bool := a.isNaN || (!b.isNaN && (a.cmp b).isLE)

theorem sortLe_neg (a b : Binary64) : Binary64.sortLe a.neg b.neg = scoreLe b a := by
  have hkey : (a.neg.cmp b.neg).isLE = (b.cmp a).isLE := by
    obtain ⟨m, x⟩ := a
    obtain ⟨n, y⟩ := b
    rw [Bool.eq_iff_iff]
    simp only [Binary64.cmp, Binary64.neg, Int.isLE_compare]
    cases m <;> cases n <;> simp only [Bool.not_false, Bool.not_true, Bool.false_eq_true, ↓reduceIte] <;> omega
  unfold Binary64.sortLe scoreLe
  rw [hkey]
  rfl

variable [Host]

/-- Scores are put in order from the largest to the smallest where numbers are put in order from the smallest. -/
theorem order_sorts (h : Sorts Binary64.sortLe Host.numerics.argsort) : Sorts (fun a b => scoreLe b a) order where
  places xs := by
    have hplaces := h.places (xs.map Binary64.neg)
    rwa [List.length_map] at hplaces
  ordered xs := by
    have hordered := h.ordered (xs.map Binary64.neg)
    simp only [List.getElem?_map] at hordered
    rw [← List.map_filterMap, List.pairwise_map] at hordered
    exact hordered.imp fun hle => (sortLe_neg _ _).symm.trans hle

end Similarity

namespace Store

/-- What a change does under one id. -/
inductive Touch where
  | write (record : StoredChunk)
  | drop (id : Text)

def Touch.id : Touch → Text
  | .write r => r.chunk.id
  | .drop id => id

def touches : StoreChange → List Touch
  | .upsert records => records.map .write
  | .delete ids => ids.map .drop
  | .setHash _ _ => []
  | .eraseHash _ => []

/-- The last thing that was done under the id of a record was to write the record. -/
def LastWritten (changes : List StoreChange) (r : StoredChunk) : Prop :=
  ∃ before after, changes.flatMap touches = before ++ .write r :: after ∧ ∀ t ∈ after, t.id ≠ r.chunk.id

def touch (records : List StoredChunk) : Touch → List StoredChunk
  | .write r => records.filter (·.chunk.id ≠ r.chunk.id) ++ [r]
  | .drop id => records.filter (·.chunk.id ≠ id)

variable {s : Store} {r : StoredChunk} {records : List StoredChunk} {changes : List StoreChange} {t : Touch}

theorem mem_touch : r ∈ touch records t ↔ t = .write r ∨ r ∈ records ∧ t.id ≠ r.chunk.id := by
  cases t with
  | write r' =>
    rw [touch, List.mem_append, List.mem_singleton, List.mem_filter, decide_eq_true_iff, or_comm, Touch.write.injEq,
      eq_comm (a := r), ne_comm, Touch.id]
  | drop id =>
    rw [touch, List.mem_filter, decide_eq_true_iff, ne_comm, Touch.id]
    simp

/-- A change to the records is one touch after the other. -/
theorem records_change (s : Store) (c : StoreChange) : (s.change c).records = (touches c).foldl touch s.records := by
  cases c with
  | upsert rs =>
    induction rs generalizing s with
    | nil => rfl
    | cons r rest ih => exact ih (s.upsertOne r)
  | delete ids =>
    change s.records.filter (·.chunk.id ∉ ids) = (ids.map Touch.drop).foldl touch s.records
    generalize s.records = records
    induction ids generalizing records with
    | nil => simp
    | cons id rest ih =>
      rw [List.map_cons, List.foldl_cons, ← ih, touch, List.filter_filter]
      refine List.filter_congr fun r _ => ?_
      simp [Bool.and_comm]
  | setHash path hash => rfl
  | eraseHash path => rfl

theorem records_after (s : Store) (changes : List StoreChange) :
    (s.after changes).records = (changes.flatMap touches).foldl touch s.records := by
  induction changes generalizing s with
  | nil => rfl
  | cons c rest ih => rw [List.flatMap_cons, List.foldl_append, ← records_change, ← ih]; rfl

/-- A record is there just if nothing was done under its id after it was written. -/
theorem mem_after : r ∈ (({} : Store).after changes).records ↔ LastWritten changes r := by
  rw [records_after, LastWritten]
  induction changes.flatMap touches using List.reverseRecOn with
  | nil => simp
  | append_singleton ts t ih =>
    rw [List.foldl_append, List.foldl_cons, List.foldl_nil, mem_touch, ih]
    constructor
    · intro h
      rcases h with rfl | ⟨⟨before, after, rfl, hafter⟩, hne⟩
      · exact ⟨ts, [], rfl, by simp⟩
      · refine ⟨before, after ++ [t], by simp, ?_⟩
        intro t' ht'
        rcases List.mem_append.mp ht' with ht' | ht'
        · exact hafter t' ht'
        · rw [List.mem_singleton.mp ht']
          exact hne
    · intro h
      obtain ⟨before, after, he, hafter⟩ := h
      rcases concat_eq_append_cons he with ⟨rfl, rfl⟩ | ⟨after', rfl⟩
      · exact Or.inl rfl
      · obtain rfl : after' ++ [t] = after := by simpa using he
        refine Or.inr ⟨⟨before, after', rfl, ?_⟩, hafter t (by simp)⟩
        intro t' ht'
        exact hafter t' (List.mem_append_left _ ht')

theorem Distinct.change (h : s.Distinct) (c : StoreChange) : (s.change c).Distinct := by
  cases c with
  | upsert rs => exact h.upsert rs
  | delete ids => exact h.delete ids
  | setHash path hash => exact h
  | eraseHash path => exact h

theorem Distinct.after (h : s.Distinct) (changes : List StoreChange) : (s.after changes).Distinct := by
  induction changes generalizing s with
  | nil => exact h
  | cons c rest ih => exact ih (h.change c)

def Eligible (changes : List StoreChange) (query : Vector64) (r : StoredChunk) : Prop :=
  LastWritten changes r ∧ r.vector.length = query.length

variable {β : Type} {score : Vector64 → Vector64 → β} {le : β → β → Bool} {order : List β → List Nat}
  {query : Vector64} {limit : Int}

/-- The best records for a query, as many as there are up to a limit. -/
structure Best (score : Vector64 → Vector64 → β) (le : β → β → Bool) (changes : List StoreChange) (query : Vector64)
    (limit : Int) (found : List (StoredChunk × β)) : Prop where
  length : found.length = min limit.toNat {id | ∃ r, Eligible changes query r ∧ r.chunk.id = id}.ncard
  eligible : ∀ x ∈ found, Eligible changes query x.1 ∧ x.2 = score query x.1.vector
  distinct : (found.map (·.1.chunk.id)).Nodup
  descending : found.Pairwise fun x y => le y.2 x.2
  best : ∀ r, Eligible changes query r → r.chunk.id ∉ found.map (·.1.chunk.id) →
    ∀ x ∈ found, le (score query r.vector) x.2

def candidates (s : Store) (query : Vector64) : List StoredChunk :=
  s.records.filter (·.vector.length = query.length)

theorem mem_candidates : r ∈ (({} : Store).after changes).candidates query ↔ Eligible changes query r := by
  rw [candidates, List.mem_filter, mem_after, decide_eq_true_iff, Eligible]

theorem nodup_candidates (h : s.Distinct) (query : Vector64) : ((s.candidates query).map (·.chunk.id)).Nodup :=
  h.sublist (List.filter_sublist.map _)

/-- There are as many candidates as ids with an eligible record. -/
theorem length_candidates : ((({} : Store).after changes).candidates query).length =
    {id | ∃ r, Eligible changes query r ∧ r.chunk.id = id}.ncard := by
  have hids : {id | ∃ r, Eligible changes query r ∧ r.chunk.id = id} =
      ((((({} : Store).after changes).candidates query).map (·.chunk.id)).toFinset : Set Text) := by
    ext id
    simp [mem_candidates]
  have hnodup := nodup_candidates (Distinct.after (s := {}) List.nodup_nil changes) query
  rw [hids, Set.ncard_coe_finset, List.toFinset_card_of_nodup hnodup, List.length_map]

def scored (score : Vector64 → Vector64 → β) (s : Store) (query : Vector64) : List (StoredChunk × β) :=
  (s.candidates query).map fun r => (r, score query r.vector)

theorem top_eq (h : Sorts le order) (s : Store) :
    s.top score order query limit = (inOrder order (s.scored score query)).take limit.toNat :=
  h.take_inOrder (s.scored score query) limit.toNat

theorem mem_scored {x : StoredChunk × β} : x ∈ (({} : Store).after changes).scored score query ↔
    Eligible changes query x.1 ∧ x.2 = score query x.1.vector := by
  obtain ⟨r, a⟩ := x
  simp [scored, mem_candidates, eq_comm]

/-- What a search takes is the best, whatever the scores are. -/
theorem Best.of_top (h : Sorts (fun a b => le b a) order) :
    Best score le changes query limit ((({} : Store).after changes).top score order query limit) := by
  have hperm := h.perm ((({} : Store).after changes).scored score query)
  rw [top_eq h]
  constructor
  case length =>
    rw [List.length_take, hperm.length_eq, scored, List.length_map, length_candidates]
  case eligible =>
    intro x hx
    exact mem_scored.mp (hperm.mem_iff.mp (List.mem_of_mem_take hx))
  case distinct =>
    have hnodup := nodup_candidates (Distinct.after (s := {}) List.nodup_nil changes) query
    have hids : ((({} : Store).after changes).scored score query).map (·.1.chunk.id) =
        ((({} : Store).after changes).candidates query).map (·.chunk.id) := by
      simp [scored]
    rw [← hids, ← (hperm.map (·.1.chunk.id)).nodup_iff] at hnodup
    exact hnodup.sublist ((List.take_sublist _ _).map _)
  case descending => exact (h.descending _).sublist (List.take_sublist _ _)
  case best =>
    intro r hr hout x hx
    apply h.left_out_le hx (mem_scored (x := (r, score query r.vector)).mpr ⟨hr, rfl⟩)
    intro hmem
    exact hout (List.mem_map.mpr ⟨_, hmem, rfl⟩)

def shown (x : StoredChunk × Binary64) : ScoredChunk :=
  ⟨x.1.chunk.path, x.1.chunk.kind, x.1.chunk.name, x.1.chunk.text, x.1.chunk.startLine, x.1.chunk.endLine, x.2⟩

/-- Whatever the scores are and however they are put in order, the best of the records are taken that were the last to
be written under their ids, and a search shows the best by the cosine of their angle to the query. -/
theorem search_best [Host] (h : Sorts (fun a b => le b a) order)
    (hsort : Sorts Binary64.sortLe Host.numerics.argsort) (score : Vector64 → Vector64 → β)
    (changes : List StoreChange) (query : Vector64) (limit : Int) :
    Best score le changes query limit ((({} : Store).after changes).top score order query limit) ∧
    ∃ found, Best Similarity.cosine Similarity.scoreLe changes query limit found ∧
      (({} : Store).after changes).search query limit = found.map shown := by
  constructor
  · exact Best.of_top h
  · exact ⟨_, Best.of_top (Similarity.order_sorts hsort), rfl⟩

def versionOf (path text : Text) (vector : Vector64) : StoredChunk :=
  ⟨⟨path ++ ":1", path, "function", "f", text, 1, 1, text⟩, vector⟩

def one : Binary64 := ⟨false, 0x3ff0000000000000⟩

def rewritten : List StoreChange :=
  [.upsert [versionOf "a.py" "old" [one, .zero], versionOf "b.py" "b" [.zero, one], versionOf "d.py" "d" [one, .zero],
      versionOf "c.py" "c" [one, one]],
    .upsert [versionOf "a.py" "new" [.zero, one]], .delete ["b.py:1"]]

def agreement (u v : Vector64) : Nat := (u.zip v).countP fun x => x.1 = x.2

attribute [local instance] Host.usual

/-- The best two of three records are taken, and the record that is left out stands before them in the store. -/
theorem rewritten_found :
    (({} : Store).after rewritten).top agreement (mergePlaces fun a b => decide (b ≤ a)) [.zero, one] 2 =
      [(versionOf "a.py" "new" [.zero, one], 2), (versionOf "c.py" "c" [one, one], 1)] ∧
    Best agreement (· ≤ ·) rewritten [.zero, one] 2
      [(versionOf "a.py" "new" [.zero, one], 2), (versionOf "c.py" "c" [one, one], 1)] := by
  have hfound : (({} : Store).after rewritten).top agreement (mergePlaces fun a b => decide (b ≤ a))
      [.zero, one] 2 = [(versionOf "a.py" "new" [.zero, one], 2), (versionOf "c.py" "c" [one, one], 1)] := by
    cbv
  have hsorts : Sorts (fun a b : Nat => decide (b ≤ a)) (mergePlaces fun a b => decide (b ≤ a)) := by
    refine mergePlaces_sorts (fun a b => ?_) fun a b c hab hbc => ?_
    · simpa using Nat.le_total b a
    · simpa using Nat.le_trans (of_decide_eq_true hbc) (of_decide_eq_true hab)
  have hbest := (search_best hsorts (mergePlaces_sorts Binary64.sortLe_total Binary64.sortLe_trans) agreement
      rewritten [.zero, one] 2).1
  rw [hfound] at hbest
  exact ⟨hfound, hbest⟩

end Store
end CodeAgent
