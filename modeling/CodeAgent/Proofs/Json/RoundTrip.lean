import CodeAgent.Proofs.Json.Reader
import CodeAgent.Proofs.Table
import CodeAgent.Proofs.Text.Utf8

namespace CodeAgent.Json

variable {t : Text}

theorem joinPairs_eq_self (h : Utf8.Encodable t) : joinPairs t = t := by
  fun_induction joinPairs t with
  | case1 => rfl
  | case2 => rfl
  | case3 c d r hpair =>
    have hhigh := isHighSurrogate_iff.mp ((Bool.and_eq_true _ _).mp hpair).1
    have hc := h c List.mem_cons_self
    simp only [CodePoint.isSurrogate, Bool.and_eq_false_iff, decide_eq_false_iff_not] at hc
    omega
  | case4 c d r _ ih => rw [ih fun e he => h e (List.mem_cons_of_mem c he)]

theorem rereadItems_eq (items : List Json) : rereadItems items = items.map reread := by
  induction items with
  | nil => rfl
  | cons v rest ih => rw [rereadItems, ih, List.map_cons]

mutual
/-- A value that nothing is lost of when it is written. -/
def Lossless : Json → Prop
  | .float x => x.isFinite
  | .str t => Utf8.Encodable t
  | .arr items => LosslessItems items
  | .obj fields => (Table.keys fields).Nodup ∧ LosslessFields fields
  | _ => True

def LosslessItems : List Json → Prop
  | [] => True
  | v :: r => Lossless v ∧ LosslessItems r

def LosslessFields : List (Text × Json) → Prop
  | [] => True
  | (k, v) :: r => Utf8.Encodable k ∧ Lossless v ∧ LosslessFields r
end

theorem losslessItems_iff {items : List Json} : LosslessItems items ↔ ∀ v ∈ items, v.Lossless := by
  induction items with
  | nil => simp [LosslessItems]
  | cons v rest ih => rw [LosslessItems, ih, List.forall_mem_cons]

theorem losslessFields_iff {fields : List (Text × Json)} :
    LosslessFields fields ↔ ∀ field ∈ fields, Utf8.Encodable field.1 ∧ field.2.Lossless := by
  induction fields with
  | nil => simp [LosslessFields]
  | cons field rest ih =>
    obtain ⟨k, v⟩ := field
    rw [LosslessFields, ih, List.forall_mem_cons, and_assoc]

mutual
theorem reread_eq_self {v : Json} (h : v.Lossless) : v.reread = v := by
  cases v with
  | null => rfl
  | bool b => rfl
  | int i => rfl
  | float x => exact rereadFloat_eq h
  | str t => exact congrArg Json.str (joinPairs_eq_self h)
  | arr items => exact congrArg Json.arr (rereadItems_eq_self h)
  | obj fields =>
    obtain ⟨hkeys, hfields⟩ := h
    rw [reread, rereadFields_eq_self hfields, ofPairs, Table.ofPairs_of_nodup hkeys]

theorem rereadItems_eq_self {items : List Json} (h : LosslessItems items) : rereadItems items = items := by
  cases items with
  | nil => rfl
  | cons v rest => rw [rereadItems, reread_eq_self h.1, rereadItems_eq_self h.2]

theorem rereadFields_eq_self {fields : List (Text × Json)} (h : LosslessFields fields) :
    rereadFields fields = fields := by
  cases fields with
  | nil => rfl
  | cons field rest =>
    obtain ⟨k, v⟩ := field
    obtain ⟨hk, hv, hrest⟩ := h
    rw [rereadFields, joinPairs_eq_self hk, reread_eq_self hv, rereadFields_eq_self hrest]
end

variable [Host]

/-- What nothing is lost of comes back as it was, unless its brackets are nested too deeply or a whole number of it
has too many digits. -/
theorem read_write_lossless {v : Json} (h : v.Lossless) (hi : ReadableIntegers v.integers)
    (hd : v.depth ≤ Host.jsonDepth) :
    read (write v) = .ok v := by
  rw [read_write v hi, if_pos hd, reread_eq_self h]

end CodeAgent.Json
