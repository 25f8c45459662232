import CodeAgent.Json.Printer
import CodeAgent.Proofs.Disk.Name

namespace CodeAgent

namespace Text

variable {s t : Text}

def IsPrintable (t : Text) : Prop := ∀ c ∈ t, 32 ≤ c.val ∧ c.val < 127

instance (t : Text) : Decidable t.IsPrintable := inferInstanceAs (Decidable (∀ c ∈ t, _))

theorem IsPrintable.append (hs : IsPrintable s) (ht : IsPrintable t) : IsPrintable (s ++ t) := by
  intro c hc
  rcases List.mem_append.mp hc with hc | hc
  · exact hs c hc
  · exact ht c hc

theorem IsPrintable.subset (ht : IsPrintable t) (h : s ⊆ t) : IsPrintable s := fun c hc => ht c (h hc)

theorem IsPrintable.joinWith {parts : List Text} (hs : IsPrintable s) (h : ∀ part ∈ parts, IsPrintable part) :
    IsPrintable (Text.joinWith s parts) := by
  intro c hc
  rcases mem_joinWith hc with hc | ⟨part, hp, hc⟩
  · exact hs c hc
  · exact h part hp c hc

theorem isPrintable_ofNat (n : Nat) : IsPrintable (ofNat n) := by
  intro c hc
  obtain ⟨d, hd, rfl⟩ := List.mem_map.mp hc
  rw [Nat.toList_repr] at hd
  have hdigit := Nat.isDigit_of_mem_toDigits (by decide) (by decide) hd
  rw [Char.isDigit_iff_toNat] at hdigit
  exact ⟨Nat.le_trans (by decide) hdigit.1, Nat.lt_of_le_of_lt hdigit.2 (by decide)⟩

theorem isPrintable_ofInt (i : Int) : IsPrintable (ofInt i) := by
  cases i with
  | ofNat n => exact isPrintable_ofNat n
  | negSucc n => exact List.forall_mem_cons.mpr ⟨by decide, isPrintable_ofNat (n + 1)⟩

theorem isPrintable_hex (w n : Nat) : IsPrintable (hex w n) := by
  induction w generalizing n with
  | zero => exact fun c hc => absurd hc List.not_mem_nil
  | succ w ih =>
    have hdigit : ∀ k < 16, 32 ≤ (hexDigit k).val ∧ (hexDigit k).val < 127 := by decide
    refine (ih (n / 16)).append ?_
    intro c hc
    rw [List.mem_singleton.mp hc]
    exact hdigit _ (Nat.mod_lt n (by decide))

theorem IsPrintable.encode (h : IsPrintable t) : ∃ bytes, Utf8.encode t = .ok bytes := by
  rw [Disk.encode_ok_iff]
  intro c hc
  obtain ⟨-, hlt⟩ := h c hc
  simp only [CodePoint.isSurrogate, Bool.and_eq_false_iff, decide_eq_false_iff_not]
  omega

end Text

namespace Decimal
open Text

theorem isPrintable_zeros (n : Nat) : IsPrintable (zeros n) := by
  intro c hc
  rw [List.eq_of_mem_replicate hc]
  decide

/-- A number is laid out in printable letters. -/
theorem isPrintable_layout {digits : Text} (h : IsPrintable digits) (e : Int) : IsPrintable (layout digits e) := by
  have htake := fun n => h.subset (List.take_subset n digits)
  have hdrop := fun n => h.subset (List.drop_subset n digits)
  unfold layout
  dsimp only
  split
  · split
    · exact ((show IsPrintable "0." by decide).append (isPrintable_zeros _)).append h
    split
    · exact (h.append (isPrintable_zeros _)).append (by decide)
    · exact ((htake _).append (by decide)).append (hdrop _)
  · refine ((((htake 1).append ?_).append ?_).append (isPrintable_zeros _)).append (isPrintable_ofNat _)
    · split
      · decide
      · exact (show IsPrintable "." by decide).append (hdrop 1)
    · split <;> decide

/-- A number is shown in printable letters. -/
theorem isPrintable_display (x : Binary64) : IsPrintable (display x) := by
  have hsign : IsPrintable (if x.negative then "-" else "") := by split <;> decide
  have hdigits : IsPrintable (stripZeros (ofNat (shortest x).1) (shortest x).2).1 := by
    refine (isPrintable_ofNat (shortest x).1).subset ?_
    intro c hc
    exact List.mem_reverse.mp ((List.dropWhile_sublist _).subset (List.mem_reverse.mp hc))
  unfold display
  dsimp only
  split
  · decide
  split
  · exact hsign.append (by decide)
  split
  · exact hsign.append (by decide)
  · exact hsign.append (isPrintable_layout hdigits _)

end Decimal

namespace Json
open Text

theorem isPrintable_unit (n : Nat) : IsPrintable (unit n) :=
  (show IsPrintable "\\u" by decide).append (isPrintable_hex 4 n)

/-- A code point is written in printable letters. -/
theorem isPrintable_escapePoint (c : CodePoint) : IsPrintable (escapePoint c) := by
  unfold escapePoint
  split
  · decide
  split
  · decide
  split
  · decide
  split
  · decide
  split
  · decide
  split
  · decide
  split
  · decide
  split
  · rename_i hc
    rw [Bool.and_eq_true, decide_eq_true_eq, decide_eq_true_eq] at hc
    intro d hd
    rw [List.mem_singleton.mp hd]
    omega
  split
  · exact isPrintable_unit _
  · exact (isPrintable_unit _).append (isPrintable_unit _)

theorem isPrintable_writeString (t : Text) : IsPrintable (writeString t) := by
  refine ((show IsPrintable "\"" by decide).append ?_).append (by decide)
  intro d hd
  obtain ⟨c, -, hc⟩ := List.mem_flatMap.mp hd
  exact isPrintable_escapePoint c d hc

mutual
/-- A document is written in printable letters. -/
theorem isPrintable_write (v : Json) : IsPrintable (write v) := by
  cases v with
  | null => decide
  | bool b => cases b <;> decide
  | int i => exact isPrintable_ofInt i
  | float x =>
    rw [write, writeFloat]
    split
    · decide
    split
    · split <;> decide
    · exact Decimal.isPrintable_display x
  | str t => exact isPrintable_writeString t
  | arr items =>
    have hitems := isPrintable_writeItems items
    exact ((show IsPrintable "[" by decide).append (IsPrintable.joinWith (by decide) hitems)).append (by decide)
  | obj fields =>
    have hfields := isPrintable_writeFields fields
    exact ((show IsPrintable "\x7b" by decide).append (IsPrintable.joinWith (by decide) hfields)).append (by decide)

theorem isPrintable_writeItems (items : List Json) : ∀ t ∈ writeItems items, IsPrintable t := by
  cases items with
  | nil => exact fun t ht => absurd ht List.not_mem_nil
  | cons v rest => exact List.forall_mem_cons.mpr ⟨isPrintable_write v, isPrintable_writeItems rest⟩

theorem isPrintable_writeFields (fields : List (Text × Json)) : ∀ t ∈ writeFields fields, IsPrintable t := by
  cases fields with
  | nil => exact fun t ht => absurd ht List.not_mem_nil
  | cons field rest =>
    obtain ⟨key, v⟩ := field
    refine List.forall_mem_cons.mpr ⟨?_, isPrintable_writeFields rest⟩
    exact ((isPrintable_writeString key).append (by decide)).append (isPrintable_write v)
end

end Json
end CodeAgent
