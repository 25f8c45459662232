import CodeAgent.Number.Decimal
import CodeAgent.Proofs.Text.Lines
import Mathlib.Algebra.Field.Rat
import Mathlib.Algebra.GroupWithZero.Basic
import Mathlib.Data.List.TakeWhile
import Mathlib.Tactic.Ring

namespace CodeAgent

namespace Text

theorem ofNat_eq_map (n : Nat) : ofNat n = (Nat.toDigits 10 n).map CodePoint.ofChar := by
  rw [ofNat, ofString, Nat.toList_repr]

theorem isDigit_of_mem_ofNat {n : Nat} {c : CodePoint} (h : c ∈ ofNat n) : c.isDigit := by
  rw [ofNat_eq_map] at h
  obtain ⟨d, hd, rfl⟩ := List.mem_map.mp h
  have hdigit := Nat.isDigit_of_mem_toDigits (by decide) (by decide) hd
  rw [Char.isDigit_iff_toNat] at hdigit
  rw [CodePoint.isDigit, Bool.and_eq_true, decide_eq_true_eq, decide_eq_true_eq]
  exact hdigit

theorem ofNat_ne_nil (n : Nat) : ofNat n ≠ [] := by
  rw [ofNat_eq_map, Ne, List.map_eq_nil_iff]
  exact Nat.toDigits_ne_nil

theorem length_ofNat_le_iff {n k : Nat} (hk : 0 < k) : (ofNat n).length ≤ k ↔ n < Nat.pow 10 k := by
  rw [ofNat_eq_map, List.length_map, Nat.length_toDigits_le_iff (by decide) hk]
  rfl

/-- Only the digits of zero start with a zero. -/
theorem toDigits_eq_cons {n : Nat} (h : n ≠ 0) : ∃ c r, Nat.toDigits 10 n = c :: r ∧ c ≠ '0' := by
  induction n using Nat.strongRecOn with
  | ind n ih =>
    rw [Nat.toDigits_eq_if (by decide)]
    split
    · rename_i hlt
      have hall : ∀ k < 10, k ≠ 0 → Nat.digitChar k ≠ '0' := by decide
      exact ⟨_, [], rfl, hall n hlt h⟩
    · rename_i hge
      obtain ⟨c, r, he, hc⟩ := ih (n / 10) (by omega) (by omega)
      exact ⟨c, r ++ _, by rw [he]; rfl, hc⟩

end Text

namespace Decimal
open Text

variable {ds w t : Text}

def IsDigits (ds : Text) : Prop := ds ≠ [] ∧ ∀ c ∈ ds, c.isDigit

instance (ds : Text) : Decidable (IsDigits ds) := inferInstanceAs (Decidable (_ ∧ _))

def IsLeading (ds : Text) : Prop :=
  (∀ c ∈ ds, c.isDigit) ∧ ∃ c r, ds = c :: r ∧ c ≠ CodePoint.ofChar '0'

def IsNumeral (ds : Text) : Prop := ds = "0" ∨ IsLeading ds

theorem IsLeading.isDigits (h : IsLeading ds) : IsDigits ds := by
  obtain ⟨hall, c, r, rfl, -⟩ := h
  exact ⟨List.cons_ne_nil c r, hall⟩

theorem isDigit_of_mem_zeros {n : Nat} {c : CodePoint} (h : c ∈ zeros n) : c.isDigit := by
  rw [List.eq_of_mem_replicate h]
  decide

theorem IsDigits.append_left (h : IsDigits ds) (hw : ∀ c ∈ w, c.isDigit) : IsDigits (w ++ ds) :=
  ⟨by simp [h.1], fun c hc => (List.mem_append.mp hc).elim (hw c) (h.2 c)⟩

theorem IsLeading.append (h : IsLeading ds) (hw : ∀ c ∈ w, c.isDigit) : IsLeading (ds ++ w) := by
  obtain ⟨hall, c, r, rfl, hc⟩ := h
  exact ⟨fun d hd => (List.mem_append.mp hd).elim (hall d) (hw d), c, r ++ w, rfl, hc⟩

theorem IsLeading.of_prefix (h : IsLeading ds) (hw : w <+: ds) (hne : w ≠ []) : IsLeading w := by
  obtain ⟨rest, rfl⟩ := hw
  obtain ⟨hall, c, r, he, hc⟩ := h
  refine ⟨fun d hd => hall d (List.mem_append_left _ hd), ?_⟩
  cases w with
  | nil => exact absurd rfl hne
  | cons d w =>
    cases he
    exact ⟨_, w, rfl, hc⟩

theorem isDigits_ofNat (n : Nat) : IsDigits (ofNat n) := ⟨ofNat_ne_nil n, fun _ => isDigit_of_mem_ofNat⟩

theorem isLeading_ofNat {n : Nat} (h : n ≠ 0) : IsLeading (ofNat n) := by
  obtain ⟨c, r, he, hc⟩ := toDigits_eq_cons h
  refine ⟨fun _ => isDigit_of_mem_ofNat, CodePoint.ofChar c, r.map CodePoint.ofChar, ?_, ?_⟩
  · rw [ofNat_eq_map, he, List.map_cons]
  · exact fun h => hc (ofChar_injective h)

theorem isNumeral_ofNat (n : Nat) : IsNumeral (ofNat n) := by
  by_cases h : n = 0
  · left
    rw [h]
    rfl
  · exact Or.inr (isLeading_ofNat h)

/-- Digits that are read give the number that was written. -/
theorem ofDigits_ofNat (n : Nat) : ofDigits (ofNat n) = n := by
  have h := Nat.ofDigitChars_ten_toDigits (n := n)
  rw [Nat.ofDigitChars_eq_foldl] at h
  rw [ofNat_eq_map, ofDigits, List.foldl_map]
  simpa [CodePoint.ofChar, Nat.mul_comm] using h

theorem ofDigits_append (ds w : Text) : ofDigits (ds ++ w) = ofDigits ds * 10 ^ w.length + ofDigits w := by
  have hfold (w : Text) (n : Nat) : w.foldl (fun n c => n * 10 + (c.val - 48)) n = n * 10 ^ w.length + ofDigits w := by
    induction w generalizing n with
    | nil => simp [ofDigits]
    | cons c w ih =>
      rw [ofDigits, List.foldl_cons, List.foldl_cons, ih, ih, List.length_cons, pow_succ]
      ring
  rw [ofDigits, List.foldl_append, hfold]
  rfl

theorem ofDigits_zeros (n : Nat) : ofDigits (zeros n) = 0 := by
  induction n with
  | zero => rfl
  | succ n ih => exact ih

def pointed (f : Text) : Text := if f = [] then [] else "." ++ f

def mark (negative : Bool) : Text := if negative then "e-" else "e+"

/-- A number with a fraction, an exponent or both, without its sign: its text, its digits and the exponent of the last
of them. -/
inductive Spelled : Text → Nat → Int → Prop
  | fraction {w d : Text} (hw : IsNumeral w) (hd : IsDigits d) :
      Spelled (w ++ "." ++ d) (ofDigits (w ++ d)) (-d.length)
  | exponent {w f d : Text} {negative : Bool} (hw : IsNumeral w) (hf : ∀ c ∈ f, c.isDigit) (hd : IsDigits d) :
      Spelled (w ++ pointed f ++ mark negative ++ d) (ofDigits (w ++ f))
        ((if negative then -(ofDigits d : Int) else ofDigits d) - f.length)

/-- Zeros at the end of a number other than zero go, and its first digit stays. -/
theorem isLeading_stripZeros (h : IsLeading t) (e : Int) : IsLeading (stripZeros t e).1 := by
  have hprefix : (stripZeros t e).1 <+: t := by
    have hs := List.dropWhile_suffix (l := t.reverse) fun c => decide (c = CodePoint.ofChar '0')
    have hr := List.reverse_prefix.mpr hs
    rwa [List.reverse_reverse] at hr
  refine h.of_prefix hprefix fun hnil => ?_
  obtain ⟨-, c, r, rfl, hc⟩ := h
  have hd : (c :: r).reverse.dropWhile (fun c => decide (c = CodePoint.ofChar '0')) = [] :=
    List.reverse_eq_nil_iff.mp hnil
  rw [List.dropWhile_eq_nil_iff] at hd
  exact hc (by simpa using hd c (by simp))

/-- No digits are left of a number other than zero only where its exponent is zero. -/
theorem shortest_cases (x : Binary64) : (shortest x).1 ≠ 0 ∨ (shortest x).2 = 0 := by
  unfold shortest
  dsimp only
  split
  · rename_i r h
    left
    obtain ⟨k, -, hk⟩ := List.exists_of_findSome?_eq_some h
    split at hk
    · rename_i hlow hhigh
      cases hk
      rw [Bool.and_eq_true, decide_eq_true_eq] at hlow
      dsimp only
      split
      · omega
      · exact Nat.succ_ne_zero _
    · rename_i hlow hhigh
      cases hk
      rw [Bool.and_eq_true, decide_eq_true_eq] at hlow
      exact Nat.ne_of_gt hlow.1
    · cases hk
      exact Nat.succ_ne_zero _
    · cases hk
  · right
    rfl

/-- Zeros that go are made up for by the exponent. -/
theorem stripZeros_value (t : Text) (e : Int) :
    (ofDigits (stripZeros t e).1 : ℚ) * 10 ^ (stripZeros t e).2 = ofDigits t * 10 ^ e := by
  obtain ⟨k, hk⟩ : ∃ k, t = (stripZeros t e).1 ++ zeros k := by
    have hzeros : ∀ c ∈ t.reverse.takeWhile fun c => decide (c = CodePoint.ofChar '0'), c = CodePoint.ofChar '0' := by
      intro c hc
      have hp := List.mem_takeWhile_imp hc
      exact of_decide_eq_true hp
    have hsplit := congrArg List.reverse
      (List.takeWhile_append_dropWhile (p := fun c => decide (c = CodePoint.ofChar '0')) (l := t.reverse))
    rw [List.reverse_append, List.reverse_reverse, List.eq_replicate_of_mem hzeros, List.reverse_replicate] at hsplit
    exact ⟨_, hsplit.symm⟩
  have hexponent : (stripZeros t e).2 = e + k := by
    have hlength := congrArg List.length hk
    rw [List.length_append, zeros, List.length_replicate] at hlength
    show e + ((t.length - (stripZeros t e).1.length : Nat) : Int) = e + k
    omega
  rw [hexponent]
  conv_rhs => rw [hk, ofDigits_append, ofDigits_zeros, zeros, List.length_replicate]
  rw [zpow_add₀ (by norm_num), zpow_natCast]
  push_cast
  ring

/-- Digits with an exponent are laid out as a number with their value. -/
theorem layout_spelled (h : IsLeading ds) (e : Int) :
    ∃ n e', Spelled (layout ds e) n e' ∧ (n : ℚ) * 10 ^ e' = ofDigits ds * 10 ^ e := by
  have hlength := List.length_pos_iff.mpr h.isDigits.1
  unfold layout
  dsimp only
  split
  · split
    · have hdigits := h.isDigits.append_left (w := zeros (-(e + ds.length)).toNat) fun _ => isDigit_of_mem_zeros
      have hspelled := Spelled.fraction (w := "0") (Or.inl rfl) hdigits
      rw [← List.append_assoc] at hspelled
      refine ⟨_, _, hspelled, ?_⟩
      rw [ofDigits_append, ofDigits_append, ofDigits_zeros, List.length_append, zeros, List.length_replicate]
      have hexponent : -(((-(e + ds.length)).toNat + ds.length : Nat) : Int) = e := by omega
      rw [hexponent, show ofDigits "0" = 0 from rfl]
      simp
    split
    · have hw := h.append (w := zeros ((e + ds.length).toNat - ds.length)) fun _ => isDigit_of_mem_zeros
      have hspelled := Spelled.fraction (d := "0") (Or.inr hw) (by decide)
      rw [List.append_assoc _ ("." : Text)] at hspelled
      refine ⟨_, _, hspelled, ?_⟩
      obtain ⟨k, rfl⟩ := Int.eq_ofNat_of_zero_le (show 0 ≤ e by omega)
      have hzeros : ((k : Int) + ds.length).toNat - ds.length = k := by omega
      rw [hzeros, ofDigits_append, ofDigits_append, ofDigits_zeros, zeros, List.length_replicate,
        show ofDigits "0" = 0 from rfl, show ("0" : Text).length = 1 from rfl]
      simp
    · rename_i hpos hlong
      have htake : ds.take (e + ds.length).toNat ≠ [] := by
        rw [Ne, List.take_eq_nil_iff]
        rintro (hz | hz)
        · omega
        · exact h.isDigits.1 hz
      have hdrop : ds.drop (e + ds.length).toNat ≠ [] := by
        rw [Ne, List.drop_eq_nil_iff]
        exact hlong
      have hw := h.of_prefix (List.take_prefix _ ds) htake
      refine ⟨_, _, .fraction (Or.inr hw) ⟨hdrop, fun c hc => h.1 c (List.mem_of_mem_drop hc)⟩, ?_⟩
      rw [List.take_append_drop, List.length_drop]
      congr 2
      omega
  · have hone : ds.take 1 ≠ [] := by simpa using h.isDigits.1
    have hsize := (isDigits_ofNat (e + ds.length - 1).natAbs).append_left
      (w := zeros (2 - (ofNat (e + ds.length - 1).natAbs).length)) fun _ => isDigit_of_mem_zeros
    have hrest : ∀ c ∈ ds.drop 1, c.isDigit := fun c hc => h.1 c (List.mem_of_mem_drop hc)
    have hspelled := @Spelled.exponent _ _ _ (e + ds.length - 1 < 0)
      (Or.inr (h.of_prefix (List.take_prefix 1 ds) hone)) hrest hsize
    have htext : (if ds.length = 1 then ([] : Text) else "." ++ ds.drop 1) = pointed (ds.drop 1) := by
      have hdrop : ds.length = 1 ↔ ds.drop 1 = [] := by
        rw [List.drop_eq_nil_iff]
        omega
      exact if_congr hdrop rfl rfl
    have hmark : (ofString (if e + ds.length - 1 < 0 then "e-" else "e+")) = mark (e + ds.length - 1 < 0) := by
      unfold mark
      by_cases hneg : e + ds.length - 1 < 0 <;> simp [hneg]
    rw [← List.append_assoc, ← htext, ← hmark] at hspelled
    refine ⟨_, _, hspelled, ?_⟩
    rw [List.take_append_drop, ofDigits_append, ofDigits_zeros, ofDigits_ofNat, List.length_drop]
    congr 2
    split <;> rename_i hneg <;> simp at hneg <;> omega

/-- A finite number is written with a fraction, an exponent or both, and the digits are the shortest. -/
theorem display_spelled (x : Binary64) (h : x.isFinite) :
    ∃ t n e, Spelled t n e ∧ display x = (if x.negative then ("-" : Text) else "") ++ t ∧
      (n : ℚ) * 10 ^ e = if x.isZero then 0 else ((shortest x).1 : ℚ) * 10 ^ (shortest x).2 := by
  have hzero : Spelled "0.0" 0 (-1) := .fraction (w := "0") (d := "0") (Or.inl rfl) (by decide)
  have hlt : x.magnitude < Binary64.infinityMagnitude := by simpa [Binary64.isFinite] using h
  unfold display
  dsimp only
  rw [if_neg (by simp [Binary64.isNaN]; omega), if_neg (by simp [Binary64.isInfinite]; omega)]
  split
  · exact ⟨"0.0", 0, -1, hzero, rfl, by simp⟩
  by_cases hd : (shortest x).1 = 0
  · have he := (shortest_cases x).resolve_left (not_not.mpr hd)
    rw [hd, he]
    exact ⟨"0.0", 0, -1, hzero, rfl, by simp⟩
  have hvalue := stripZeros_value (ofNat (shortest x).1) (shortest x).2
  rw [ofDigits_ofNat] at hvalue
  obtain ⟨n, e, hspelled, he⟩ := layout_spelled (isLeading_stripZeros (isLeading_ofNat hd) (shortest x).2)
    (stripZeros (ofNat (shortest x).1) (shortest x).2).2
  exact ⟨_, n, e, hspelled, rfl, he.trans hvalue⟩

end Decimal
end CodeAgent
