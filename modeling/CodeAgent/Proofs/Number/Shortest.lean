import CodeAgent.Proofs.Number.Decimal
import CodeAgent.Proofs.Number.Rounding

namespace CodeAgent.Decimal
open Binary64 Text

variable {num den : Nat} {e : Int} {x : Binary64}

/-- The width of a number bounds it by powers of ten. -/
theorem width_bounds {n : Nat} (h : 0 < n) :
    (10 : ℚ) ^ ((width n : Int) - 1) ≤ n ∧ (n : ℚ) < 10 ^ (width n : Int) := by
  have hwidth : width n = (ofNat n).length := by
    rw [ofNat, ofString, List.length_map, String.length_toList]
    rfl
  have hpos : 0 < width n := hwidth ▸ List.length_pos_iff.mpr (ofNat_ne_nil n)
  have hhigh : n < 10 ^ width n := (length_ofNat_le_iff hpos).mp hwidth.ge
  have hlow : 10 ^ (width n - 1) ≤ n := by
    by_contra hlt
    rcases Nat.eq_zero_or_pos (width n - 1) with hz | hk
    · rw [hz] at hlt
      omega
    · have hle := (length_ofNat_le_iff hk).mpr (Nat.lt_of_not_le hlt)
      omega
  constructor
  · rw [show (width n : Int) - 1 = ((width n - 1 : Nat) : Int) by omega, zpow_natCast]
    exact_mod_cast hlow
  · exact_mod_cast hhigh

/-- A ratio scaled by a power of ten, as two whole numbers. -/
theorem scaled_eq (num : Nat) (hd : 0 < den) (e : Int) :
    let (n, d) := if 0 ≤ e then (num, den * Nat.pow 10 e.toNat) else (num * Nat.pow 10 (-e).toNat, den)
    0 < d ∧ (n : ℚ) / d = num / den / 10 ^ e := by
  by_cases he : 0 ≤ e
  · obtain ⟨k, rfl⟩ := Int.eq_ofNat_of_zero_le he
    rw [if_pos he]
    exact ⟨Nat.mul_pos hd (Nat.pow_pos (by decide)), by simp [div_div]⟩
  · obtain ⟨k, rfl⟩ : ∃ k : Nat, e = -(k : Int) := ⟨(-e).toNat, by omega⟩
    rw [if_neg he]
    exact ⟨hd, by simp [div_inv_eq_mul, mul_div_right_comm]⟩

/-- The exponent of the leading digit puts a ratio between two powers of ten. -/
theorem leadingExponent_bounds (hn : 0 < num) (hd : 0 < den) :
    (10 : ℚ) ^ leadingExponent num den ≤ num / den ∧ (num : ℚ) / den < 10 ^ (leadingExponent num den + 1) := by
  have hnum : (0 : ℚ) < num := by exact_mod_cast hn
  have hden : (0 : ℚ) < den := by exact_mod_cast hd
  obtain ⟨hnum1, hnum2⟩ := width_bounds hn
  obtain ⟨hden1, hden2⟩ := width_bounds hd
  have htest (e : Int) : (if 0 ≤ e then decide (den * Nat.pow 10 e.toNat ≤ num)
      else decide (den ≤ num * Nat.pow 10 (-e).toNat)) = true ↔ (10 : ℚ) ^ e ≤ num / den := by
    rw [le_div_iff₀ hden]
    by_cases he : 0 ≤ e
    · obtain ⟨k, rfl⟩ := Int.eq_ofNat_of_zero_le he
      rw [if_pos he, decide_eq_true_eq, Int.toNat_natCast, mul_comm, zpow_natCast]
      exact_mod_cast Iff.rfl
    · obtain ⟨k, rfl⟩ : ∃ k : Nat, e = -(k : Int) := ⟨(-e).toNat, by omega⟩
      rw [if_neg he, decide_eq_true_eq, neg_neg, Int.toNat_natCast, zpow_neg, zpow_natCast,
        inv_mul_le_iff₀ (by positivity), mul_comm]
      exact_mod_cast Iff.rfl
  have hbelow : (num : ℚ) / den < 10 ^ ((width num : Int) - width den + 1) := by
    rw [div_lt_iff₀ hden]
    calc (num : ℚ) < 10 ^ (width num : Int) := hnum2
      _ = 10 ^ ((width num : Int) - width den + 1) * 10 ^ ((width den : Int) - 1) := by
        rw [← zpow_add₀ (by norm_num)]; congr 1; ring
      _ ≤ 10 ^ ((width num : Int) - width den + 1) * den := by gcongr
  have habove : (10 : ℚ) ^ ((width num : Int) - width den - 1) ≤ num / den := by
    rw [le_div_iff₀ hden]
    calc (10 : ℚ) ^ ((width num : Int) - width den - 1) * den
        ≤ 10 ^ ((width num : Int) - width den - 1) * 10 ^ (width den : Int) := by gcongr
      _ = 10 ^ ((width num : Int) - 1) := by rw [← zpow_add₀ (by norm_num)]; congr 1; ring
      _ ≤ num := hnum1
  have hcases : leadingExponent num den =
      if (10 : ℚ) ^ ((width num : Int) - width den) ≤ num / den then (width num : Int) - width den
      else (width num : Int) - width den - 1 := if_congr (htest _) rfl rfl
  rw [hcases]
  split
  · rename_i hle
    exact ⟨hle, hbelow⟩
  · rename_i hlt
    rw [Int.sub_add_cancel]
    exact ⟨habove, lt_of_not_ge hlt⟩

/-- The neighbours of a fraction are the whole numbers around it. -/
theorem neighbours_bounds (num : Nat) (hd : 0 < den) (e : Int) :
    ((neighbours num den e).1 : ℚ) * 10 ^ e ≤ num / den ∧
      (num : ℚ) / den < ((neighbours num den e).1 + 1) * 10 ^ e ∧
      (neighbours num den e).2 = (neighbours num den e).1 + 1 := by
  have hscaled := scaled_eq num hd e
  unfold neighbours
  generalize (if 0 ≤ e then (num, den * Nat.pow 10 e.toNat) else (num * Nat.pow 10 (-e).toNat, den)) = parts
    at hscaled ⊢
  obtain ⟨n, d⟩ := parts
  obtain ⟨hpos, hratio⟩ := hscaled
  dsimp only
  have h10 : (0 : ℚ) < 10 ^ e := zpow_pos (by norm_num) _
  have hfloor : ⌊(num : ℚ) / den / 10 ^ e⌋₊ = n / d := by rw [← hratio, Nat.floor_div_eq_div]
  have hnonneg : (0 : ℚ) ≤ num / den / 10 ^ e := by positivity
  refine ⟨?_, ?_, rfl⟩
  · rw [← le_div_iff₀ h10, ← hfloor]
    exact Nat.floor_le hnonneg
  · rw [← div_lt_iff₀ h10, ← hfloor]
    exact Nat.lt_floor_add_one _

section
variable (hf : x.isFinite) (h0 : x.isZero = false)
include hf h0

/-- Of two neighbours with seventeen digits one reads back. -/
theorem neighbour_reads_back {low : Nat} (hlead : (10 : ℚ) ^ (e + 16) ≤ x.value)
    (hlow : (low : ℚ) * 10 ^ e ≤ x.value) (hhigh : x.value < (low + 1) * 10 ^ e) :
    ofDecimal x.negative (low + 1) e = x ∨ 0 < low ∧ ofDecimal x.negative low e = x := by
  obtain ⟨-, -, hsize, hnormal⟩ := magnitude_parts x
  have hmantissa := mantissa_pos h0
  have h10 : (0 : ℚ) < 10 ^ e := zpow_pos (by norm_num) _
  have h2 : (0 : ℚ) < 2 ^ x.exponent := zpow_pos (by norm_num) _
  have hone : (1 : ℚ) ≤ x.mantissa := by exact_mod_cast hmantissa
  have hsize' : (x.mantissa : ℚ) + 1 ≤ 2 ^ 53 := by exact_mod_cast hsize
  rw [zpow_add₀ (by norm_num)] at hlead
  rw [ofDecimal_eq_round, ofDecimal_eq_round]
  unfold value at hlead hlow hhigh
  generalize (10 : ℚ) ^ e = ten at *
  have hscaled (y : ℚ) : y / 2 ^ x.exponent - x.mantissa = (y - x.mantissa * 2 ^ x.exponent) / 2 ^ x.exponent := by
    field_simp
  have hgap : ten * 10 ^ 16 ≤ x.mantissa * 2 ^ x.exponent := by exact_mod_cast hlead
  by_cases hnear : (low + 1) * ten - x.mantissa * 2 ^ x.exponent < 2 ^ x.exponent / 2
  · left
    refine round_eq hf (by push_cast; positivity) ?_ ?_
    · rw [hscaled, abs_lt, lt_div_iff₀ h2, div_lt_iff₀ h2]
      push_cast
      constructor <;> linarith
    · refine hnormal.imp_right fun hle => ?_
      have hle' : (2 : ℚ) ^ 52 ≤ x.mantissa := by exact_mod_cast hle
      rw [le_div_iff₀ h2]
      push_cast
      nlinarith
  · right
    have hstep : ten < 2 ^ x.exponent := by nlinarith
    have hbelow : x.mantissa * 2 ^ x.exponent - low * ten < 2 ^ x.exponent / 2 := by linarith
    have hpos : (0 : ℚ) < low * ten := by nlinarith
    have hlowpos : 0 < low := by
      refine Nat.pos_of_ne_zero ?_
      rintro rfl
      simp at hpos
    refine ⟨hlowpos, round_eq hf hpos ?_ ?_⟩
    · rw [hscaled, abs_lt, lt_div_iff₀ h2, div_lt_iff₀ h2]
      constructor <;> linarith
    · refine hnormal.imp_right fun hle => ?_
      have hmore : 2 ^ 52 < x.mantissa := by
        refine lt_of_le_of_ne hle fun he => hnear ?_
        have he' : (x.mantissa : ℚ) = 2 ^ 52 := by exact_mod_cast he.symm
        rw [he'] at hgap hlow hhigh ⊢
        linarith
      have hmore' : (2 : ℚ) ^ 52 + 1 ≤ x.mantissa := by exact_mod_cast hmore
      rw [le_div_iff₀ h2]
      nlinarith

/-- The shortest digits of a finite number other than zero read back. -/
theorem shortest_reads : ofDecimal x.negative (shortest x).1 (shortest x).2 = x := by
  obtain ⟨hden, hratio⟩ := ratio_eq x
  have hnum : 0 < x.ratio.1 := by
    refine Nat.pos_of_ne_zero fun hz => (value_pos h0).ne ?_
    rw [← hratio, hz]
    simp
  obtain ⟨hlead, -⟩ := leadingExponent_bounds hnum hden
  unfold shortest
  dsimp only
  split
  · rename_i r h
    obtain ⟨k, -, hk⟩ := List.exists_of_findSome?_eq_some h
    split at hk
    · rename_i hlow hhigh
      cases hk
      rw [Bool.and_eq_true, beq_iff_eq] at hlow
      rw [beq_iff_eq] at hhigh
      dsimp only
      split
      · exact hlow.2
      · exact hhigh
    · rename_i hlow hhigh
      cases hk
      rw [Bool.and_eq_true, beq_iff_eq] at hlow
      exact hlow.2
    · rename_i hlow hhigh
      cases hk
      exact beq_iff_eq.mp hhigh
    · cases hk
  · rename_i hnone
    exfalso
    rw [List.findSome?_eq_none_iff] at hnone
    have hlast := hnone 16 (by decide)
    obtain ⟨hlow, hhigh, hnext⟩ := neighbours_bounds x.ratio.1 hden
      (leadingExponent x.ratio.1 x.ratio.2 - ((16 + 1 : Nat) : Int) + 1)
    rw [hratio] at hlead hlow hhigh
    have hreads := neighbour_reads_back hf h0 (by rwa [show leadingExponent x.ratio.1 x.ratio.2 -
      ((16 + 1 : Nat) : Int) + 1 + 16 = leadingExponent x.ratio.1 x.ratio.2 by push_cast; ring]) hlow hhigh
    rw [← hnext] at hreads
    split at hlast
    · cases hlast
    · cases hlast
    · cases hlast
    · rename_i hneither hneither'
      rcases hreads with hreads | ⟨hpos, hreads⟩
      · rw [hreads, beq_self_eq_true] at hneither'
        cases hneither'
      · rw [hreads, beq_self_eq_true, Bool.and_true, decide_eq_false_iff_not] at hneither
        exact hneither hpos

end

/-- What is written of a finite number reads back as the number, with its sign. -/
theorem display_reads (x : Binary64) (h : x.isFinite) :
    ∃ t n e, Spelled t n e ∧ display x = (if x.negative then ("-" : Text) else "") ++ t ∧
      ofDecimal x.negative n e = x := by
  obtain ⟨t, n, e, hspelled, htext, hvalue⟩ := display_spelled x h
  refine ⟨t, n, e, hspelled, htext, ?_⟩
  rw [ofDecimal_eq_round, hvalue]
  split
  · rename_i hz
    obtain ⟨negative, magnitude⟩ := x
    have hmagnitude : magnitude = 0 := by simpa [isZero] using hz
    simp [Binary64.round, hmagnitude]
  · rename_i hz
    rw [← ofDecimal_eq_round, shortest_reads h (by simpa using hz)]

end CodeAgent.Decimal
