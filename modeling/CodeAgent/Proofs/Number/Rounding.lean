import CodeAgent.Number.Binary64
import Mathlib.Algebra.Order.Field.Power
import Mathlib.Algebra.Order.Floor.Semifield
import Mathlib.Data.Int.Log
import Mathlib.Data.Rat.Floor
import Mathlib.Tactic.FieldSimp
import Mathlib.Tactic.Linarith
import Mathlib.Tactic.LinearCombination
import Mathlib.Tactic.NormNum
import Mathlib.Tactic.Positivity

namespace CodeAgent.Binary64

variable {num den n : Nat} {e : Int} {r t : ℚ} {x : Binary64} {negative : Bool}

def nearest (t : ℚ) : Nat :=
  if 2 * (t - ⌊t⌋₊) < 1 then ⌊t⌋₊ else if 1 < 2 * (t - ⌊t⌋₊) then ⌊t⌋₊ + 1 else ⌊t⌋₊ + ⌊t⌋₊ % 2

theorem roundDiv_eq_nearest (num : Nat) (hd : 0 < den) : roundDiv num den = nearest ((num : ℚ) / den) := by
  have hpos : (0 : ℚ) < den := by exact_mod_cast hd
  have hfloor : ⌊(num : ℚ) / den⌋₊ = num / den := Nat.floor_div_eq_div num den
  have hrest : 2 * ((num : ℚ) / den - (num / den : Nat)) = ((2 * (num % den) : Nat) : ℚ) / den := by
    have hsplit : (num : ℚ) = den * (num / den : Nat) + (num % den : Nat) := by
      exact_mod_cast (Nat.div_add_mod num den).symm
    have hcancel : (num : ℚ) / den * den = num := div_mul_cancel₀ _ hpos.ne'
    rw [eq_div_iff hpos.ne']
    push_cast
    linear_combination 2 * hcancel + 2 * hsplit
  unfold roundDiv nearest
  rw [hfloor, hrest]
  simp only [div_lt_one hpos, one_lt_div hpos, Nat.cast_lt]

theorem nearest_eq (ht : 0 ≤ t) (h : |t - n| < 1 / 2) : nearest t = n := by
  obtain ⟨hlow, hhigh⟩ := abs_lt.mp h
  unfold nearest
  rcases le_or_gt (n : ℚ) t with hle | hlt
  · have hfloor : ⌊t⌋₊ = n := (Nat.floor_eq_iff ht).mpr ⟨hle, by linarith⟩
    rw [hfloor, if_pos (by linarith)]
  · obtain ⟨m, rfl⟩ : ∃ m, n = m + 1 := Nat.exists_eq_succ_of_ne_zero (by rintro rfl; norm_num at hlt; linarith)
    push_cast at hlow hlt
    have hfloor : ⌊t⌋₊ = m := (Nat.floor_eq_iff ht).mpr ⟨by linarith, by linarith⟩
    rw [hfloor, if_neg (by linarith), if_pos (by linarith)]

theorem le_nearest (h : (n : ℚ) ≤ t) : n ≤ nearest t := by
  have hfloor : n ≤ ⌊t⌋₊ := Nat.le_floor h
  unfold nearest
  split_ifs <;> omega

def unit (r : ℚ) : Int := max (Int.log 2 r) (-1022) - 52

def round (negative : Bool) (r : ℚ) : Binary64 :=
  if r = 0 then ⟨negative, 0⟩
  else ⟨negative, min ((unit r + 1074).toNat * Nat.pow 2 52 + nearest (r / 2 ^ unit r)) infinityMagnitude⟩

theorem inUnits_eq (num : Nat) (hd : 0 < den) (e : Int) :
    0 < (inUnits num den e).2 ∧ ((inUnits num den e).1 : ℚ) / (inUnits num den e).2 = num / den / 2 ^ e := by
  unfold inUnits
  split
  · rename_i he
    obtain ⟨k, rfl⟩ := Int.eq_ofNat_of_zero_le he
    refine ⟨Nat.mul_pos hd (Nat.pow_pos (by decide)), ?_⟩
    simp [div_div]
  · rename_i he
    obtain ⟨k, rfl⟩ : ∃ k : Nat, e = -(k : Int) := ⟨(-e).toNat, by omega⟩
    refine ⟨hd, ?_⟩
    simp [div_inv_eq_mul, mul_div_right_comm]

/-- The binary places of a ratio, as far as the sizes of its parts tell them. -/
theorem log_ratio (hn : 0 < num) (hd : 0 < den) :
    (num.log2 : Int) - den.log2 - 1 ≤ Int.log 2 ((num : ℚ) / den) ∧
      Int.log 2 ((num : ℚ) / den) ≤ (num.log2 : Int) - den.log2 := by
  have hnum : (0 : ℚ) < num := by exact_mod_cast hn
  have hden : (0 : ℚ) < den := by exact_mod_cast hd
  have hsize {k : Nat} (hk : 0 < k) : (2 : ℚ) ^ (k.log2 : Int) ≤ k ∧ (k : ℚ) < 2 ^ ((k.log2 : Int) + 1) := by
    refine ⟨by exact_mod_cast Nat.log2_self_le hk.ne', ?_⟩
    have h : k < 2 ^ (k.log2 + 1) := Nat.lt_log2_self
    exact_mod_cast h
  obtain ⟨hnum1, hnum2⟩ := hsize hn
  obtain ⟨hden1, hden2⟩ := hsize hd
  have hpos : (0 : ℚ) < num / den := div_pos hnum hden
  constructor
  · refine (Int.zpow_le_iff_le_log (by decide) hpos).mp ?_
    rw [le_div_iff₀ hden]
    calc ((2 : Nat) : ℚ) ^ ((num.log2 : Int) - den.log2 - 1) * den
        ≤ 2 ^ ((num.log2 : Int) - den.log2 - 1) * 2 ^ ((den.log2 : Int) + 1) := by push_cast; gcongr
      _ = 2 ^ (num.log2 : Int) := by rw [← zpow_add₀ (by norm_num)]; congr 1; ring
      _ ≤ num := hnum1
  · refine Int.lt_add_one_iff.mp ((Int.lt_zpow_iff_log_lt (by decide) hpos).mp ?_)
    rw [div_lt_iff₀ hden]
    calc (num : ℚ) < 2 ^ ((num.log2 : Int) + 1) := hnum2
      _ = 2 ^ ((num.log2 : Int) - den.log2 + 1) * 2 ^ (den.log2 : Int) := by
        rw [← zpow_add₀ (by norm_num)]; congr 1; ring
      _ ≤ ((2 : Nat) : ℚ) ^ ((num.log2 : Int) - den.log2 + 1) * den := by push_cast; gcongr

/-- The double of a ratio is the one nearest to its value. -/
theorem ofRatio_eq_round (negative : Bool) (num : Nat) (hd : 0 < den) :
    ofRatio negative num den = round negative ((num : ℚ) / den) := by
  have hden : (0 : ℚ) < den := by exact_mod_cast hd
  unfold ofRatio round
  rcases Nat.eq_zero_or_pos num with rfl | hn
  · simp
  have hnum : (0 : ℚ) < num := by exact_mod_cast hn
  have hpos : (0 : ℚ) < num / den := div_pos hnum hden
  rw [if_neg hn.ne', if_neg hpos.ne']
  dsimp only
  obtain ⟨hlow, hhigh⟩ := log_ratio hn hd
  generalize hguess : max (-1074) ((num.log2 : Int) - den.log2 - 53) = guess
  have htest : Nat.pow 2 53 ≤ (inUnits num den guess).1 / (inUnits num den guess).2 ↔
      guess + 53 ≤ Int.log 2 ((num : ℚ) / den) := by
    obtain ⟨hunits, hratio⟩ := inUnits_eq num hd guess
    rw [← Int.zpow_le_iff_le_log (by decide) hpos, Nat.le_div_iff_mul_le hunits]
    have hunits' : (0 : ℚ) < (inUnits num den guess).2 := by exact_mod_cast hunits
    have h2 : (0 : ℚ) < 2 ^ guess := zpow_pos (by norm_num) _
    have hscaled : (2 : ℚ) ^ 53 ≤ (inUnits num den guess).1 / (inUnits num den guess).2 ↔
        ((2 : Nat) : ℚ) ^ (guess + 53) ≤ num / den := by
      rw [hratio, le_div_iff₀ h2, mul_comm, Nat.cast_ofNat, zpow_add₀ (by norm_num)]
      norm_num
    rw [← hscaled, le_div_iff₀ hunits']
    exact_mod_cast Iff.rfl
  have hunit : (if Nat.pow 2 53 ≤ (inUnits num den guess).1 / (inUnits num den guess).2 then guess + 1 else guess) =
      unit ((num : ℚ) / den) := by
    unfold unit
    split
    · rename_i h
      rw [htest] at h
      omega
    · rename_i h
      rw [htest] at h
      omega
  rw [hunit]
  obtain ⟨hunits, hratio⟩ := inUnits_eq num hd (unit ((num : ℚ) / den))
  rw [roundDiv_eq_nearest _ hunits, hratio]

def value (x : Binary64) : ℚ := x.mantissa * 2 ^ x.exponent

theorem ratio_eq (x : Binary64) : 0 < x.ratio.2 ∧ (x.ratio.1 : ℚ) / x.ratio.2 = x.value := by
  unfold ratio value
  split
  · rename_i he
    obtain ⟨k, hk⟩ := Int.eq_ofNat_of_zero_le he
    rw [hk]
    simp
  · rename_i he
    obtain ⟨k, hk⟩ : ∃ k : Nat, x.exponent = -(k : Int) := ⟨(-x.exponent).toNat, by omega⟩
    rw [hk]
    refine ⟨Nat.pow_pos (by decide), ?_⟩
    simp [div_eq_mul_inv]

/-- How a magnitude is made up of a mantissa and an exponent. -/
theorem magnitude_parts (x : Binary64) : (x.exponent + 1074).toNat * Nat.pow 2 52 + x.mantissa = x.magnitude ∧
    -1074 ≤ x.exponent ∧ x.mantissa < Nat.pow 2 53 ∧ (x.exponent = -1074 ∨ Nat.pow 2 52 ≤ x.mantissa) := by
  have hsplit := Nat.div_add_mod x.magnitude (Nat.pow 2 52)
  have hlt : x.magnitude % Nat.pow 2 52 < Nat.pow 2 52 := Nat.mod_lt _ (by decide)
  have h52 : Nat.pow 2 52 = 4503599627370496 := by decide
  have h53 : Nat.pow 2 53 = 9007199254740992 := by decide
  unfold exponent mantissa
  rw [h52] at hsplit hlt ⊢
  rw [h53]
  split <;> omega

theorem mantissa_pos (h : x.isZero = false) : 0 < x.mantissa := by
  obtain ⟨hparts, -, -, hnormal⟩ := magnitude_parts x
  have h52 : 0 < Nat.pow 2 52 := by decide
  have hne : x.magnitude ≠ 0 := by simpa [isZero] using h
  rcases hnormal with he | hle
  · rw [he] at hparts
    simp only [Int.add_left_neg, Int.toNat_zero, Nat.zero_mul, Nat.zero_add] at hparts
    omega
  · omega

theorem value_pos (h : x.isZero = false) : 0 < x.value :=
  mul_pos (by exact_mod_cast mantissa_pos h) (zpow_pos (by norm_num) _)

/-- Numbers nearer than half a step are rounded to a double, below a power of two those that are no less. -/
theorem round_eq (hf : x.isFinite) (hr : 0 < r) (hnear : |r / 2 ^ x.exponent - x.mantissa| < 1 / 2)
    (hbelow : x.exponent = -1074 ∨ 2 ^ 52 ≤ r / 2 ^ x.exponent) : round x.negative r = x := by
  obtain ⟨hparts, hleast, hlt, -⟩ := magnitude_parts x
  have h2 : (0 : ℚ) < 2 ^ x.exponent := zpow_pos (by norm_num) _
  have hhigh : Int.log 2 r < x.exponent + 53 := by
    refine (Int.lt_zpow_iff_log_lt (by decide) hr).mp ?_
    have hmantissa : (x.mantissa : ℚ) + 1 ≤ 2 ^ 53 := by exact_mod_cast hlt
    have hscaled : r / 2 ^ x.exponent < 2 ^ 53 := by linarith [(abs_lt.mp hnear).2]
    rw [div_lt_iff₀ h2] at hscaled
    rw [Nat.cast_ofNat, zpow_add₀ (by norm_num), mul_comm]
    exact hscaled
  have hlow : x.exponent = -1074 ∨ x.exponent + 52 ≤ Int.log 2 r := by
    refine hbelow.imp_right fun hle => (Int.zpow_le_iff_le_log (by decide) hr).mp ?_
    rw [le_div_iff₀ h2] at hle
    rw [Nat.cast_ofNat, zpow_add₀ (by norm_num), mul_comm]
    exact hle
  have hunit : unit r = x.exponent := by
    unfold unit
    omega
  have hnearest : nearest (r / 2 ^ x.exponent) = x.mantissa := nearest_eq (div_pos hr h2).le hnear
  have hfinite : x.magnitude < infinityMagnitude := by simpa [isFinite] using hf
  unfold round
  rw [if_neg hr.ne', hunit, hnearest, hparts, Nat.min_eq_left hfinite.le]

/-- From the largest power of two that is no finite number on, there is nothing but infinity. -/
theorem round_large (negative : Bool) (h : (2 : ℚ) ^ (1024 : Int) ≤ r) : round negative r = infinity negative := by
  have hr : 0 < r := lt_of_lt_of_le (zpow_pos (by norm_num) _) h
  have h2 : (0 : ℚ) < 2 ^ unit r := zpow_pos (by norm_num) _
  have hlog : 1024 ≤ Int.log 2 r := (Int.zpow_le_iff_le_log (by decide) hr).mp (by exact_mod_cast h)
  have hunit : unit r = Int.log 2 r - 52 := by
    unfold unit
    omega
  have hnearest : Nat.pow 2 52 ≤ nearest (r / 2 ^ unit r) := by
    refine le_nearest ?_
    have hself := Int.zpow_log_le_self (b := 2) (by decide) hr
    rw [le_div_iff₀ h2, hunit]
    calc ((Nat.pow 2 52 : Nat) : ℚ) * 2 ^ (Int.log 2 r - 52) = 2 ^ (52 + (Int.log 2 r - 52)) := by
          rw [zpow_add₀ (by norm_num)]; norm_num
      _ = 2 ^ Int.log 2 r := by congr 1; ring
      _ ≤ r := by exact_mod_cast hself
  unfold round infinity
  rw [if_neg hr.ne']
  have hplaces : 2046 * Nat.pow 2 52 ≤ (unit r + 1074).toNat * Nat.pow 2 52 :=
    Nat.mul_le_mul_right _ (by omega)
  have hinfinity : infinityMagnitude = 2046 * Nat.pow 2 52 + Nat.pow 2 52 := by decide
  rw [Nat.min_eq_right (by omega)]

/-- Below half the least number there is nothing but zero. -/
theorem round_small (negative : Bool) (hr : 0 < r) (h : r < 2 ^ (-1075 : Int)) : round negative r = ⟨negative, 0⟩ := by
  have hlog : Int.log 2 r < -1075 := (Int.lt_zpow_iff_log_lt (by decide) hr).mp (by exact_mod_cast h)
  have hunit : unit r = -1074 := by
    unfold unit
    omega
  have h2 : (0 : ℚ) < 2 ^ (-1074 : Int) := zpow_pos (by norm_num) _
  have hhalf : r / 2 ^ (-1074 : Int) < 1 / 2 := by
    rw [div_lt_iff₀ h2]
    calc r < 2 ^ (-1075 : Int) := h
      _ = 1 / 2 * 2 ^ (-1074 : Int) := by
        rw [show (-1075 : Int) = -1 + -1074 by norm_num, zpow_add₀ (by norm_num)]; norm_num
  have hnearest : nearest (r / 2 ^ (-1074 : Int)) = 0 := by
    have hpos := (div_pos hr h2).le
    exact nearest_eq hpos (by rw [Nat.cast_zero, sub_zero, abs_of_nonneg hpos]; exact hhalf)
  unfold round
  rw [if_neg hr.ne', hunit, hnearest]
  rfl

/-- A decimal with many places is no larger than its digits make it, and no smaller than their count of bits. -/
theorem decimal_bounds {digits : Nat} (hd : 0 < digits) (e : Int) :
    (10 : ℚ) ^ (e + (digits.log2 : Int) * 3 / 10) ≤ digits * 10 ^ e ∧
      (digits : ℚ) * 10 ^ e < 10 ^ (e + digits.log2 + 1) := by
  have h10 : (0 : ℚ) < 10 ^ e := zpow_pos (by norm_num) _
  have hlow : 2 ^ digits.log2 ≤ digits := Nat.log2_self_le hd.ne'
  have hhigh : digits < 2 ^ (digits.log2 + 1) := Nat.lt_log2_self
  have hthird : 10 ^ (digits.log2 * 3 / 10) ≤ 2 ^ digits.log2 := by
    refine (Nat.pow_le_pow_iff_left (n := 10) (by decide)).mp ?_
    calc (10 ^ (digits.log2 * 3 / 10)) ^ 10 = 10 ^ (digits.log2 * 3 / 10 * 10) := (pow_mul _ _ _).symm
      _ ≤ 10 ^ (digits.log2 * 3) := Nat.pow_le_pow_right (by decide) (Nat.div_mul_le_self _ _)
      _ = (10 ^ 3) ^ digits.log2 := by rw [mul_comm, pow_mul]
      _ ≤ (2 ^ 10) ^ digits.log2 := Nat.pow_le_pow_left (by decide) _
      _ = (2 ^ digits.log2) ^ 10 := by rw [← pow_mul, ← pow_mul, mul_comm]
  constructor
  · have hcast : (10 : ℚ) ^ ((digits.log2 : Int) * 3 / 10) = ((10 ^ (digits.log2 * 3 / 10) : Nat) : ℚ) := by
      push_cast
      rw [← zpow_natCast]
      norm_cast
    rw [zpow_add₀ (by norm_num), mul_comm, hcast]
    gcongr
    exact hthird.trans hlow
  · have hten : digits < 10 ^ (digits.log2 + 1) := hhigh.trans_le (Nat.pow_le_pow_left (by decide) _)
    rw [show e + digits.log2 + 1 = ((digits.log2 + 1 : Nat) : Int) + e by push_cast; ring, zpow_add₀ (by norm_num),
      zpow_natCast]
    gcongr
    exact_mod_cast hten

/-- A decimal is rounded to the double nearest to its value, also where it is far out of range. -/
theorem ofDecimal_eq_round (negative : Bool) (digits : Nat) (e : Int) :
    ofDecimal negative digits e = round negative (digits * 10 ^ e) := by
  unfold ofDecimal
  rcases Nat.eq_zero_or_pos digits with rfl | hd
  · simp [round]
  obtain ⟨hlow, hhigh⟩ := decimal_bounds hd e
  have hpos : (0 : ℚ) < digits * 10 ^ e := mul_pos (by exact_mod_cast hd) (zpow_pos (by norm_num) _)
  rw [if_neg hd.ne']
  dsimp only
  split
  · refine (round_large negative ?_).symm
    have hlarge : (2 : Nat) ^ 1024 ≤ 10 ^ 321 := by decide +kernel
    calc (2 : ℚ) ^ (1024 : Int) ≤ 10 ^ (321 : Int) := by exact_mod_cast hlarge
      _ ≤ 10 ^ (e + (digits.log2 : Int) * 3 / 10) := zpow_le_zpow_right₀ (by norm_num) (by omega)
      _ ≤ digits * 10 ^ e := hlow
  split
  · refine (round_small negative hpos ?_).symm
    have hsmall : (2 : Nat) ^ 1075 < 10 ^ 400 := by decide +kernel
    calc (digits : ℚ) * 10 ^ e < 10 ^ (e + digits.log2 + 1) := hhigh
      _ ≤ 10 ^ (-400 : Int) := zpow_le_zpow_right₀ (by norm_num) (by omega)
      _ < 2 ^ (-1075 : Int) := by
        rw [zpow_neg, zpow_neg]
        exact inv_strictAnti₀ (zpow_pos (by norm_num) _) (by exact_mod_cast hsmall)
  split
  · rename_i he
    obtain ⟨k, rfl⟩ := Int.eq_ofNat_of_zero_le he
    rw [ofRatio_eq_round negative _ Nat.one_pos]
    simp
  · rename_i he
    obtain ⟨k, rfl⟩ : ∃ k : Nat, e = -(k : Int) := ⟨(-e).toNat, by omega⟩
    have hden : 0 < Nat.pow 10 (-(-(k : Int))).toNat := Nat.pow_pos (by decide)
    rw [ofRatio_eq_round negative _ hden]
    simp [div_eq_mul_inv]

end CodeAgent.Binary64
