import CodeAgent.Json.Printer
import CodeAgent.Json.Reader
import CodeAgent.Proofs.Number.Shortest
import Mathlib.Data.List.TakeDrop

namespace CodeAgent.Json
open Text Decimal

variable {t rest r w d start : Text} {negative : Bool} {c : CodePoint}

def Ended (rest : Text) : Prop :=
  ∀ c ∈ rest.head?, c.isDigit = false ∧ c ≠ '.' ∧ c ≠ 'e' ∧ c ≠ 'E'

theorem ended_nil : Ended [] := by simp [Ended]

theorem Ended.noDigit (h : Ended rest) : ∀ c ∈ rest.head?, c.isDigit = false := fun c hc => (h c hc).1

theorem digits_append (hd : ∀ c ∈ d, c.isDigit) (hr : ∀ c ∈ rest.head?, c.isDigit = false) :
    digits (d ++ rest) = (d, rest) := by
  rw [digits, List.span_eq_takeWhile_dropWhile, List.takeWhile_append_of_pos hd, List.dropWhile_append_of_pos hd]
  cases rest with
  | nil => simp
  | cons c r =>
    have hc : c.isDigit = false := hr c rfl
    simp [hc]

theorem fraction?_ended (h : Ended rest) : fraction? rest = none := by
  cases rest with
  | nil => rfl
  | cons p r =>
    cases r with
    | nil => rfl
    | cons d r =>
      have hp := (h p rfl).2.1
      simp [fraction?, hp]

theorem exponent?_ended (h : Ended rest) : exponent? rest = none := by
  cases rest with
  | nil => rfl
  | cons e r =>
    obtain ⟨-, -, he, hE⟩ := h e rfl
    simp [exponent?, he, hE]

theorem fraction?_point (hd : IsDigits d) (hr : ∀ c ∈ rest.head?, c.isDigit = false) :
    fraction? (("." : Text) ++ d ++ rest) = some (d, rest) := by
  obtain ⟨hne, hall⟩ := hd
  cases d with
  | nil => exact absurd rfl hne
  | cons c d =>
    have hc := hall c List.mem_cons_self
    show fraction? (CodePoint.ofChar '.' :: c :: (d ++ rest)) = _
    simp only [fraction?, hc, decide_true, Bool.and_self, ↓reduceIte]
    rw [← List.cons_append, digits_append hall hr]

theorem wholePart_append (hw : IsNumeral w) (hr : ∀ c ∈ rest.head?, c.isDigit = false) :
    wholePart (w ++ rest) = (w, rest) := by
  obtain rfl | hw := hw
  · rfl
  · have hdigits := digits_append hw.1 hr
    obtain ⟨-, c, r, rfl, hc⟩ := hw
    rw [List.cons_append, wholePart, if_neg hc]
    exact hdigits

theorem ne_nil_of_isNumeral (hw : IsNumeral w) : w ≠ [] := by
  obtain rfl | hw := hw
  · decide
  · exact hw.isDigits.1

/-- A whole number is read unless it has too many digits. -/
theorem number_whole (hw : IsNumeral w) (h : Ended rest) :
    number negative start (w ++ rest) =
      if maxDigits < w.length then .error (.longInteger w.length)
      else .ok (.int (if negative then -(ofDigits w : Int) else ofDigits w), rest) := by
  rw [number, wholePart_append hw h.noDigit]
  simp only [fraction?_ended h, exponent?_ended h, Option.getD_none, List.isEmpty_iff, ne_nil_of_isNumeral hw,
    List.isEmpty_nil, ↓reduceIte]

theorem exponent?_minus (hd : IsDigits d) (hr : ∀ c ∈ rest.head?, c.isDigit = false) :
    exponent? (("e-" : Text) ++ d ++ rest) = some (true, d, rest) := by
  show exponent? (CodePoint.ofChar 'e' :: CodePoint.ofChar '-' :: (d ++ rest)) = _
  simp [exponent?, cutSign, digits_append hd.2 hr, hd.1]

theorem exponent?_plus (hd : IsDigits d) (hr : ∀ c ∈ rest.head?, c.isDigit = false) :
    exponent? (("e+" : Text) ++ d ++ rest) = some (false, d, rest) := by
  show exponent? (CodePoint.ofChar 'e' :: CodePoint.ofChar '+' :: (d ++ rest)) = _
  have hplus : CodePoint.ofChar '+' ≠ CodePoint.ofChar '-' := by decide
  simp [exponent?, cutSign, hplus, digits_append hd.2 hr, hd.1]

theorem exponent?_mark {b : Bool} (hd : IsDigits d) (hr : ∀ c ∈ rest.head?, c.isDigit = false) :
    exponent? (mark b ++ d ++ rest) = some (b, d, rest) := by
  cases b with
  | true => exact exponent?_minus hd hr
  | false => exact exponent?_plus hd hr

/-- A number with a fraction or an exponent is read whatever it ends at. -/
theorem number_spelled {n : Nat} {e : Int} (ht : Spelled t n e) (h : Ended rest) :
    number negative start (t ++ rest) = .ok (.float (.ofDecimal negative n e), rest) := by
  cases ht with
  | @fraction w d hw hd =>
    have hpoint := fraction?_point hd h.noDigit
    rw [List.append_assoc, List.append_assoc, number,
      wholePart_append hw fun c hc => by cases hc; decide, ← List.append_assoc]
    simp only [hpoint, exponent?_ended h, Option.getD_some, List.isEmpty_iff, ne_nil_of_isNumeral hw, hd.1, ↓reduceIte]
  | @exponent w f d b hw hf hd =>
    have hexponent := exponent?_mark (b := b) hd h.noDigit
    have hmark : ∀ c ∈ (mark b ++ d ++ rest).head?, c.isDigit = false := by
      intro c hc
      cases b <;> cases hc <;> decide
    unfold pointed
    split
    · rename_i hnil
      subst hnil
      have hnone : fraction? (mark b ++ d ++ rest) = none := by
        cases b <;> rfl
      rw [List.append_nil, List.append_assoc, List.append_assoc, number, ← List.append_assoc (mark b),
        wholePart_append hw hmark]
      simp only [hnone, hexponent, Option.getD_none, List.isEmpty_iff, ne_nil_of_isNumeral hw, ↓reduceIte,
        List.append_nil]
    · rename_i hne
      have hpoint := fraction?_point ⟨hne, hf⟩ hmark
      rw [List.append_assoc, List.append_assoc, List.append_assoc, number, ← List.append_assoc (mark b),
        wholePart_append hw fun c hc => by cases hc; decide]
      simp only [hpoint, hexponent, Option.getD_some, List.isEmpty_iff, ne_nil_of_isNumeral hw, ↓reduceIte]

theorem ne_of_isDigit {e : Char} (hc : c.isDigit) (he : (CodePoint.ofChar e).isDigit = false) : c ≠ e := by
  rintro rfl
  rw [he] at hc
  cases hc

theorem isPrefixOf_cons_of_ne {e : CodePoint} (h : e ≠ c) (w r : Text) : (e :: w).isPrefixOf (c :: r) = false := by
  simp [List.isPrefixOf, h]

theorem word?_digit (hc : c.isDigit) (r : Text) : word? (c :: r) = none := by
  have hword (e : Char) (w : Text) (he : (CodePoint.ofChar e).isDigit = false) :
      (CodePoint.ofChar e :: w).isPrefixOf (c :: r) = false :=
    isPrefixOf_cons_of_ne (Ne.symm (ne_of_isDigit hc he)) w r
  simp only [word?]
  rw [if_neg, if_neg, if_neg, if_neg, if_neg, if_neg]
  all_goals rw [Bool.not_eq_true]; exact hword _ _ (by decide)

theorem word?_minus (hc : c.isDigit) (r : Text) : word? ('-' :: c :: r) = none := by
  have hword (e : Char) (w : Text) (he : CodePoint.ofChar e ≠ '-') :
      (CodePoint.ofChar e :: w).isPrefixOf (CodePoint.ofChar '-' :: c :: r) = false := isPrefixOf_cons_of_ne he w _
  have hinfinity : ("-Infinity" : Text).isPrefixOf (CodePoint.ofChar '-' :: c :: r) = false :=
    isPrefixOf_cons_of_ne (Ne.symm (ne_of_isDigit hc (by decide))) "nfinity" r
  simp only [word?]
  rw [if_neg, if_neg, if_neg, if_neg, if_neg, if_neg]
  · rw [Bool.not_eq_true]
    exact hinfinity
  all_goals rw [Bool.not_eq_true]; exact hword _ _ (by decide)

/-- A value that starts with no quote and no bracket. -/
theorem value_other (hq : c ≠ '"') (ha : c ≠ '[') (ho : c ≠ '\x7b') (depth : Nat) (r : Text) :
    value depth (c :: r) = match word? (c :: r) with
      | some found => .ok found
      | none => if c = '-' then number true (c :: r) r else number false (c :: r) (c :: r) := by
  unfold value
  exact (if_neg hq).trans ((if_neg ha).trans (if_neg ho))

def StartsWithDigit (t : Text) : Prop := ∃ c r, t = c :: r ∧ c.isDigit

theorem IsDigits.starts (hd : IsDigits d) : StartsWithDigit d := by
  obtain ⟨c, r, rfl⟩ := List.exists_cons_of_ne_nil hd.1
  exact ⟨c, r, rfl, hd.2 c List.mem_cons_self⟩

theorem IsNumeral.starts (hw : IsNumeral w) : StartsWithDigit w := by
  obtain rfl | hw := hw
  · exact ⟨_, [], rfl, by decide⟩
  · exact IsDigits.starts hw.isDigits

theorem StartsWithDigit.append (ht : StartsWithDigit t) (r : Text) : StartsWithDigit (t ++ r) := by
  obtain ⟨c, s, rfl, hc⟩ := ht
  exact ⟨c, s ++ r, rfl, hc⟩

theorem Spelled.starts {n : Nat} {e : Int} (ht : Spelled t n e) : StartsWithDigit t := by
  cases ht with
  | fraction hw hd => exact ((IsNumeral.starts hw).append _).append _
  | exponent hw hf hd => exact (((IsNumeral.starts hw).append _).append _).append _

theorem value_unsigned (ht : StartsWithDigit t) (depth : Nat) : value depth t = number false t t := by
  obtain ⟨c, r, rfl, hc⟩ := ht
  rw [value_other (ne_of_isDigit hc (by decide)) (ne_of_isDigit hc (by decide)) (ne_of_isDigit hc (by decide)),
    word?_digit hc]
  exact if_neg (ne_of_isDigit hc (by decide))

theorem value_negative (ht : StartsWithDigit t) (depth : Nat) : value depth ('-' :: t) = number true ('-' :: t) t := by
  obtain ⟨c, r, rfl, hc⟩ := ht
  rw [value_other (by decide) (by decide) (by decide), word?_minus hc]
  exact if_pos rfl

/-- A whole number is read as a value unless it has too many digits. -/
theorem value_ofInt (i : Int) (depth : Nat) (h : Ended rest) :
    value depth (ofInt i ++ rest) =
      if maxDigits < (ofNat i.natAbs).length then .error (.longInteger (ofNat i.natAbs).length)
      else .ok (.int i, rest) := by
  have hstarts (n : Nat) : StartsWithDigit (ofNat n ++ rest) := (IsDigits.starts (isDigits_ofNat n)).append rest
  cases i with
  | ofNat n =>
    rw [ofInt, value_unsigned (hstarts n), number_whole (isNumeral_ofNat n) h, ofDigits_ofNat,
      show (Int.ofNat n).natAbs = n from rfl, if_neg Bool.false_ne_true, Int.ofNat_eq_natCast]
  | negSucc n =>
    rw [ofInt, List.cons_append, value_negative (hstarts (n + 1)), number_whole (isNumeral_ofNat (n + 1)) h,
      ofDigits_ofNat, show (Int.negSucc n).natAbs = n + 1 from rfl, if_pos rfl, Int.negSucc_eq, Int.natCast_succ]

/-- A floating-point number is written as a word, or as a numeral with a sign. -/
theorem writeFloat_cases (x : Binary64) :
    writeFloat x = "NaN" ∨ writeFloat x = "Infinity" ∨ writeFloat x = "-Infinity" ∨
      x.isFinite ∧ writeFloat x = Decimal.display x := by
  rw [writeFloat]
  split
  · exact Or.inl rfl
  split
  · split
    · exact Or.inr (Or.inr (Or.inl rfl))
    · exact Or.inr (Or.inl rfl)
  · rename_i hnan hinfinite
    have hfinite : x.isFinite := by
      simp only [Binary64.isNaN, Binary64.isInfinite, Bool.not_eq_true, decide_eq_false_iff_not, beq_eq_false_iff_ne]
        at hnan hinfinite
      simp only [Binary64.isFinite, decide_eq_true_eq]
      omega
    exact Or.inr (Or.inr (Or.inr ⟨hfinite, rfl⟩))

/-- A finite number comes back. -/
theorem value_display {x : Binary64} (hf : x.isFinite) (depth : Nat) (h : Ended rest) :
    value depth (Decimal.display x ++ rest) = .ok (.float x, rest) := by
  obtain ⟨t, n, e, ht, hdisplay, hx⟩ := display_reads x hf
  have hread (start : Text) : number x.negative start (t ++ rest) = .ok (.float x, rest) := by
    rw [number_spelled ht h, hx]
  have hstarts := (Spelled.starts ht).append rest
  rw [hdisplay]
  cases hn : x.negative with
  | true =>
    rw [hn] at hread
    exact (value_negative hstarts depth).trans (hread _)
  | false =>
    rw [hn] at hread
    exact (value_unsigned hstarts depth).trans (hread _)

theorem value_float (x : Binary64) :
    ∃ y, ∀ depth rest, Ended rest → value depth (writeFloat x ++ rest) = .ok (.float y, rest) := by
  obtain h | h | h | ⟨hf, h⟩ := writeFloat_cases x
  · exact ⟨.nan, fun depth rest _ => h ▸ value_other (by decide) (by decide) (by decide) depth _⟩
  · exact ⟨.infinity false, fun depth rest _ => h ▸ value_other (by decide) (by decide) (by decide) depth _⟩
  · exact ⟨.infinity true, fun depth rest _ => h ▸ value_other (by decide) (by decide) (by decide) depth _⟩
  · exact ⟨x, fun depth rest hr => h ▸ value_display hf depth hr⟩

def rereadFloat (x : Binary64) : Json :=
  match value 0 (writeFloat x) with
  | .ok (v, _) => v
  | .error _ => .float x

theorem value_writeFloat (x : Binary64) (depth : Nat) (h : Ended rest) :
    value depth (writeFloat x ++ rest) = .ok (rereadFloat x, rest) := by
  obtain ⟨y, hy⟩ := value_float x
  have halone := hy 0 [] ended_nil
  rw [List.append_nil] at halone
  rw [hy depth rest h, rereadFloat, halone]

/-- A finite number comes back as it was. -/
theorem rereadFloat_eq {x : Binary64} (hf : x.isFinite) : rereadFloat x = .float x := by
  have hlt : x.magnitude < Binary64.infinityMagnitude := by simpa [Binary64.isFinite] using hf
  have hwrite : writeFloat x = Decimal.display x := by
    unfold writeFloat
    rw [if_neg (by simp [Binary64.isNaN]; omega), if_neg (by simp [Binary64.isInfinite]; omega)]
  have hread := value_display hf 0 ended_nil
  rw [List.append_nil] at hread
  rw [rereadFloat, hwrite, hread]

def joinPairs : Text → Text
  | [] => []
  | [c] => [c]
  | c :: d :: r =>
    if isHighSurrogate c.val && isLowSurrogate d.val then joinSurrogates c.val d.val :: joinPairs r
    else c :: joinPairs (d :: r)

theorem hexValue?_hexDigit {k : Nat} (h : k < 16) : (hexDigit k).hexValue? = some k := by
  have hall : ∀ k < 16, (hexDigit k).hexValue? = some k := by decide
  exact hall k h

theorem hex4?_hex {k : Nat} (h : k < 0x10000) (r : Text) : hex4? (hex 4 k ++ r) = some (k, r) := by
  have hlt (n : Nat) : n % 16 < 16 := Nat.mod_lt n (by decide)
  simp only [hex, hex4?, List.nil_append, List.cons_append, hexValue?_hexDigit (hlt _), Option.bind_eq_bind,
    Option.bind_some, Option.some.injEq, Prod.mk.injEq, and_true]
  omega

theorem ofNat_val (c : CodePoint) : CodePoint.ofNat c.val = c := by
  simp [CodePoint.ofNat, c.lt]

/-- How a code point is written inside a string. -/
inductive Escaped (c : CodePoint) : Text → Prop
  | plain (hq : c ≠ '"') (hb : c ≠ '\\') (hle : 32 ≤ c.val) (hlt : c.val < 128) : Escaped c [c]
  | short (e d : Char) (hu : CodePoint.ofChar e ≠ 'u') (he : escaped? (CodePoint.ofChar e).char = some d)
      (hc : CodePoint.ofChar d = c) (hlt : c.val < 128) : Escaped c ['\\', e]
  | unit (hlt : c.val < 0x10000) : Escaped c (unit c.val)
  | pair (hle : 0x10000 ≤ c.val) :
      Escaped c (Json.unit (0xd800 + (c.val - 0x10000) / 0x400) ++ Json.unit (0xdc00 + (c.val - 0x10000) % 0x400))

/-- What is written for a code point is an escape of it. -/
theorem escapePoint_escaped (c : CodePoint) : Escaped c (escapePoint c) := by
  unfold escapePoint
  split
  · subst_vars
    exact .short '"' '"' (by decide) rfl rfl (by decide)
  rename_i hq
  split
  · subst_vars
    exact .short '\\' '\\' (by decide) rfl rfl (by decide)
  rename_i hb
  split
  · subst_vars
    exact .short 'n' '\n' (by decide) rfl rfl (by decide)
  split
  · subst_vars
    exact .short 'r' '\r' (by decide) rfl rfl (by decide)
  split
  · subst_vars
    exact .short 't' '\t' (by decide) rfl rfl (by decide)
  split
  · subst_vars
    exact .short 'b' '\x08' (by decide) rfl rfl (by decide)
  split
  · subst_vars
    exact .short 'f' '\x0c' (by decide) rfl rfl (by decide)
  split
  · rename_i h
    rw [Bool.and_eq_true, decide_eq_true_eq, decide_eq_true_eq] at h
    exact .plain hq hb h.1 (by omega)
  split
  · exact .unit ‹_›
  · exact .pair (by omega)

variable {n k : Nat} {acc : Text} {p : CodePoint}

theorem unit_eq (k : Nat) : unit k = CodePoint.ofChar '\\' :: CodePoint.ofChar 'u' :: hex 4 k := rfl

theorem lowSurrogate?_unit (hk : k < 0x10000) (r : Text) :
    lowSurrogate? (unit k ++ r) = if isLowSurrogate k then some (k, r) else none := by
  rw [unit_eq, List.cons_append, List.cons_append]
  simp only [lowSurrogate?, decide_true, Bool.and_self, ↓reduceIte, hex4?_hex hk]

/-- An escape by number whose text goes on. -/
theorem stringBody_unit (hk : k < 0x10000) (hr : r ≠ []) :
    stringBody start (n + 1) acc (unit k ++ r) =
      if isHighSurrogate k then
        match lowSurrogate? r with
        | some (low, rest) => stringBody start n (joinSurrogates k low :: acc) rest
        | none => stringBody start n (.ofNat k :: acc) r
      else stringBody start n (.ofNat k :: acc) r := by
  rw [unit_eq, List.cons_append, List.cons_append]
  obtain ⟨c, r, rfl⟩ := List.exists_cons_of_ne_nil hr
  have hquote : CodePoint.ofChar '\\' ≠ CodePoint.ofChar '"' := by decide
  cases hhigh : isHighSurrogate k with
  | false => simp [stringBody, hquote, hex4?_hex hk, hhigh]
  | true => cases hlow : lowSurrogate? (c :: r) <;> simp [stringBody, hquote, hex4?_hex hk, hhigh, hlow]

theorem isHighSurrogate_iff : isHighSurrogate k ↔ 0xd800 ≤ k ∧ k < 0xdc00 := by
  rw [isHighSurrogate, Bool.and_eq_true, decide_eq_true_eq, decide_eq_true_eq]

theorem isLowSurrogate_iff : isLowSurrogate k ↔ 0xdc00 ≤ k ∧ k < 0xe000 := by
  rw [isLowSurrogate, Bool.and_eq_true, decide_eq_true_eq, decide_eq_true_eq]

/-- The halves of a code point past the basic plane. -/
theorem surrogates_of_le (hle : 0x10000 ≤ p.val) :
    isHighSurrogate (0xd800 + (p.val - 0x10000) / 0x400) ∧ isLowSurrogate (0xdc00 + (p.val - 0x10000) % 0x400) ∧
      joinSurrogates (0xd800 + (p.val - 0x10000) / 0x400) (0xdc00 + (p.val - 0x10000) % 0x400) = p := by
  have hmax := p.lt
  refine ⟨isHighSurrogate_iff.mpr (by omega), isLowSurrogate_iff.mpr (by omega), ?_⟩
  have hval : 0x10000 + (0xd800 + (p.val - 0x10000) / 0x400 - 0xd800) * 0x400 +
      (0xdc00 + (p.val - 0x10000) % 0x400 - 0xdc00) = p.val := by omega
  rw [joinSurrogates, hval, ofNat_val]

/-- A code point that is no high surrogate is read for itself. -/
theorem stringBody_point (hp : isHighSurrogate p.val = false) (hr : r ≠ []) :
    stringBody start (n + 1) acc (escapePoint p ++ r) = stringBody start n (p :: acc) r := by
  have h := escapePoint_escaped p
  generalize escapePoint p = written at h
  cases h with
  | plain hq hb hle hlt =>
    simp only [List.cons_append, List.nil_append, stringBody, hq, hb, Nat.not_lt.mpr hle, ↓reduceIte]
  | short e d hu he hc hlt =>
    have hquote : CodePoint.ofChar '\\' ≠ CodePoint.ofChar '"' := by decide
    simp only [List.cons_append, List.nil_append, stringBody, hquote, ↓reduceIte, hu, he, hc]
  | unit hlt => rw [stringBody_unit hlt hr, hp, ofNat_val, if_neg Bool.false_ne_true]
  | pair hle =>
    obtain ⟨hhigh, hlow, hjoin⟩ := surrogates_of_le hle
    have hhighlt := (isHighSurrogate_iff.mp hhigh).2
    have hlowlt := (isLowSurrogate_iff.mp hlow).2
    have hne : Json.unit (0xdc00 + (p.val - 0x10000) % 0x400) ++ r ≠ [] := fun h => hr (List.append_eq_nil_iff.mp h).2
    rw [List.append_assoc, stringBody_unit (by omega) hne, if_pos hhigh, lowSurrogate?_unit (by omega), if_pos hlow]
    dsimp only
    rw [hjoin]

/-- A high surrogate takes the low one that follows it. -/
theorem stringBody_high (hp : isHighSurrogate p.val) (hr : r ≠ []) :
    stringBody start (n + 1) acc (escapePoint p ++ r) =
      match lowSurrogate? r with
      | some (low, rest) => stringBody start n (joinSurrogates p.val low :: acc) rest
      | none => stringBody start n (p :: acc) r := by
  have hval := isHighSurrogate_iff.mp hp
  have h := escapePoint_escaped p
  generalize escapePoint p = written at h
  cases h with
  | plain hq hb hle hlt => omega
  | short e d hu he hc hlt => omega
  | unit hlt => rw [stringBody_unit hlt hr, if_pos hp, ofNat_val]
  | pair hle => omega

/-- A low surrogate is read where one was written, and only there. -/
theorem lowSurrogate?_point (p : CodePoint) (r : Text) :
    lowSurrogate? (escapePoint p ++ r) = if isLowSurrogate p.val then some (p.val, r) else none := by
  have h := escapePoint_escaped p
  generalize escapePoint p = written at h
  cases h with
  | plain hq hb hle hlt =>
    have hno : ¬ isLowSurrogate p.val := fun hs => by have := isLowSurrogate_iff.mp hs; omega
    rw [if_neg hno]
    cases r <;> simp [lowSurrogate?, hb]
  | short e d hu he hc hlt =>
    have hno : ¬ isLowSurrogate p.val := fun hs => by have := isLowSurrogate_iff.mp hs; omega
    rw [if_neg hno]
    simp [lowSurrogate?, hu]
  | unit hlt => exact lowSurrogate?_unit hlt r
  | pair hle =>
    have hhigh := isHighSurrogate_iff.mp (surrogates_of_le hle).1
    have hfirst : ¬ isLowSurrogate (0xd800 + (p.val - 0x10000) / 0x400) := fun hs => by
      have := isLowSurrogate_iff.mp hs
      omega
    have hno : ¬ isLowSurrogate p.val := fun hs => by have := isLowSurrogate_iff.mp hs; omega
    rw [if_neg hno, List.append_assoc, lowSurrogate?_unit (by omega), if_neg hfirst]

theorem lowSurrogate?_quote (r : Text) : lowSurrogate? (CodePoint.ofChar '"' :: r) = none := by
  have hquote : CodePoint.ofChar '"' ≠ CodePoint.ofChar '\\' := by decide
  cases r <;> simp [lowSurrogate?, hquote]

/-- The body of a written string is read to its closing quote. -/
theorem stringBody_write (hn : t.length < n) :
    stringBody start n acc (t.flatMap escapePoint ++ CodePoint.ofChar '"' :: rest) =
      .ok (acc.reverse ++ joinPairs t, rest) := by
  have hne (u : Text) : u ++ CodePoint.ofChar '"' :: rest ≠ [] := by simp
  fun_induction joinPairs t generalizing n acc with
  | case1 =>
    cases n with
    | zero => cases hn
    | succ n => simp [stringBody]
  | case2 c =>
    obtain ⟨n, rfl⟩ : ∃ m, n = m + 2 := ⟨n - 2, by simp only [List.length_singleton] at hn; omega⟩
    have hend : stringBody start (n + 1) (c :: acc) (CodePoint.ofChar '"' :: rest) =
        .ok (acc.reverse ++ [c], rest) := by
      simp [stringBody]
    rw [List.flatMap_singleton]
    cases hc : isHighSurrogate c.val with
    | true => rw [stringBody_high hc (by simp), lowSurrogate?_quote, hend]
    | false => rw [stringBody_point hc (by simp), hend]
  | case3 c d r h ih =>
    obtain ⟨hc, hd⟩ := (Bool.and_eq_true _ _).mp h
    cases n with
    | zero => cases hn
    | succ n =>
      have hn' : r.length < n := by
        simp only [List.length_cons] at hn
        omega
      rw [List.flatMap_cons, List.flatMap_cons, List.append_assoc, List.append_assoc,
        stringBody_high hc fun he => hne _ (List.append_eq_nil_iff.mp he).2, lowSurrogate?_point, if_pos hd]
      dsimp only
      rw [ih hn']
      simp
  | case4 c d r h ih =>
    cases n with
    | zero => cases hn
    | succ n =>
      have hn' : (d :: r).length < n := Nat.lt_of_succ_lt_succ hn
      rw [List.flatMap_cons, List.append_assoc]
      have hend : stringBody start n (c :: acc) ((d :: r).flatMap escapePoint ++ CodePoint.ofChar '"' :: rest) =
          .ok ((c :: acc).reverse ++ joinPairs (d :: r), rest) := ih hn'
      cases hc : isHighSurrogate c.val with
      | true =>
        have hd : ¬ isLowSurrogate d.val := fun hd => h (by rw [hc, hd]; rfl)
        rw [stringBody_high hc (hne _), List.flatMap_cons, List.append_assoc, lowSurrogate?_point, if_neg hd]
        rw [List.flatMap_cons, List.append_assoc] at hend
        simpa using hend
      | false =>
        rw [stringBody_point hc (hne _), hend]
        simp

theorem escapePoint_ne_nil (p : CodePoint) : escapePoint p ≠ [] := by
  have h := escapePoint_escaped p
  generalize escapePoint p = written at h
  cases h <;> simp [unit_eq]

theorem length_le_flatMap (t : Text) : t.length ≤ (t.flatMap escapePoint).length := by
  induction t with
  | nil => exact Nat.le_refl 0
  | cons c r ih =>
    have hpos := List.length_pos_iff.mpr (escapePoint_ne_nil c)
    rw [List.flatMap_cons, List.length_append, List.length_cons]
    omega

theorem writeString_eq (t : Text) :
    writeString t = CodePoint.ofChar '"' :: (t.flatMap escapePoint ++ [CodePoint.ofChar '"']) := rfl

/-- A written string is read. -/
theorem string_write (t rest : Text) : string (writeString t ++ rest) = .ok (joinPairs t, rest) := by
  have hlength := length_le_flatMap t
  rw [writeString_eq, string, List.cons_append, List.drop_one, List.tail_cons, List.append_assoc,
    List.singleton_append, stringBody_write (by simp only [List.length_cons, List.length_append]; omega)]
  rfl

mutual
def depth : Json → Nat
  | .arr items => depthItems items + 1
  | .obj fields => depthFields fields + 1
  | _ => 0

def depthItems : List Json → Nat
  | [] => 0
  | v :: r => max (depth v) (depthItems r)

def depthFields : List (Text × Json) → Nat
  | [] => 0
  | (_, v) :: r => max (depth v) (depthFields r)
end

mutual
def integers : Json → List Int
  | .int i => [i]
  | .arr items => integersItems items
  | .obj fields => integersFields fields
  | _ => []

def integersItems : List Json → List Int
  | [] => []
  | v :: r => integers v ++ integersItems r

def integersFields : List (Text × Json) → List Int
  | [] => []
  | (_, v) :: r => integers v ++ integersFields r
end

mutual
def reread : Json → Json
  | .float x => rereadFloat x
  | .str t => .str (joinPairs t)
  | .arr items => .arr (rereadItems items)
  | .obj fields => .obj (ofPairs (rereadFields fields))
  | v => v

def rereadItems : List Json → List Json
  | [] => []
  | v :: r => reread v :: rereadItems r

def rereadFields : List (Text × Json) → List (Text × Json)
  | [] => []
  | (k, v) :: r => (joinPairs k, reread v) :: rereadFields r
end

/-- Every whole number has few enough digits to be read. -/
def ReadableIntegers (is : List Int) : Prop := ∀ i ∈ is, i.natAbs < Nat.pow 10 maxDigits

/-- Numbers of one digit can be read. -/
theorem readable_of_lt_ten {is : List Int} (h : ∀ i ∈ is, i.natAbs < 10) : ReadableIntegers is := by
  have hpow (n : Nat) (hn : 1 ≤ n) : 10 ≤ Nat.pow 10 n := Nat.pow_le_pow_right (n := 10) (by decide) hn
  exact fun i hi => Nat.lt_of_lt_of_le (h i hi) (hpow maxDigits (by decide))

theorem skipSpace_cons (hc : isSpace c = false) (r : Text) : skipSpace (c :: r) = c :: r := by
  simp [skipSpace, hc]

theorem isSpace_of_isDigit (hc : c.isDigit) : isSpace c = false := by
  have hne (e : Char) (he : (CodePoint.ofChar e).isDigit = false) : c ≠ CodePoint.ofChar e := ne_of_isDigit hc he
  simp [isSpace, hne ' ' (by decide), hne '\t' (by decide), hne '\n' (by decide), hne '\r' (by decide)]

/-- What a written value can start with. -/
structure Opening (c : CodePoint) : Prop where
  ascii : c.val < 128
  noSpace : isSpace c = false
  noBracket : c ≠ ']'

/-- What is written of a value begins with a letter that opens one. -/
theorem write_eq_cons (v : Json) : ∃ c r, write v = c :: r ∧ Opening c := by
  have hdigit {t : Text} (ht : StartsWithDigit t) : ∃ c r, t = c :: r ∧ Opening c := by
    obtain ⟨c, r, rfl, hc⟩ := ht
    have hascii : c.val < 128 := by
      simp only [CodePoint.isDigit, Bool.and_eq_true, decide_eq_true_eq] at hc
      omega
    exact ⟨c, r, rfl, hascii, isSpace_of_isDigit hc, ne_of_isDigit hc (by decide)⟩
  cases v with
  | null => exact ⟨_, _, rfl, by decide, by decide, by decide⟩
  | bool b => cases b <;> exact ⟨_, _, rfl, by decide, by decide, by decide⟩
  | int i =>
    cases i with
    | ofNat n => exact hdigit (IsDigits.starts (isDigits_ofNat n))
    | negSucc n => exact ⟨_, _, rfl, by decide, by decide, by decide⟩
  | float x =>
    rw [write]
    obtain h | h | h | ⟨hf, h⟩ := writeFloat_cases x
    · exact ⟨_, _, h, by decide, by decide, by decide⟩
    · exact ⟨_, _, h, by decide, by decide, by decide⟩
    · exact ⟨_, _, h, by decide, by decide, by decide⟩
    · obtain ⟨t, n, e, ht, hdisplay, -⟩ := display_spelled x hf
      rw [h, hdisplay]
      split
      · exact ⟨_, _, rfl, by decide, by decide, by decide⟩
      · exact hdigit (Spelled.starts ht)
  | str t => exact ⟨_, _, rfl, by decide, by decide, by decide⟩
  | arr items => exact ⟨_, _, rfl, by decide, by decide, by decide⟩
  | obj fields => exact ⟨_, _, rfl, by decide, by decide, by decide⟩

theorem skipSpace_write (v : Json) (rest : Text) : skipSpace (write v ++ rest) = write v ++ rest := by
  obtain ⟨c, r, he, hc⟩ := write_eq_cons v
  rw [he, List.cons_append, skipSpace_cons hc.noSpace]

variable {item : Step Json} {v : Json} {vs : List Json} {fs : List (Text × Json)} {key : Text}

theorem isSpace_bracket : isSpace (CodePoint.ofChar ']') = false ∧ isSpace (CodePoint.ofChar '\x7d') = false ∧
    isSpace (CodePoint.ofChar ',') = false ∧ isSpace (CodePoint.ofChar ':') = false := by decide

theorem items_error {fault : Fault} (h : item t = .error fault) : items item (n + 1) vs t = .error fault := by
  rw [items, h]
  rfl

theorem items_last (h : item t = .ok (v, CodePoint.ofChar ']' :: rest)) :
    items item (n + 1) vs t = .ok ((v :: vs).reverse, rest) := by
  rw [items, h]
  simp only [bind, Except.bind, skipSpace_cons isSpace_bracket.1, ↓reduceIte]

theorem items_next (h : item t = .ok (v, CodePoint.ofChar ',' :: CodePoint.ofChar ' ' :: rest)) :
    items item (n + 1) vs t = items item n (v :: vs) (skipSpace rest) := by
  have hcomma : CodePoint.ofChar ',' ≠ CodePoint.ofChar ']' := by decide
  rw [items, h]
  simp only [bind, Except.bind, skipSpace_cons isSpace_bracket.2.2.1, hcomma, ↓reduceIte]
  rfl

/-- A written key and its colon are read, and then the value. -/
theorem field_write (item : Step Json) (key : Text) (hr : skipSpace r = r) :
    field item (writeString key ++ CodePoint.ofChar ':' :: CodePoint.ofChar ' ' :: r) =
      (item r).map fun (v, rest) => ((joinPairs key, v), rest) := by
  have hstring := string_write key (CodePoint.ofChar ':' :: CodePoint.ofChar ' ' :: r)
  have hblank : skipSpace (CodePoint.ofChar ' ' :: r) = skipSpace r := rfl
  rw [writeString_eq, List.cons_append] at hstring ⊢
  simp only [field, ↓reduceIte, hstring, bind, Except.bind, skipSpace_cons isSpace_bracket.2.2.2, hblank, hr]
  cases item r <;> rfl

theorem fields_error {fault : Fault} (h : field item t = .error fault) : fields item (n + 1) fs t = .error fault := by
  rw [fields, h]
  rfl

theorem fields_last (h : field item t = .ok ((key, v), CodePoint.ofChar '\x7d' :: rest)) :
    fields item (n + 1) fs t = .ok (((key, v) :: fs).reverse, rest) := by
  rw [fields, h]
  simp only [bind, Except.bind, skipSpace_cons isSpace_bracket.2.1, ↓reduceIte]

theorem fields_next (h : field item t = .ok ((key, v), CodePoint.ofChar ',' :: CodePoint.ofChar ' ' :: rest)) :
    fields item (n + 1) fs t = fields item n ((key, v) :: fs) (skipSpace rest) := by
  have hcomma : CodePoint.ofChar ',' ≠ CodePoint.ofChar '\x7d' := by decide
  rw [fields, h]
  simp only [bind, Except.bind, skipSpace_cons isSpace_bracket.2.2.1, hcomma, ↓reduceIte]
  rfl

theorem ended_bracket (r : Text) : Ended (CodePoint.ofChar ']' :: r) ∧ Ended (CodePoint.ofChar '\x7d' :: r) ∧
    Ended (CodePoint.ofChar ',' :: r) := by
  refine ⟨?_, ?_, ?_⟩ <;> intro c hc <;> cases hc <;> decide

theorem joinWith_comma (t u : Text) (rest : List Text) :
    joinWith ", " (t :: u :: rest) =
      t ++ CodePoint.ofChar ',' :: CodePoint.ofChar ' ' :: joinWith ", " (u :: rest) := by
  rw [joinWith, List.intercalate_cons_cons, List.append_assoc]
  rfl

/-- There are not more pieces than code points in a text that joins them. -/
theorem length_le_joinWith (parts : List Text) : parts.length ≤ (joinWith ", " parts).length + 1 := by
  induction parts with
  | nil => simp
  | cons t rest ih =>
    cases rest with
    | nil => simp
    | cons u rest =>
      rw [joinWith_comma]
      simp only [List.length_cons, List.length_append] at ih ⊢
      omega

theorem value_array (hs : isSpace c = false) (hc : c ≠ ']') (k : Nat) (r : Text) :
    value (k + 1) (CodePoint.ofChar '[' :: c :: r) =
      (items (value k) ((c :: r).length + 1) [] (c :: r)).map fun (vs, rest) => (.arr vs, rest) := by
  have hquote : CodePoint.ofChar '[' ≠ CodePoint.ofChar '"' := by decide
  simp only [value, hquote, ↓reduceIte, skipSpace_cons hs, hc, List.length_cons]
  cases items (value k) (r.length + 1 + 1) [] (c :: r) <;> rfl

theorem value_object (hs : isSpace c = false) (hc : c ≠ '\x7d') (k : Nat) (r : Text) :
    value (k + 1) (CodePoint.ofChar '\x7b' :: c :: r) =
      (fields (value k) ((c :: r).length + 1) [] (c :: r)).map fun (fs, rest) => (.obj (ofPairs fs), rest) := by
  have hquote : CodePoint.ofChar '\x7b' ≠ CodePoint.ofChar '"' := by decide
  have hbracket : CodePoint.ofChar '\x7b' ≠ CodePoint.ofChar '[' := by decide
  simp only [value, hquote, hbracket, ↓reduceIte, skipSpace_cons hs, hc, List.length_cons]
  cases fields (value k) (r.length + 1 + 1) [] (c :: r) <;> rfl

theorem length_writeItems (items : List Json) : (writeItems items).length = items.length := by
  induction items with
  | nil => rfl
  | cons v tail ih => rw [writeItems, List.length_cons, List.length_cons, ih]

theorem length_writeFields (fields : List (Text × Json)) : (writeFields fields).length = fields.length := by
  induction fields with
  | nil => rfl
  | cons f tail ih => rw [writeFields, List.length_cons, List.length_cons, ih]

theorem joinWith_singleton (t : Text) : joinWith ", " [t] = t := by
  rw [joinWith, List.intercalate_singleton]

theorem joinWith_cons (t : Text) (rest : List Text) : ∃ r, joinWith ", " (t :: rest) = t ++ r := by
  cases rest with
  | nil => exact ⟨[], by rw [joinWith_singleton, List.append_nil]⟩
  | cons u rest => exact ⟨_, joinWith_comma t u rest⟩

theorem joinWith_writeItems (v : Json) (tail : List Json) :
    ∃ c r, joinWith ", " (writeItems (v :: tail)) = c :: r ∧ Opening c := by
  obtain ⟨c, s, hs, hc⟩ := write_eq_cons v
  obtain ⟨r, hr⟩ := joinWith_cons (write v) (writeItems tail)
  exact ⟨c, s ++ r, by rw [writeItems, hr, hs, List.cons_append], hc⟩

theorem joinWith_writeFields (f : Text × Json) (tail : List (Text × Json)) :
    ∃ r, joinWith ", " (writeFields (f :: tail)) = CodePoint.ofChar '"' :: r := by
  obtain ⟨r, hr⟩ := joinWith_cons (writeString f.1 ++ ": " ++ write f.2) (writeFields tail)
  exact ⟨_, hr⟩

mutual
/-- What was written is read back, unless its brackets are nested too deeply for the reader. -/
theorem value_write (v : Json) (hi : ReadableIntegers v.integers) (k : Nat) {rest : Text} (h : Ended rest) :
    value k (write v ++ rest) = if v.depth ≤ k then .ok (v.reread, rest) else .error .tooDeep := by
  -- On the value. Its parts are read with what was read before them and with any rest.
  cases v with
  | null => exact value_other (by decide) (by decide) (by decide) k _
  | bool b => cases b <;> exact value_other (by decide) (by decide) (by decide) k _
  | int i =>
    have hlength : ¬ maxDigits < (ofNat i.natAbs).length :=
      Nat.not_lt.mpr ((length_ofNat_le_iff (by decide)).mpr (hi i (by simp [integers])))
    rw [write, value_ofInt i k h, if_neg hlength]
    rfl
  | float x => exact value_writeFloat x k h
  | str t =>
    have hstring := string_write t rest
    rw [write]
    rw [writeString_eq, List.cons_append] at hstring ⊢
    unfold value
    rw [if_pos rfl, hstring]
    rfl
  | arr items =>
    cases k with
    | zero => rfl
    | succ k =>
      cases items with
      | nil => rfl
      | cons v tail =>
        have hitems := items_write (v :: tail) (List.cons_ne_nil v tail) hi k
          (n := (joinWith ", " (writeItems (v :: tail)) ++ CodePoint.ofChar ']' :: rest).length + 1) (by
            have hlength := length_le_joinWith (writeItems (v :: tail))
            rw [length_writeItems] at hlength
            rw [List.length_append]
            omega) [] rest
        obtain ⟨c, r, hr, hc⟩ := joinWith_writeItems v tail
        have hwrite : write (.arr (v :: tail)) ++ rest =
            CodePoint.ofChar '[' :: c :: (r ++ CodePoint.ofChar ']' :: rest) := by
          rw [write, hr, List.append_assoc, List.append_assoc]
          rfl
        rw [hr, List.cons_append] at hitems
        rw [hwrite, value_array hc.noSpace hc.noBracket, hitems]
        simp only [depth, Nat.add_le_add_iff_right]
        split <;> rfl
  | obj fields =>
    cases k with
    | zero => rfl
    | succ k =>
      cases fields with
      | nil => rfl
      | cons f tail =>
        have hfields := fields_write (f :: tail) (List.cons_ne_nil f tail) hi k
          (n := (joinWith ", " (writeFields (f :: tail)) ++ CodePoint.ofChar '\x7d' :: rest).length + 1) (by
            have hlength := length_le_joinWith (writeFields (f :: tail))
            rw [length_writeFields] at hlength
            rw [List.length_append]
            omega) [] rest
        obtain ⟨r, hr⟩ := joinWith_writeFields f tail
        have hwrite : write (.obj (f :: tail)) ++ rest =
            CodePoint.ofChar '\x7b' :: CodePoint.ofChar '"' :: (r ++ CodePoint.ofChar '\x7d' :: rest) := by
          rw [write, hr, List.append_assoc, List.append_assoc]
          rfl
        rw [hr, List.cons_append] at hfields
        rw [hwrite, value_object (by decide) (by decide), hfields]
        simp only [depth, Nat.add_le_add_iff_right]
        split <;> rfl

/-- Items that were written are read back, if their depth is allowed. -/
theorem items_write (items : List Json) (hne : items ≠ []) (hi : ReadableIntegers (integersItems items)) (k : Nat)
    {n : Nat} (hn : items.length ≤ n) (acc : List Json) (rest : Text) :
    Json.items (value k) n acc (joinWith ", " (writeItems items) ++ CodePoint.ofChar ']' :: rest) =
      if depthItems items ≤ k then .ok (acc.reverse ++ rereadItems items, rest) else .error .tooDeep := by
  cases items with
  | nil => exact absurd rfl hne
  | cons v tail =>
    obtain ⟨n, rfl⟩ : ∃ m, n = m + 1 := ⟨n - 1, by simp only [List.length_cons] at hn; omega⟩
    have hv : ReadableIntegers v.integers := fun i hmem => hi i (List.mem_append_left _ hmem)
    have htail : ReadableIntegers (integersItems tail) := fun i hmem => hi i (List.mem_append_right _ hmem)
    rw [depthItems]
    cases tail with
    | nil =>
      have hread := value_write v hv k (ended_bracket rest).1
      have hjoin : joinWith ", " (writeItems [v]) = write v := joinWith_singleton (write v)
      rw [hjoin]
      by_cases hdepth : v.depth ≤ k
      · rw [if_pos hdepth] at hread
        rw [items_last hread, if_pos (by simpa [depthItems]), List.reverse_cons]
        rfl
      · rw [if_neg hdepth] at hread
        rw [items_error hread, if_neg (by simpa [depthItems] using hdepth)]
    | cons w tail =>
      have hread := value_write v hv k (ended_bracket (CodePoint.ofChar ' ' ::
        (joinWith ", " (writeItems (w :: tail)) ++ CodePoint.ofChar ']' :: rest))).2.2
      have hjoin : joinWith ", " (writeItems (v :: w :: tail)) ++ CodePoint.ofChar ']' :: rest = write v ++
          CodePoint.ofChar ',' :: CodePoint.ofChar ' ' ::
            (joinWith ", " (writeItems (w :: tail)) ++ CodePoint.ofChar ']' :: rest) := by
        rw [writeItems, writeItems, joinWith_comma, List.append_assoc]
        rfl
      have hskip : skipSpace (joinWith ", " (writeItems (w :: tail)) ++ CodePoint.ofChar ']' :: rest) =
          joinWith ", " (writeItems (w :: tail)) ++ CodePoint.ofChar ']' :: rest := by
        obtain ⟨c, r, hr, hc⟩ := joinWith_writeItems w tail
        rw [hr, List.cons_append, skipSpace_cons hc.noSpace]
      have hrest := items_write (w :: tail) (List.cons_ne_nil w tail) htail k (Nat.le_of_succ_le_succ hn)
        (v.reread :: acc) rest
      rw [hjoin]
      by_cases hdepth : v.depth ≤ k
      · rw [if_pos hdepth] at hread
        rw [items_next hread, hskip, hrest]
        simp only [Nat.max_le, hdepth, true_and, List.reverse_cons, List.append_assoc, rereadItems,
          List.singleton_append]
      · rw [if_neg hdepth] at hread
        rw [items_error hread, if_neg fun h => hdepth (Nat.max_le.mp h).1]

/-- Fields that were written are read back, if their depth is allowed. -/
theorem fields_write (fields : List (Text × Json)) (hne : fields ≠ []) (hi : ReadableIntegers (integersFields fields))
    (k : Nat) {n : Nat} (hn : fields.length ≤ n) (acc : List (Text × Json)) (rest : Text) :
    Json.fields (value k) n acc (joinWith ", " (writeFields fields) ++ CodePoint.ofChar '\x7d' :: rest) =
      if depthFields fields ≤ k then .ok (acc.reverse ++ rereadFields fields, rest) else .error .tooDeep := by
  cases fields with
  | nil => exact absurd rfl hne
  | cons f tail =>
    obtain ⟨key, v⟩ := f
    obtain ⟨n, rfl⟩ : ∃ m, n = m + 1 := ⟨n - 1, by simp only [List.length_cons] at hn; omega⟩
    have hv : ReadableIntegers v.integers := fun i hmem => hi i (List.mem_append_left _ hmem)
    have htail : ReadableIntegers (integersFields tail) := fun i hmem => hi i (List.mem_append_right _ hmem)
    rw [depthFields]
    cases tail with
    | nil =>
      have hread := value_write v hv k (ended_bracket rest).2.1
      have hfield := field_write (value k) key (skipSpace_write v (CodePoint.ofChar '\x7d' :: rest))
      have hjoin : joinWith ", " (writeFields [(key, v)]) ++ CodePoint.ofChar '\x7d' :: rest = writeString key ++
          CodePoint.ofChar ':' :: CodePoint.ofChar ' ' :: (write v ++ CodePoint.ofChar '\x7d' :: rest) := by
        rw [writeFields, writeFields, joinWith_singleton, List.append_assoc, List.append_assoc]
        rfl
      rw [hread] at hfield
      rw [hjoin]
      by_cases hdepth : v.depth ≤ k
      · rw [if_pos hdepth] at hfield
        rw [fields_last hfield, if_pos (by simpa [depthFields]), List.reverse_cons]
        rfl
      · rw [if_neg hdepth] at hfield
        rw [fields_error hfield, if_neg (by simpa [depthFields] using hdepth)]
    | cons g tail =>
      have hread := value_write v hv k (ended_bracket (CodePoint.ofChar ' ' ::
        (joinWith ", " (writeFields (g :: tail)) ++ CodePoint.ofChar '\x7d' :: rest))).2.2
      have hfield := field_write (value k) key (skipSpace_write v (CodePoint.ofChar ',' ::
        CodePoint.ofChar ' ' :: (joinWith ", " (writeFields (g :: tail)) ++ CodePoint.ofChar '\x7d' :: rest)))
      have hjoin : joinWith ", " (writeFields ((key, v) :: g :: tail)) ++ CodePoint.ofChar '\x7d' :: rest =
          writeString key ++ CodePoint.ofChar ':' :: CodePoint.ofChar ' ' :: (write v ++
            CodePoint.ofChar ',' :: CodePoint.ofChar ' ' ::
              (joinWith ", " (writeFields (g :: tail)) ++ CodePoint.ofChar '\x7d' :: rest)) := by
        rw [writeFields, writeFields, joinWith_comma]
        simp only [List.append_assoc, List.cons_append]
        rfl
      have hskip : skipSpace (joinWith ", " (writeFields (g :: tail)) ++ CodePoint.ofChar '\x7d' :: rest) =
          joinWith ", " (writeFields (g :: tail)) ++ CodePoint.ofChar '\x7d' :: rest := by
        obtain ⟨r, hr⟩ := joinWith_writeFields g tail
        rw [hr, List.cons_append, skipSpace_cons (by decide)]
      have hrest := fields_write (g :: tail) (List.cons_ne_nil g tail) htail k (Nat.le_of_succ_le_succ hn)
        ((joinPairs key, v.reread) :: acc) rest
      rw [hread] at hfield
      rw [hjoin]
      by_cases hdepth : v.depth ≤ k
      · rw [if_pos hdepth] at hfield
        rw [fields_next hfield, hskip, hrest]
        simp only [Nat.max_le, hdepth, true_and, List.reverse_cons, List.append_assoc, rereadFields,
          List.singleton_append]
      · rw [if_neg hdepth] at hfield
        rw [fields_error hfield, if_neg fun h => hdepth (Nat.max_le.mp h).1]
end

variable [Host]

/-- A document that was written is read back, unless its brackets are nested too deeply for the reader. -/
theorem read_write (v : Json) (hi : ReadableIntegers v.integers) :
    read (write v) = if v.depth ≤ Host.jsonDepth then .ok v.reread else .error .tooDeep := by
  have hvalue := value_write v hi Host.jsonDepth ended_nil
  have hskip := skipSpace_write v []
  rw [List.append_nil] at hvalue hskip
  obtain ⟨c, r, hr, hc⟩ := write_eq_cons v
  have hmark : ¬ ((write v).head?.map CodePoint.val) = some 0xfeff := by
    rw [hr, List.head?_cons, Option.map_some, Option.some.injEq]
    have := hc.ascii
    omega
  rw [read, if_neg hmark, hskip, hvalue]
  split <;> rfl

end CodeAgent.Json
