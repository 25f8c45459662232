import CodeAgent.Text.Utf8

namespace CodeAgent.Utf8

theorem isTail_iff (b : UInt8) : isTail b = true ↔ 0x80 ≤ b.toNat ∧ b.toNat < 0xc0 := by
  simp [isTail, UInt8.le_iff_toNat_le, UInt8.lt_iff_toNat_lt]

/-- The second byte of a sequence rules out overlong forms, surrogates and numbers that are too large. -/
theorem secondOk_bounds {b b1 : UInt8} (h : secondOk b b1 = true) :
    (0x80 ≤ b1.toNat ∧ b1.toNat < 0xc0) ∧ (b.toNat = 0xe0 → 0xa0 ≤ b1.toNat) ∧
      (b.toNat = 0xed → b1.toNat < 0xa0) ∧ (b.toNat = 0xf0 → 0x90 ≤ b1.toNat) ∧
      (b.toNat = 0xf4 → b1.toNat < 0x90) := by
  simp only [secondOk, Bool.and_eq_true, isTail_iff] at h
  obtain ⟨ht, h⟩ := h
  simp only [← UInt8.toNat_inj, UInt8.le_iff_toNat_le, UInt8.lt_iff_toNat_lt] at h
  refine ⟨ht, ?_, ?_, ?_, ?_⟩ <;> intro hb <;> simp [hb] at h <;> simpa using h

/-- The bytes of a sequence are those of its code point, which is no surrogate. -/
def Spells (bytes : Bytes) (c : CodePoint) : Prop :=
  encodePoint c = bytes ∧ c.isSurrogate = false

theorem ofNat_eq {n : Nat} {b : UInt8} (h : n = b.toNat) : UInt8.ofNat n = b := by
  rw [h]
  exact UInt8.ofNat_toNat

theorem spells_one {b : UInt8} (hb : b.toNat < 0x80) : Spells [b] (.ofNat b.toNat) := by
  have hn : b.toNat < 0x110000 := by omega
  simp only [Spells, encodePoint, CodePoint.ofNat, hn, CodePoint.isSurrogate, hb, ↓reduceIte, ↓reduceDIte,
    UInt8.ofNat_toNat, true_and]
  simp
  omega

theorem spells_two {b b1 : UInt8} (hb : 0xc2 ≤ b.toNat) (hb' : b.toNat < 0xe0)
    (h1 : 0x80 ≤ b1.toNat ∧ b1.toNat < 0xc0) :
    Spells [b, b1] (.ofNat (b.toNat % 32 * 64 + tail b1)) := by
  obtain ⟨n, he⟩ : ∃ n, n = b.toNat % 32 * 64 + tail b1 := ⟨_, rfl⟩
  rw [← he]
  simp only [tail] at he
  have hn : n < 0x110000 := by omega
  have h80 : ¬ n < 0x80 := by omega
  have h800 : n < 0x800 := by omega
  refine ⟨?_, ?_⟩
  · simp only [encodePoint, CodePoint.ofNat, hn, h80, h800, ↓reduceIte, ↓reduceDIte]
    rw [ofNat_eq (b := b) (by omega), ofNat_eq (b := b1) (by omega)]
  · simp [CodePoint.isSurrogate, CodePoint.ofNat, hn]
    omega

/-- Three bytes in range spell a code point. -/
theorem spells_three {b b1 b2 : UInt8} (hb : 0xe0 ≤ b.toNat) (hb' : b.toNat < 0xf0)
    (h1 : secondOk b b1 = true) (h2 : 0x80 ≤ b2.toNat ∧ b2.toNat < 0xc0) :
    Spells [b, b1, b2] (.ofNat (b.toNat % 16 * 4096 + tail b1 * 64 + tail b2)) := by
  obtain ⟨ht, h0, hd, -, -⟩ := secondOk_bounds h1
  obtain ⟨n, he⟩ : ∃ n, n = b.toNat % 16 * 4096 + tail b1 * 64 + tail b2 := ⟨_, rfl⟩
  rw [← he]
  simp only [tail] at he
  have hn : n < 0x110000 := by omega
  have h80 : ¬ n < 0x80 := by omega
  have h800 : ¬ n < 0x800 := by omega
  have h10000 : n < 0x10000 := by omega
  refine ⟨?_, ?_⟩
  · simp only [encodePoint, CodePoint.ofNat, hn, h80, h800, h10000, ↓reduceIte, ↓reduceDIte]
    rw [ofNat_eq (b := b) (by omega), ofNat_eq (b := b1) (by omega), ofNat_eq (b := b2) (by omega)]
  · simp [CodePoint.isSurrogate, CodePoint.ofNat, hn]
    omega

/-- Four bytes in range spell a code point. -/
theorem spells_four {b b1 b2 b3 : UInt8} (hb : 0xf0 ≤ b.toNat) (hb' : b.toNat < 0xf5)
    (h1 : secondOk b b1 = true) (h2 : 0x80 ≤ b2.toNat ∧ b2.toNat < 0xc0)
    (h3 : 0x80 ≤ b3.toNat ∧ b3.toNat < 0xc0) :
    Spells [b, b1, b2, b3]
      (.ofNat (b.toNat % 8 * 262144 + tail b1 * 4096 + tail b2 * 64 + tail b3)) := by
  obtain ⟨ht, -, -, h0, h4⟩ := secondOk_bounds h1
  obtain ⟨n, he⟩ : ∃ n, n = b.toNat % 8 * 262144 + tail b1 * 4096 + tail b2 * 64 + tail b3 := ⟨_, rfl⟩
  rw [← he]
  simp only [tail] at he
  have hn : n < 0x110000 := by omega
  have h80 : ¬ n < 0x80 := by omega
  have h800 : ¬ n < 0x800 := by omega
  have h10000 : ¬ n < 0x10000 := by omega
  refine ⟨?_, ?_⟩
  · simp only [encodePoint, CodePoint.ofNat, hn, h80, h800, h10000, ↓reduceIte, ↓reduceDIte]
    rw [ofNat_eq (b := b) (by omega), ofNat_eq (b := b1) (by omega), ofNat_eq (b := b2) (by omega),
      ofNat_eq (b := b3) (by omega)]
  · simp [CodePoint.isSurrogate, CodePoint.ofNat, hn]
    omega

/-- A segment that is a code point takes exactly the bytes of that code point. -/
theorem segmentAt_point {b : UInt8} {r : Bytes} {c : CodePoint} {n : Nat}
    (h : segmentAt b r = (.point c, n)) : Spells (b :: r.take n) c ∧ n ≤ r.length := by
  unfold segmentAt at h
  split at h
  · rename_i h1
    simp only [Prod.mk.injEq, Segment.point.injEq] at h
    obtain ⟨rfl, rfl⟩ := h
    rw [UInt8.lt_iff_toNat_lt] at h1
    exact ⟨spells_one h1, Nat.zero_le _⟩
  split at h
  · cases h
  rename_i h1 h2
  simp only [Bool.or_eq_true, decide_eq_true_eq, not_or, UInt8.lt_iff_toNat_lt,
    UInt8.le_iff_toNat_le] at h2
  obtain ⟨hlow, hhigh⟩ := h2
  have hlow : 0xc2 ≤ b.toNat := Nat.le_of_not_lt hlow
  have hhigh : b.toNat < 0xf5 := Nat.lt_of_not_le hhigh
  split at h
  · rename_i h3
    rw [UInt8.lt_iff_toNat_lt] at h3
    split at h
    · cases h
    · split at h
      · rename_i ht
        simp only [Prod.mk.injEq, Segment.point.injEq] at h
        obtain ⟨rfl, rfl⟩ := h
        exact ⟨spells_two hlow h3 ((isTail_iff _).mp ht), by simp⟩
      · cases h
  split at h
  · rename_i h3 h4
    have h3 : 0xe0 ≤ b.toNat := by
      rw [UInt8.lt_iff_toNat_lt] at h3
      exact Nat.le_of_not_lt h3
    rw [UInt8.lt_iff_toNat_lt] at h4
    split at h
    · cases h
    · split at h
      · cases h
      · rename_i hs
        split at h
        · cases h
        · split at h
          · rename_i ht
            simp only [Prod.mk.injEq, Segment.point.injEq] at h
            obtain ⟨rfl, rfl⟩ := h
            exact ⟨spells_three h3 h4 (by simpa using hs) ((isTail_iff _).mp ht), by simp⟩
          · cases h
  · rename_i h3 h4
    have h4 : 0xf0 ≤ b.toNat := by
      rw [UInt8.lt_iff_toNat_lt] at h4
      exact Nat.le_of_not_lt h4
    split at h
    · cases h
    · split at h
      · cases h
      · rename_i hs
        split at h
        · cases h
        · split at h
          · cases h
          · rename_i ht2
            split at h
            · cases h
            · split at h
              · rename_i ht3
                simp only [Prod.mk.injEq, Segment.point.injEq] at h
                obtain ⟨rfl, rfl⟩ := h
                exact ⟨spells_four h4 hhigh (by simpa using hs) ((isTail_iff _).mp (by simpa using ht2))
                  ((isTail_iff _).mp ht3), by simp⟩
              · cases h

def Encodable (t : Text) : Prop := ∀ c ∈ t, c.isSurrogate = false

instance (t : Text) : Decidable (Encodable t) := inferInstanceAs (Decidable (∀ c ∈ t, _))

theorem collect_ok {segments : List Segment} {position : Nat} {acc t : Text}
    (h : collect position acc segments = .ok t) :
    ∃ cs : Text, segments = cs.map Segment.point ∧ t = acc.reverse ++ cs := by
  induction segments generalizing position acc with
  | nil =>
    simp only [collect, Except.ok.injEq] at h
    exact ⟨[], rfl, by simp [h]⟩
  | cons s rest ih =>
    cases s with
    | point c =>
      obtain ⟨cs, hs, ht⟩ := ih h
      exact ⟨c :: cs, by simp [hs], by simp [ht]⟩
    | bad fault bytes => simp [collect] at h

theorem segmentsAfter_eq (n : Nat) (bytes : Bytes) : segmentsAfter n bytes = segments (bytes.drop n) := by
  induction bytes generalizing n with
  | nil => cases n <;> rfl
  | cons b r ih =>
    cases n with
    | zero => rfl
    | succ n => exact ih n

theorem segments_cons (b : UInt8) (r : Bytes) :
    segments (b :: r) = (segmentAt b r).1 :: segments (r.drop (segmentAt b r).2) := by
  rw [← segmentsAfter_eq]
  rfl

/-- Bytes that are cut into code points are what these are encoded to. -/
theorem segments_points {bytes : Bytes} {cs : Text} (h : segments bytes = cs.map Segment.point) :
    cs.flatMap encodePoint = bytes ∧ Encodable cs := by
  induction cs generalizing bytes with
  | nil =>
    cases bytes with
    | nil => exact ⟨rfl, by simp [Encodable]⟩
    | cons b r => simp [segments_cons] at h
  | cons c cs ih =>
    cases bytes with
    | nil => cases h
    | cons b r =>
      rw [segments_cons, List.map_cons, List.cons.injEq] at h
      obtain ⟨hc, hcs⟩ := h
      obtain ⟨⟨hb, hsurrogate⟩, -⟩ := segmentAt_point (n := (segmentAt b r).2) (Prod.ext hc rfl)
      obtain ⟨hr, hrest⟩ := ih hcs
      refine ⟨?_, ?_⟩
      · rw [List.flatMap_cons, hb, hr, List.cons_append, List.take_append_drop]
      · intro d hd
        rcases List.mem_cons.mp hd with rfl | hd
        · exact hsurrogate
        · exact hrest d hd

/-- What strict reading accepts is written back byte for byte. -/
theorem decode_ok {bytes : Bytes} {t : Text} (h : decode bytes = .ok t) :
    t.flatMap encodePoint = bytes ∧ Encodable t := by
  obtain ⟨cs, hs, rfl⟩ := collect_ok h
  exact segments_points hs

theorem collect_points (position : Nat) (acc cs : Text) :
    collect position acc (cs.map Segment.point) = .ok (acc.reverse ++ cs) := by
  induction cs generalizing position acc with
  | nil => simp [collect]
  | cons c cs ih =>
    rw [List.map_cons, collect, ih]
    simp

/-- A byte that starts a sequence of several bytes. -/
theorem starts_sequence {b : UInt8} (hb : 0xc2 ≤ b.toNat) (hb' : b.toNat < 0xf5) :
    ¬ b < 0x80 ∧ ¬ (b < 0xc2 || 0xf5 ≤ b) = true := by
  simp only [Bool.or_eq_true, decide_eq_true_eq, UInt8.lt_iff_toNat_lt, UInt8.le_iff_toNat_le]
  simp
  omega

theorem segmentAt_two {b b1 : UInt8} (hb : 0xc2 ≤ b.toNat) (hb' : b.toNat < 0xe0) (h1 : isTail b1 = true)
    (r : Bytes) : segmentAt b (b1 :: r) = (.point (.ofNat (b.toNat % 32 * 64 + tail b1)), 1) := by
  obtain ⟨h80, hstart⟩ := starts_sequence hb (by omega)
  have he0 : b < 0xe0 := UInt8.lt_iff_toNat_lt.mpr hb'
  unfold segmentAt
  rw [if_neg h80, if_neg hstart, if_pos he0]
  exact if_pos h1

theorem segmentAt_three {b b1 b2 : UInt8} (hb : 0xe0 ≤ b.toNat) (hb' : b.toNat < 0xf0) (h1 : secondOk b b1 = true)
    (h2 : isTail b2 = true) (r : Bytes) :
    segmentAt b (b1 :: b2 :: r) = (.point (.ofNat (b.toNat % 16 * 4096 + tail b1 * 64 + tail b2)), 2) := by
  obtain ⟨h80, hstart⟩ := starts_sequence (b := b) (by omega) (by omega)
  have he0 : ¬ b < 0xe0 := fun h => Nat.not_lt.mpr hb (UInt8.lt_iff_toNat_lt.mp h)
  have hf0 : b < 0xf0 := UInt8.lt_iff_toNat_lt.mpr hb'
  unfold segmentAt
  rw [if_neg h80, if_neg hstart, if_neg he0, if_pos hf0]
  simp only [h1, h2, Bool.not_true, Bool.false_eq_true, ↓reduceIte]

theorem segmentAt_four {b b1 b2 b3 : UInt8} (hb : 0xf0 ≤ b.toNat) (hb' : b.toNat < 0xf5) (h1 : secondOk b b1 = true)
    (h2 : isTail b2 = true) (h3 : isTail b3 = true) (r : Bytes) :
    segmentAt b (b1 :: b2 :: b3 :: r) =
      (.point (.ofNat (b.toNat % 8 * 262144 + tail b1 * 4096 + tail b2 * 64 + tail b3)), 3) := by
  obtain ⟨h80, hstart⟩ := starts_sequence (b := b) (by omega) hb'
  have he0 : ¬ b < 0xe0 := fun h => by
    have hlt : b.toNat < 0xe0 := UInt8.lt_iff_toNat_lt.mp h
    omega
  have hf0 : ¬ b < 0xf0 := fun h => Nat.not_lt.mpr hb (UInt8.lt_iff_toNat_lt.mp h)
  unfold segmentAt
  rw [if_neg h80, if_neg hstart, if_neg he0, if_neg hf0]
  simp only [h1, h2, h3, Bool.not_true, Bool.false_eq_true, ↓reduceIte]

theorem toNat_byte {n : Nat} (h : n < 256) : (UInt8.ofNat n).toNat = n := by
  rw [UInt8.toNat_ofNat']
  omega

/-- A byte that carries six bits. -/
theorem isTail_byte (n : Nat) : isTail (.ofNat (0x80 + n % 64)) = true ∧ tail (.ofNat (0x80 + n % 64)) = n % 64 := by
  have hbyte : (UInt8.ofNat (0x80 + n % 64)).toNat = 0x80 + n % 64 := toNat_byte (by omega)
  rw [isTail_iff, tail, hbyte]
  omega

/-- A second byte in range is accepted. -/
theorem secondOk_of_bounds {b b1 : UInt8} (ht : isTail b1 = true) (h0 : b.toNat = 0xe0 → 0xa0 ≤ b1.toNat)
    (hd : b.toNat = 0xed → b1.toNat < 0xa0) (hf : b.toNat = 0xf0 → 0x90 ≤ b1.toNat)
    (h4 : b.toNat = 0xf4 → b1.toNat < 0x90) : secondOk b b1 = true := by
  simp only [secondOk, ht, Bool.true_and, ← UInt8.toNat_inj, UInt8.le_iff_toNat_le, UInt8.lt_iff_toNat_lt]
  split
  · rename_i hb
    exact decide_eq_true (h0 hb)
  split
  · rename_i hb
    exact decide_eq_true (hd hb)
  split
  · rename_i hb
    exact decide_eq_true (hf hb)
  split
  · rename_i hb
    exact decide_eq_true (h4 hb)
  · rfl

theorem ofNat_of_eq {n : Nat} {c : CodePoint} (h : n = c.val) : CodePoint.ofNat n = c := by
  rw [h, CodePoint.ofNat, dif_pos c.lt]

/-- The bytes of a code point are read as that code point, whatever follows them. -/
theorem segments_encodePoint {c : CodePoint} (hc : c.isSurrogate = false) (r : Bytes) :
    segments (encodePoint c ++ r) = .point c :: segments r := by
  have hlt := c.lt
  have hsurrogate : ¬ (0xd800 ≤ c.val ∧ c.val < 0xe000) := by simpa [CodePoint.isSurrogate] using hc
  obtain ⟨ht0, hv0⟩ := isTail_byte c.val
  obtain ⟨ht1, hv1⟩ := isTail_byte (c.val / 64)
  obtain ⟨ht2, hv2⟩ := isTail_byte (c.val / 4096)
  have hsecond (n : Nat) : (UInt8.ofNat (0x80 + n % 64)).toNat = 0x80 + n % 64 := toNat_byte (by omega)
  unfold encodePoint
  dsimp only
  split
  · rename_i h
    have hbyte : (UInt8.ofNat c.val).toNat = c.val := toNat_byte (by omega)
    have hone : UInt8.ofNat c.val < 0x80 := UInt8.lt_iff_toNat_lt.mpr (by rw [hbyte]; exact h)
    have hat : segmentAt (UInt8.ofNat c.val) r = (.point c, 0) := by
      unfold segmentAt
      rw [if_pos hone, hbyte, ofNat_of_eq rfl]
    rw [List.singleton_append, segments_cons, hat, List.drop_zero]
  split
  · have hbyte : (UInt8.ofNat (0xc0 + c.val / 64)).toNat = 0xc0 + c.val / 64 := toNat_byte (by omega)
    have hat := segmentAt_two (b := .ofNat (0xc0 + c.val / 64)) (by omega) (by omega) ht0 r
    rw [hbyte, hv0, ofNat_of_eq (c := c) (by omega)] at hat
    rw [List.cons_append, List.singleton_append, segments_cons, hat, List.drop_one, List.tail_cons]
  split
  · have hbyte : (UInt8.ofNat (0xe0 + c.val / 4096)).toNat = 0xe0 + c.val / 4096 := toNat_byte (by omega)
    have hok : secondOk (.ofNat (0xe0 + c.val / 4096)) (.ofNat (0x80 + c.val / 64 % 64)) = true := by
      apply secondOk_of_bounds ht1 <;> rw [hbyte, hsecond] <;> omega
    have hat := segmentAt_three (by omega) (by omega) hok ht0 r
    rw [hbyte, hv0, hv1, ofNat_of_eq (c := c) (by omega)] at hat
    rw [List.cons_append, List.cons_append, List.singleton_append, segments_cons, hat]
    rfl
  · have hbyte : (UInt8.ofNat (0xf0 + c.val / 262144)).toNat = 0xf0 + c.val / 262144 := toNat_byte (by omega)
    have hok : secondOk (.ofNat (0xf0 + c.val / 262144)) (.ofNat (0x80 + c.val / 4096 % 64)) = true := by
      apply secondOk_of_bounds ht2 <;> rw [hbyte, hsecond] <;> omega
    have hat := segmentAt_four (by omega) (by omega) hok ht1 ht0 r
    rw [hbyte, hv0, hv1, hv2, ofNat_of_eq (c := c) (by omega)] at hat
    rw [List.cons_append, List.cons_append, List.cons_append, List.singleton_append, segments_cons, hat]
    rfl

theorem segments_encode {t : Text} (h : Encodable t) : segments (t.flatMap encodePoint) = t.map Segment.point := by
  induction t with
  | nil => rfl
  | cons c t ih =>
    obtain ⟨hc, ht⟩ := List.forall_mem_cons.mp h
    rw [List.flatMap_cons, segments_encodePoint hc, ih ht, List.map_cons]

/-- A text that can be written is read back, by strict and by lossy reading. -/
theorem decode_encode {t : Text} (h : Encodable t) : decode (t.flatMap encodePoint) = .ok t := by
  rw [decode, segments_encode h, collect_points]
  rfl

theorem decodeLossy_of_decode {bytes : Bytes} {t : Text} (h : decode bytes = .ok t) : decodeLossy bytes = t := by
  obtain ⟨cs, hs, rfl⟩ := collect_ok h
  rw [decodeLossy, hs, List.map_map]
  exact List.map_id t

/-- ASCII bytes are read as the text that they were written from. -/
theorem decode_ascii {t : Text} (h : ∀ c ∈ t, c.val < 128) : decode (t.flatMap encodePoint) = .ok t := by
  refine decode_encode fun c hc => ?_
  have hlt := h c hc
  simp only [CodePoint.isSurrogate, Bool.and_eq_false_iff, decide_eq_false_iff_not]
  omega

theorem encode_ok {t : Text} {bytes : Bytes} (h : encode t = .ok bytes) :
    bytes = t.flatMap encodePoint := by
  unfold encode at h
  split at h
  · exact (Except.ok.inj h).symm
  · cases h

/-- A code point below 128 is its own byte, and no other code point has that byte. -/
theorem mem_encodePoint_ascii {c : CodePoint} {n : Nat} (hn : n < 0x80) :
    UInt8.ofNat n ∈ encodePoint c ↔ c.val = n := by
  have hlt := c.lt
  have hsame (m : Nat) (hm : m < 256) : UInt8.ofNat n = UInt8.ofNat m ↔ n = m := by
    rw [← UInt8.toNat_inj]
    simp [Nat.mod_eq_of_lt hm, Nat.mod_eq_of_lt (show n < 256 by omega)]
  unfold encodePoint
  dsimp only
  split
  · rw [List.mem_singleton, hsame _ (by omega)]
    exact eq_comm
  split
  · simp only [List.mem_cons, List.not_mem_nil, or_false]
    rw [hsame _ (by omega), hsame _ (by omega)]
    omega
  split
  · simp only [List.mem_cons, List.not_mem_nil, or_false]
    rw [hsame _ (by omega), hsame _ (by omega), hsame _ (by omega)]
    omega
  · simp only [List.mem_cons, List.not_mem_nil, or_false]
    rw [hsame _ (by omega), hsame _ (by omega), hsame _ (by omega), hsame _ (by omega)]
    omega

theorem mem_flatMap_ascii {t : Text} {n : Nat} (hn : n < 0x80) :
    UInt8.ofNat n ∈ t.flatMap encodePoint ↔ ∃ c ∈ t, c.val = n := by
  rw [List.mem_flatMap]
  constructor
  · rintro ⟨c, hc, hm⟩
    exact ⟨c, hc, (mem_encodePoint_ascii hn).mp hm⟩
  · rintro ⟨c, hc, he⟩
    exact ⟨c, hc, (mem_encodePoint_ascii hn).mpr he⟩

/-- Line ends in one form have no carriage return. -/
theorem normalizeNewlines_no_return (t : Text) : ∀ c ∈ Text.normalizeNewlines t, c.val ≠ 13 := by
  have hreturn {c : CodePoint} (hc : ¬ c = '\r') : c.val ≠ 13 := by
    intro hv
    apply hc
    rw [CodePoint.mk.injEq]
    exact hv
  have hnewline : Text.newline.val ≠ 13 := by decide
  induction t using Text.normalizeNewlines.induct with
  | case1 => simp [Text.normalizeNewlines]
  | case2 c =>
    intro x hx
    simp only [Text.normalizeNewlines, List.mem_singleton] at hx
    subst hx
    split
    · exact hnewline
    · rename_i hc
      exact hreturn hc
  | case3 r ih =>
    simp only [Text.normalizeNewlines, ↓reduceIte]
    intro x hx
    rcases List.mem_cons.mp hx with rfl | hx
    · exact hnewline
    · exact ih x hx
  | case4 d r hd ih =>
    simp only [Text.normalizeNewlines, hd, ↓reduceIte]
    intro x hx
    rcases List.mem_cons.mp hx with rfl | hx
    · exact hnewline
    · exact ih x hx
  | case5 c d r hc ih =>
    simp only [Text.normalizeNewlines, hc, ↓reduceIte]
    intro x hx
    rcases List.mem_cons.mp hx with rfl | hx
    · exact hreturn hc
    · exact ih x hx

theorem normalizeNewlines_id {t : Text} (h : ∀ c ∈ t, c.val ≠ 13) : Text.normalizeNewlines t = t := by
  induction t using Text.normalizeNewlines.induct with
  | case1 => rfl
  | case2 c =>
    have hc : ¬ c = '\r' := fun he => h c (by simp) (by rw [he]; rfl)
    simp [Text.normalizeNewlines, hc]
  | case3 r => exact absurd rfl (h '\r' (by simp))
  | case4 d r => exact absurd rfl (h '\r' (by simp))
  | case5 c d r hc ih =>
    simp only [Text.normalizeNewlines, hc, ↓reduceIte]
    rw [ih fun x hx => h x (List.mem_cons_of_mem _ hx)]

/-- Bytes that were read with unified line ends are written back just if they hold no carriage return. -/
theorem written_back_iff {bytes written : Bytes} {t : Text} (hd : decode bytes = .ok t)
    (he : encode (Text.normalizeNewlines t) = .ok written) : written = bytes ↔ 13 ∉ bytes := by
  obtain ⟨hbytes, -⟩ := decode_ok hd
  have hwritten := encode_ok he
  constructor
  · rintro rfl hm
    rw [hwritten] at hm
    obtain ⟨c, hc, hv⟩ := (mem_flatMap_ascii (n := 13) (by decide)).mp hm
    exact normalizeNewlines_no_return t c hc hv
  · intro hm
    have hid : Text.normalizeNewlines t = t := by
      apply normalizeNewlines_id
      intro c hc hv
      apply hm
      rw [← hbytes]
      exact (mem_flatMap_ascii (n := 13) (by decide)).mpr ⟨c, hc, hv⟩
    rw [hwritten, hid, hbytes]

end CodeAgent.Utf8
