import CodeAgent.Source.Lexer
import CodeAgent.Proofs.Source.Reader

namespace CodeAgent.Source.Lexer

/-- What is left after something without a line end was taken from the front of a text. -/
def Beside (cs rest : List Char) : Prop := ∃ taken, cs = taken ++ rest ∧ '\n' ∉ taken

namespace Beside

variable {cs rest rest' : List Char} {c : Char}

theorem refl (cs : List Char) : Beside cs cs := ⟨[], rfl, by simp⟩

theorem trans (h : Beside cs rest) (h' : Beside rest rest') : Beside cs rest' := by
  obtain ⟨taken, rfl, hn⟩ := h
  obtain ⟨taken', rfl, hn'⟩ := h'
  refine ⟨taken ++ taken', by simp, ?_⟩
  rw [List.mem_append]
  exact fun hm => hm.elim hn hn'

theorem cons (hc : c ≠ '\n') (h : Beside cs rest) : Beside (c :: cs) rest := by
  obtain ⟨taken, rfl, hn⟩ := h
  exact ⟨c :: taken, rfl, by simpa using ⟨hc.symm, hn⟩⟩

theorem dropWhile {p : Char → Bool} (hp : p '\n' = false) (cs : List Char) :
    Beside cs (cs.dropWhile p) := by
  refine ⟨cs.takeWhile p, List.takeWhile_append_dropWhile.symm, fun hm => ?_⟩
  have hnewline : p '\n' = true := List.all_eq_true.mp List.all_takeWhile _ hm
  rw [hp] at hnewline
  cases hnewline

end Beside

end CodeAgent.Source.Lexer

namespace CodeAgent.Source.Number

open Lexer (Beside)

variable {cs rest : List Char} {imaginary : Bool} {isDigit : Char → Bool}

/-- A class of characters without the line end. -/
theorem ne_newline (hd : isDigit '\n' = false) {c : Char} (hc : isDigit c = true) : c ≠ '\n' := by
  rintro rfl
  rw [hd] at hc
  cases hc

theorem groups_beside (hd : isDigit '\n' = false) (h : groups isDigit cs = some rest) :
    Beside cs rest := by
  fun_induction groups isDigit cs with
  | case1 => cases h
  | case2 => cases h
  | case3 c hc r ih => exact ((ih h).cons (by decide)).cons (ne_newline hd (by simpa using hc))
  | case4 c hc d r _ hc' ih => exact (ih h).cons (ne_newline hd (by simpa using hc))
  | case5 c hc d r _ _ =>
    cases h
    exact (Beside.refl _).cons (ne_newline hd (by simpa using hc))
  | case6 c hc =>
    cases h
    exact (Beside.refl _).cons (ne_newline hd (by simpa using hc))

theorem based_beside (hd : isDigit '\n' = false) (h : based isDigit cs = some rest) : Beside cs rest := by
  unfold based at h
  split at h
  · exact (groups_beside hd h).cons (by decide)
  · exact groups_beside hd h

theorem ended_eq (h : ended cs = some rest) : cs = rest := by
  unfold ended at h
  split at h
  · exact Option.some.inj h
  · cases h

/-- The suffix of a number stays on its line. -/
theorem suffix_beside (h : suffix cs = some (imaginary, rest)) : Beside cs rest := by
  unfold suffix at h
  split at h
  · rename_i c r
    split at h
    · rename_i hc
      obtain ⟨_, he, hr⟩ := Option.map_eq_some_iff.mp h
      cases hr
      rw [← ended_eq he]
      refine (Beside.refl r).cons ?_
      rintro rfl
      exact absurd hc (by decide)
    · obtain ⟨_, he, hr⟩ := Option.map_eq_some_iff.mp h
      cases hr
      rw [← ended_eq he]
      exact Beside.refl _
  · cases h
    exact Beside.refl _

theorem digits_suffix_beside {r : List Char}
    (h : (groups Char.isDigit r).bind suffix = some (imaginary, rest)) : Beside r rest := by
  obtain ⟨r', hg, hs⟩ := Option.bind_eq_some_iff.mp h
  exact (groups_beside (by decide) hg).trans (suffix_beside hs)

/-- The exponent of a number stays on its line. -/
theorem exponent_beside (h : exponent cs = some (imaginary, rest)) : Beside cs rest := by
  have hended {r : List Char} (h : (ended r).map (false, ·) = some (imaginary, rest)) : Beside r rest := by
    obtain ⟨_, he, hr⟩ := Option.map_eq_some_iff.mp h
    cases hr
    rw [← ended_eq he]
    exact Beside.refl r
  unfold exponent at h
  split at h
  · rename_i e r
    split at h
    · rename_i he
      have hmark : e ≠ '\n' := by
        rintro rfl
        exact absurd he (by decide)
      split at h
      · rename_i s r'
        split at h
        · rename_i hs
          refine ((digits_suffix_beside h).cons ?_).cons hmark
          rintro rfl
          exact absurd hs (by decide)
        split at h
        · exact (digits_suffix_beside h).cons hmark
        · exact hended h
      · exact hended h
    · exact suffix_beside h
  · exact suffix_beside h

theorem fraction_beside (h : fraction cs = some (imaginary, rest)) : Beside cs rest := by
  unfold fraction at h
  split at h
  · split at h
    · obtain ⟨r, hg, he⟩ := Option.bind_eq_some_iff.mp h
      exact (groups_beside (by decide) hg).trans (exponent_beside he)
    · exact exponent_beside h
  · exact exponent_beside h

/-- A decimal number stays on its line. -/
theorem decimal_beside (h : decimal cs = some (imaginary, rest)) : Beside cs rest := by
  unfold decimal at h
  obtain ⟨r, hg, h⟩ := Option.bind_eq_some_iff.mp h
  refine (groups_beside (by decide) hg).trans ?_
  extract_lets wholeOk at h
  split at h
  · exact (fraction_beside h).cons (by decide)
  · obtain ⟨⟨_, _⟩, he, h⟩ := Option.bind_eq_some_iff.mp h
    dsimp only at h
    split at h
    · cases h
      exact exponent_beside he
    · cases h
  · split at h
    · cases h
      exact Beside.refl []
    · cases h

/-- A number stands on one line. -/
theorem scan_beside (h : scan cs = some (imaginary, rest)) : Beside cs rest := by
  unfold scan at h
  extract_lets other at h
  have hother {isDigit : Char → Bool} {c : Char} {r : List Char} (hd : isDigit '\n' = false)
      (hc : c ≠ '\n') (h : other isDigit r = some (imaginary, rest)) : Beside ('0' :: c :: r) rest := by
    obtain ⟨r', hb, h⟩ := Option.bind_eq_some_iff.mp h
    split at h
    · cases h
    obtain ⟨_, he, hr⟩ := Option.map_eq_some_iff.mp h
    cases hr
    rw [← ended_eq he]
    exact ((based_beside hd hb).cons hc).cons (by decide)
  split at h
  · exact (fraction_beside h).cons (by decide)
  · rename_i c r
    split at h
    · rename_i hc
      exact hother (by decide) (by rintro rfl; exact absurd hc (by decide)) h
    split at h
    · rename_i hc
      exact hother (by decide) (by rintro rfl; exact absurd hc (by decide)) h
    split at h
    · rename_i hc
      exact hother (by decide) (by rintro rfl; exact absurd hc (by decide)) h
    · exact decimal_beside h
  · exact decimal_beside h

end CodeAgent.Source.Number

namespace CodeAgent.Source.Lexer

open Number (isNameStart isNameChar)

theorem countLines_cons (c : Char) (cs : List Char) :
    countLines (c :: cs) = (if c = '\n' then 1 else 0) + countLines cs := by
  unfold countLines
  split
  · rename_i hc
    rw [List.filter_cons_of_pos (by simpa using hc), List.length_cons, Nat.add_comm]
  · rename_i hc
    rw [List.filter_cons_of_neg (by simpa using hc), Nat.zero_add]

theorem countLines_append (cs ds : List Char) : countLines (cs ++ ds) = countLines cs + countLines ds := by
  simp [countLines]

theorem countLines_eq_zero {cs : List Char} (h : '\n' ∉ cs) : countLines cs = 0 := by
  unfold countLines
  rw [List.length_eq_zero_iff, List.filter_eq_nil_iff]
  intro c hc
  simp only [decide_eq_true_eq]
  rintro rfl
  exact h hc

def Ended (cs : List Char) : Prop := ∀ c, cs.getLast? = some c → c = '\n'

theorem Ended.of_append {taken rest : List Char} (h : Ended (taken ++ rest)) : Ended rest := by
  intro c hc
  exact h c (by rw [List.getLast?_append, hc, Option.some_or])

theorem Ended.cons {c : Char} {cs : List Char} (h : Ended (c :: cs)) : Ended cs :=
  @Ended.of_append [c] cs h

theorem Ended.countLines_pos {cs : List Char} (h : Ended cs) (hne : cs ≠ []) : 1 ≤ countLines cs := by
  have hlast : '\n' ∈ cs := by
    rw [← h (cs.getLast hne) (List.getLast?_eq_some_getLast hne)]
    exact List.getLast_mem hne
  unfold countLines
  rw [Nat.one_le_iff_ne_zero, Ne, List.length_eq_zero_iff, List.filter_eq_nil_iff]
  exact fun hall => hall _ hlast (by decide)

/-- Behind a character that does not end a line something comes. -/
theorem Ended.behind_ne_nil {taken rest : List Char} {c : Char} (h : Ended (taken ++ c :: rest))
    (hc : c ≠ '\n') : rest ≠ [] := by
  rintro rfl
  exact hc (h c (by simp))

/-- The line and the line ends that are left add up to `total`, the tokens so far stand in order, their names are
identifiers, and only layout can stand on the line behind the last one. -/
structure Sound (total : Nat) (rest : List Char) (s : State) : Prop where
  line : 1 ≤ s.line
  sum : s.line + countLines rest = total
  ended : Ended rest
  sorted : s.tokens.Pairwise fun u t => t.endLine ≤ u.line
  spans : ∀ t ∈ s.tokens, 1 ≤ t.line ∧ t.line ≤ t.endLine
  behind : ∀ t ∈ s.tokens, t.endLine ≤ s.line
  inside : ∀ t ∈ s.tokens, t.kind.isLayout = false → t.endLine < total
  spelled : ∀ t ∈ s.tokens, t.kind.IsSpelled

section
variable {total : Nat} {cs rest : List Char} {s s' : State}

/-- Brackets and indentations do not matter. -/
theorem Sound.congr (h : Sound total rest s) (hl : s'.line = s.line) (ht : s'.tokens = s.tokens) :
    Sound total rest s' := by
  obtain ⟨h1, h2, h3, h4, h5, h6, h7, h8⟩ := h
  rw [← hl] at h1 h2 h6
  rw [← ht] at h4 h5 h6 h7 h8
  exact ⟨h1, h2, h3, h4, h5, h6, h7, h8⟩

/-- What holds no token is left out. -/
theorem Sound.skip {taken : List Char} (h : Sound total (taken ++ rest) s)
    (hl : s'.line = s.line + countLines taken) (ht : s'.tokens = s.tokens) : Sound total rest s' := by
  refine ⟨by rw [hl]; exact Nat.le_add_right_of_le h.line, ?_, h.ended.of_append, ht ▸ h.sorted,
    ht ▸ h.spans, ?_, ht ▸ h.inside, ht ▸ h.spelled⟩
  · rw [hl, Nat.add_assoc, ← countLines_append]
    exact h.sum
  · rw [ht, hl]
    exact fun t hm => Nat.le_add_right_of_le (h.behind t hm)

/-- A token that takes what stands before `rest`. -/
theorem Sound.push {taken : List Char} {kind : TokenKind} {endLine : Nat}
    (h : Sound total (taken ++ rest) s) (hl : endLine = s.line + countLines taken)
    (hk : kind.isLayout = false → endLine < total) (hs : kind.IsSpelled) :
    Sound total rest (s.push kind endLine) := by
  have hle : s.line ≤ endLine := by omega
  refine ⟨Nat.le_trans h.line hle, ?_, h.ended.of_append, ?_, ?_, ?_, ?_, ?_⟩
  · change endLine + countLines rest = total
    rw [hl, Nat.add_assoc, ← countLines_append]
    exact h.sum
  · exact List.pairwise_cons.mpr ⟨h.behind, h.sorted⟩
  · exact List.forall_mem_cons.mpr ⟨⟨h.line, hle⟩, h.spans⟩
  · exact List.forall_mem_cons.mpr ⟨Nat.le_refl _, fun t ht => Nat.le_trans (h.behind t ht) hle⟩
  · exact List.forall_mem_cons.mpr ⟨hk, h.inside⟩
  · exact List.forall_mem_cons.mpr ⟨hs, h.spelled⟩

/-- A token of the layout takes nothing. -/
theorem Sound.push_layout {kind : TokenKind} (h : Sound total rest s) (hk : kind.isLayout = true) :
    Sound total rest (s.push kind s.line) := by
  have hnone : Sound total ([] ++ rest) s := h
  refine hnone.push rfl (fun hn => ?_) (TokenKind.isSpelled_of_isLayout hk)
  rw [hk] at hn
  cases hn

/-- A token on one line. -/
theorem Sound.push_beside {kind : TokenKind} (h : Sound total cs s) (hb : Beside cs rest)
    (hne : cs ≠ []) (hs : kind.IsSpelled) : Sound total rest (s.push kind s.line) := by
  have hpos : 1 ≤ countLines cs := h.ended.countLines_pos hne
  have hsum := h.sum
  obtain ⟨taken, rfl, hn⟩ := hb
  exact h.push (by rw [countLines_eq_zero hn, Nat.add_zero]) (fun _ => by omega) hs

/-- Closing blocks keeps the lines in order. -/
theorem dedentTo_sound {width plain fuel : Nat} (h : Sound total rest s)
    (hd : dedentTo width plain fuel s = some s') : Sound total rest s' := by
  induction fuel generalizing s with
  | zero => cases hd
  | succ n ih =>
    unfold dedentTo at hd
    split at hd
    · rename_i outer _
      split at hd
      · have houter : Sound total rest { s with indents := outer } := h.congr rfl rfl
        exact ih (houter.push_layout rfl) hd
      · split at hd
        · cases hd
          exact h
        · cases hd
    · cases hd

/-- Opening a block keeps the lines in order. -/
theorem indentTo_sound {width plain : Nat} (h : Sound total rest s)
    (hi : indentTo width plain s = some s') : Sound total rest s' := by
  unfold indentTo at hi
  split at hi
  · split at hi
    · split at hi
      · cases hi
        exact h
      · cases hi
    · split at hi
      · split at hi
        · cases hi
        · cases hi
          have hinner : Sound total rest { s with indents := (width, plain) :: s.indents } :=
            h.congr rfl rfl
          exact hinner.push_layout rfl
      · exact dedentTo_sound h hi
  · cases hi

/-- Every line end in a margin is joined. -/
theorem margin_joined {m m' : Margin} (h : margin m cs = some (m', rest)) :
    ∃ taken, cs = taken ++ rest ∧ m'.joined = m.joined + countLines taken := by
  fun_induction margin m cs with
  | case1 m =>
    cases h
    exact ⟨[], rfl, rfl⟩
  | case2 m c =>
    cases h
    exact ⟨[], rfl, rfl⟩
  | case3 m d r ih =>
    obtain ⟨taken, hcs, hj⟩ := ih h
    exact ⟨' ' :: taken, by rw [hcs, List.cons_append], by rw [hj, countLines_cons]; simp⟩
  | case4 m d r _ ih =>
    obtain ⟨taken, hcs, hj⟩ := ih h
    exact ⟨'\t' :: taken, by rw [hcs, List.cons_append], by rw [hj, countLines_cons]; simp⟩
  | case5 m d r _ _ ih =>
    obtain ⟨taken, hcs, hj⟩ := ih h
    exact ⟨'\x0c' :: taken, by rw [hcs, List.cons_append], by rw [hj, countLines_cons]; simp⟩
  | case6 m d r hd _ _ _ ih =>
    obtain ⟨taken, hcs, hj⟩ := ih h
    obtain rfl : d = '\n' := by
      rw [Bool.and_eq_true, decide_eq_true_eq] at hd
      exact hd.1
    refine ⟨'\\' :: '\n' :: taken, by rw [hcs, List.cons_append, List.cons_append], ?_⟩
    rw [hj, countLines_cons, countLines_cons]
    simp only [Char.reduceEq, ↓reduceIte, Nat.zero_add]
    omega
  | case7 => cases h
  | case8 m c d r =>
    cases h
    exact ⟨[], rfl, rfl⟩

/-- The margin of a line keeps the lines in order. -/
theorem startLine_sound {blank : Bool} (h : Sound total cs s)
    (hs : startLine cs s = some (s', rest, blank)) : Sound total rest s' := by
  unfold startLine at hs
  obtain ⟨⟨m, margined⟩, hm, hrest⟩ := Option.bind_eq_some_iff.mp hs
  clear hs
  obtain ⟨taken, rfl, hj⟩ := margin_joined hm
  have hjoined : m.joined = countLines taken := by simpa using hj
  have hstart : Sound total margined { s with line := s.line + m.joined, atLineStart := false } :=
    h.skip (by rw [hjoined]) rfl
  dsimp only at hrest
  split at hrest
  · cases hrest
    exact hstart
  · split at hrest
    · cases hrest
      exact hstart
    split at hrest
    · cases hrest
      exact hstart
    · obtain ⟨s'', hi, hlast⟩ := Option.bind_eq_some_iff.mp hrest
      cases hlast
      exact indentTo_sound hstart hi

/-- A string body is followed by its closing quotes. -/
theorem stringBody_closed {quote : Char} {triple : Bool} {acc body : List Char}
    (h : stringBody quote triple acc cs = some (body, rest)) :
    ∃ n, acc.reverse ++ cs = body ++ List.replicate n quote ++ quote :: rest := by
  fun_induction stringBody quote triple acc cs with
  | case1 => cases h
  | case2 acc c hc =>
    cases h
    obtain rfl : c = quote := by
      rw [Bool.and_eq_true, decide_eq_true_eq] at hc
      exact hc.1
    exact ⟨0, by simp⟩
  | case3 => cases h
  | case4 acc d r ih =>
    obtain ⟨n, hn⟩ := ih h
    exact ⟨n, by rw [← hn]; simp⟩
  | case5 acc d r =>
    cases h
    exact ⟨0, by simp⟩
  | case6 acc d _ c r hq =>
    cases h
    obtain ⟨rfl, rfl⟩ : d = quote ∧ c = quote := by
      simpa only [Bool.and_eq_true, decide_eq_true_eq] using hq
    exact ⟨2, by simp [List.replicate]⟩
  | case7 acc d _ c r _ _ ih =>
    obtain ⟨n, hn⟩ := ih h
    exact ⟨n, by rw [← hn]; simp⟩
  | case8 => cases h
  | case9 => cases h
  | case10 acc c d r _ _ _ ih =>
    obtain ⟨n, hn⟩ := ih h
    exact ⟨n, by rw [← hn]; simp⟩

/-- Operators stand on one line. -/
theorem operators_inline : ∀ op ∈ operators, '\n' ∉ op.toList ∧ op.toList ≠ [] := by decide

/-- An operator keeps the lines in order. -/
theorem operator_sound (h : Sound total cs s) (ho : operator cs s = some (s', rest)) :
    Sound total rest s' := by
  unfold operator at ho
  obtain ⟨op, hfind, hrest⟩ := Option.bind_eq_some_iff.mp ho
  obtain ⟨hn, hne⟩ := operators_inline op (List.mem_of_find?_eq_some hfind)
  have hpre : op.toList.isPrefixOf cs = true := List.find?_some (p := fun op : String => op.toList.isPrefixOf cs) hfind
  obtain ⟨left, hcs⟩ := List.isPrefixOf_iff_prefix.mp hpre
  have hleft : cs.drop op.length = left := by
    rw [← hcs, ← String.length_toList, List.drop_left]
  have hpushed : Sound total (cs.drop op.length) (s.push (.mark op) s.line) := by
    rw [hleft]
    refine h.push_beside ⟨op.toList, hcs.symm, hn⟩ ?_ trivial
    rw [← hcs]
    exact List.append_ne_nil_of_left_ne_nil hne left
  dsimp only at hrest
  split at hrest
  · split at hrest
    · split at hrest
      · cases hrest
      · cases hrest
        exact hpushed.congr rfl rfl
    · split at hrest
      · split at hrest
        · split at hrest
          · cases hrest
            exact hpushed.congr rfl rfl
          · cases hrest
        · cases hrest
      · cases hrest
        exact hpushed
  · cases hrest
    exact hpushed

theorem finish_ordered {tokens : List Token} (h : Sound total [] s) (hf : finish s = some tokens) :
    Cursor.Ordered (total - 1) ⟨tokens, 0⟩ := by
  unfold finish at hf
  split at hf
  · cases hf
  obtain ⟨s', hd, hlast⟩ := Option.bind_eq_some_iff.mp hf
  cases hlast
  have hstop : Sound total [] (s'.push .stop s'.line) := (dedentTo_sound h hd).push_layout rfl
  refine ⟨List.pairwise_reverse.mpr hstop.sorted, ?_, fun _ _ => Nat.zero_le _, ?_, ?_, Nat.zero_le _⟩
  · exact fun t ht => hstop.spans t (List.mem_reverse.mp ht)
  · intro t ht hk
    have hlt : t.endLine < total := hstop.inside t (List.mem_reverse.mp ht) hk
    exact Nat.le_sub_one_of_lt hlt
  · exact fun t ht => hstop.spelled t (List.mem_reverse.mp ht)

variable [Host]

/-- A string keeps the lines in order, over however many it goes. -/
theorem string_sound (letters : List Char) {quote : Char} (hl : '\n' ∉ letters) (hq : quote ≠ '\n')
    (h : Sound total (letters ++ quote :: cs) s)
    (hs : string letters quote cs s = some (s', rest)) : Sound total rest s' := by
  unfold string at hs
  obtain ⟨p, _, hbody⟩ := Option.bind_eq_some_iff.mp hs
  extract_lets token at hbody
  have hquotes (n : Nat) : countLines (List.replicate n quote) = 0 :=
    countLines_eq_zero fun hm => hq (List.eq_of_mem_replicate hm).symm
  have htoken {body left : List Char} {m n : Nat} (ht : token (body, left) = some (s', rest))
      (hcs : quote :: cs = List.replicate m quote ++ body ++ List.replicate n quote ++ quote :: left) :
      Sound total rest s' := by
    obtain ⟨embedded, _, hpush⟩ := Option.bind_eq_some_iff.mp ht
    cases hpush
    rw [hcs] at h
    have hended := h.ended
    have hbehind : 1 ≤ countLines rest := by
      rw [← List.append_assoc] at hended
      exact hended.of_append.cons.countLines_pos (hended.behind_ne_nil hq)
    have hlines : countLines (letters ++ (List.replicate m quote ++ body ++ List.replicate n quote ++ [quote])) =
        countLines body := by
      simp only [countLines_append, countLines_eq_zero hl, hquotes, Nat.zero_add, Nat.add_zero]
      exact Nat.add_eq_left.mpr (hquotes 1)
    have htaken : Sound total
        (letters ++ (List.replicate m quote ++ body ++ List.replicate n quote ++ [quote]) ++ rest) s := by
      simpa using h
    refine htaken.push (by rw [hlines]) (fun _ => ?_) trivial
    have hsum := htaken.sum
    rw [countLines_append, hlines] at hsum
    omega
  have hsingle (hb : (do let x ← stringBody quote false [] cs; token x) = some (s', rest)) :
      Sound total rest s' := by
    obtain ⟨⟨body, left⟩, hclosed, ht⟩ := Option.bind_eq_some_iff.mp hb
    obtain ⟨n, hn⟩ := stringBody_closed hclosed
    exact htoken (m := 1) ht (by simpa [List.replicate] using hn)
  split at hbody
  · split at hbody
    · rename_i hpair
      obtain ⟨⟨body, left⟩, hclosed, ht⟩ := Option.bind_eq_some_iff.mp hbody
      obtain ⟨n, hn⟩ := stringBody_closed hclosed
      rw [Bool.and_eq_true, decide_eq_true_eq, decide_eq_true_eq] at hpair
      obtain ⟨rfl, rfl⟩ := hpair
      exact htoken (m := 3) ht (by simpa [List.replicate] using hn)
    · exact hsingle hbody
  · exact hsingle hbody

/-- A word keeps the lines in order. -/
theorem word_sound (h : Sound total cs s) (hne : cs ≠ []) (hw : word cs s = some (s', rest)) :
    Sound total rest s' := by
  unfold word at hw
  extract_lets spelling left asString at hw
  have hname {kind : TokenKind} (hs : kind.IsSpelled) : Sound total left (s.push kind s.line) :=
    h.push_beside (Beside.dropWhile (by decide) cs) hne hs
  have hspelling : '\n' ∉ spelling :=
    fun hm => absurd (List.all_eq_true.mp List.all_takeWhile _ hm) (by decide)
  have hcs : spelling ++ left = cs := List.takeWhile_append_dropWhile
  have hquote {q : Char} {r : List Char} (hq : left = q :: r) (hs : asString.isSome) : q ≠ '\n' := by
    rintro rfl
    have hnone : asString = none := by
      unfold asString
      rw [hq]
      rfl
    rw [hnone] at hs
    cases hs
  clear_value asString left spelling
  split at hw
  · refine string_sound _ hspelling (hquote rfl rfl) ?_ hw
    rw [hcs]
    exact h
  · split at hw
    · cases hw
      exact hname trivial
    split at hw
    · rename_i hvalid
      cases hw
      exact hname hvalid
    · cases hw

/-- The tokens of a text are in the order of their lines. -/
theorem run_ordered {fuel : Nat} {blank : Bool} {tokens : List Token} (h : Sound total cs s)
    (hr : run fuel blank cs s = some tokens) : Cursor.Ordered (total - 1) ⟨tokens, 0⟩ := by
  induction fuel generalizing blank cs s with
  | zero => cases hr
  | succ n ih =>
    unfold run at hr
    split at hr
    · split at hr
      · cases hr
      · rename_i hs
        exact ih (startLine_sound h hs) hr
    · split at hr
      · exact finish_ordered h hr
      · rename_i c r
        have hskip {r' : List Char} (hb : Beside (c :: r) r') : Sound total r' s := by
          obtain ⟨taken, ht, hn⟩ := hb
          exact Sound.skip (ht ▸ h) (by rw [countLines_eq_zero hn, Nat.add_zero]) rfl
        have hline {s' : State} (hl : s'.line = s.line) (h' : Sound total (c :: r) s')
            (hc : c = '\n') : Sound total r { s' with line := s.line + 1, atLineStart := true } := by
          subst hc
          have hnewline : Sound total (['\n'] ++ r) s' := h'
          exact hnewline.skip (by rw [hl]; rfl) rfl
        split at hr
        · rename_i hgap
          refine ih (hskip ((Beside.refl r).cons ?_)) hr
          rintro rfl
          exact absurd hgap (by decide)
        split at hr
        · rename_i hc
          subst hc
          exact ih (hskip ((Beside.dropWhile (by decide) r).cons (by decide))) hr
        split at hr
        · rename_i hc
          refine ih ?_ hr
          split
          · exact hline rfl h hc
          · exact hline rfl (h.push_layout rfl) hc
        split at hr
        · rename_i hc
          subst hc
          split at hr
          · rename_i d r'
            have hjoin : Sound total (['\\', '\n'] ++ d :: r') s := h
            have hjoined : Sound total (d :: r') { s with line := s.line + 1 } := hjoin.skip rfl rfl
            exact ih hjoined hr
          · cases hr
        · extract_lets next at hr
          have hnext {s' : State} {rest : List Char} (hs : next = some (s', rest)) :
              Sound total rest s' := by
            unfold next at hs
            split at hs
            · exact word_sound h (List.cons_ne_nil c r) hs
            split at hs
            · obtain ⟨⟨imaginary, left⟩, hscan, hpush⟩ := Option.map_eq_some_iff.mp hs
              cases hpush
              exact h.push_beside (Number.scan_beside hscan) (List.cons_ne_nil c r) trivial
            split at hs
            · rename_i hquote
              refine string_sound [] (by simp) ?_ h hs
              rintro rfl
              exact absurd hquote (by decide)
            · exact operator_sound h hs
          clear_value next
          split at hr
          · cases hr
          · exact ih (hnext rfl) hr

end

/-- A text ends with a line end once its line ends have one form. -/
theorem normalize_ended (cs : List Char) : Ended (normalize cs) := by
  unfold normalize
  extract_lets ends
  clear_value ends
  intro c hc
  split at hc
  · cases hc
  · rename_i d hd
    split at hc
    · rename_i hn
      rw [hd] at hc
      cases hc
      exact hn
    · rw [List.getLast?_concat] at hc
      exact (Option.some.inj hc).symm

/-- Without carriage returns a text gets at most the end of its last line. -/
theorem normalize_countLines {cs : List Char} (h : '\r' ∉ cs) :
    countLines (normalize cs) ≤ countLines cs + 1 := by
  have hends (ds : List Char) (hr : '\r' ∉ ds) : normalize.lines ds = ds := by
    fun_induction normalize.lines ds with
    | case1 => rfl
    | case2 c =>
      rw [if_neg]
      rintro rfl
      exact hr (by simp)
    | case3 | case4 => exact absurd (by simp) hr
    | case5 c d r _ ih => rw [ih fun hm => hr (List.mem_cons_of_mem c hm)]
  unfold normalize
  rw [hends cs h]
  dsimp only
  split
  · exact Nat.zero_le _
  · split
    · exact Nat.le_succ _
    · rw [countLines_append]
      exact Nat.le_refl _

variable [Host]

/-- The tokens of a text stand in order on its lines. -/
theorem tokens_ordered {source : List Char} {tokens : List Token} (h : tokens? source = some tokens) :
    Cursor.Ordered (countLines (normalize source)) ⟨tokens, 0⟩ := by
  have hstart : Sound (1 + countLines (normalize source)) (normalize source) ⟨1, [(0, 0)], [], true, []⟩ :=
    ⟨Nat.le_refl 1, rfl, normalize_ended source, List.Pairwise.nil, by simp, by simp, by simp, by simp⟩
  have hordered := run_ordered hstart h
  rw [Nat.add_sub_cancel_left] at hordered
  exact hordered

end CodeAgent.Source.Lexer
