import CodeAgent.Text.Basic
import Mathlib.Data.List.TakeWhile
import Std.Data.String.ToNat

namespace CodeAgent.Text

variable {sep : CodePoint} {t : Text}

theorem splitOn_eq (sep : CodePoint) (t : Text) : splitOn sep t = List.splitOn sep t := by
  induction t with
  | nil => rfl
  | cons c r ih =>
    rw [List.splitOn_cons_eq_if_modifyHead, splitOn]
    by_cases hc : c = sep
    · rw [if_pos hc, if_pos (beq_iff_eq.mpr hc), ih]
    · rw [if_neg hc, if_neg (by simpa using hc), ih]
      cases hr : List.splitOn sep r with
      | nil => exact absurd hr (List.splitOn_ne_nil sep r)
      | cons l ls => rfl

theorem splitOn_ne_nil (sep : CodePoint) (t : Text) : splitOn sep t ≠ [] := by
  rw [splitOn_eq]
  exact List.splitOn_ne_nil sep t

theorem splitOn_joinWith {parts : List Text} (h : ∀ part ∈ parts, sep ∉ part) (hne : parts ≠ []) :
    splitOn sep (joinWith [sep] parts) = parts := by
  rw [splitOn_eq]
  exact List.splitOn_intercalate sep h hne

/-- What stands in a joined text stands in the separator or in a piece. -/
theorem mem_joinWith {between : Text} {c : CodePoint} {parts : List Text} (h : c ∈ joinWith between parts) :
    c ∈ between ∨ ∃ part ∈ parts, c ∈ part := by
  induction parts with
  | nil => cases h
  | cons part rest ih =>
    cases rest with
    | nil =>
      have hc : c ∈ part := by simpa [joinWith] using h
      exact Or.inr ⟨part, List.mem_cons_self, hc⟩
    | cons next rest =>
      rw [joinWith, List.intercalate_cons_cons, List.mem_append, List.mem_append] at h
      rcases h with (hc | hc) | hc
      · exact Or.inr ⟨part, List.mem_cons_self, hc⟩
      · exact Or.inl hc
      · rcases ih hc with hc | ⟨q, hq, hc⟩
        · exact Or.inl hc
        · exact Or.inr ⟨q, List.mem_cons_of_mem part hq, hc⟩

theorem subset_joinWith {part : Text} {parts : List Text} (h : part ∈ parts) :
    part ⊆ joinWith [sep] parts := by
  induction parts with
  | nil => cases h
  | cons first rest ih =>
    cases rest with
    | nil =>
      obtain rfl := List.mem_singleton.mp h
      simp [joinWith]
    | cons next rest =>
      rw [joinWith, List.intercalate_cons_cons]
      rcases List.mem_cons.mp h with rfl | h
      · exact fun c hc => List.mem_append_left _ (List.mem_append_left _ hc)
      · exact fun c hc => List.mem_append_right _ (ih h hc)

/-- No part of a text has the separator in it. -/
theorem not_mem_of_mem_splitOn {part : Text} (h : part ∈ splitOn sep t) : sep ∉ part := by
  induction t generalizing part with
  | nil =>
    rw [splitOn, List.mem_singleton] at h
    simp [h]
  | cons c r ih =>
    rw [splitOn] at h
    split at h
    · rcases List.mem_cons.mp h with rfl | h
      · exact List.not_mem_nil
      · exact ih h
    · rename_i hc
      split at h
      · rw [List.mem_singleton] at h
        simpa [h] using Ne.symm hc
      · rename_i l ls hs
        rcases List.mem_cons.mp h with rfl | h
        · have hl : sep ∉ l := ih (hs ▸ List.mem_cons_self)
          simpa using ⟨Ne.symm hc, hl⟩
        · exact ih (hs ▸ List.mem_cons_of_mem l h)

/-- A part has no other letters than the text. -/
theorem subset_of_mem_splitOn {part : Text} (h : part ∈ splitOn sep t) : part ⊆ t := by
  induction t generalizing part with
  | nil =>
    rw [splitOn, List.mem_singleton] at h
    simp [h]
  | cons c r ih =>
    rw [splitOn] at h
    split at h
    · rcases List.mem_cons.mp h with rfl | h
      · exact List.nil_subset _
      · exact List.subset_cons_of_subset c (ih h)
    · split at h
      · rename_i hs
        exact absurd hs (splitOn_ne_nil sep r)
      · rename_i l ls hs
        rcases List.mem_cons.mp h with rfl | h
        · exact List.cons_subset_cons c (ih (hs ▸ List.mem_cons_self))
        · exact List.subset_cons_of_subset c (ih (hs ▸ List.mem_cons_of_mem l h))

theorem splitOn_of_not_mem (h : sep ∉ t) : splitOn sep t = [t] := by
  have hone : splitOn sep (joinWith [sep] [t]) = [t] :=
    splitOn_joinWith (List.forall_mem_singleton.mpr h) (List.cons_ne_nil t [])
  rwa [joinWith, List.intercalate_singleton] at hone

/-- What has no separator in it goes to the last piece. -/
theorem splitOn_append {u : Text} (hu : sep ∉ u) (t : Text) :
    ∃ init last, splitOn sep t = init ++ [last] ∧ splitOn sep (t ++ u) = init ++ [last ++ u] := by
  induction t with
  | nil => exact ⟨[], [], rfl, splitOn_of_not_mem hu⟩
  | cons c r ih =>
    obtain ⟨init, last, h, h'⟩ := ih
    rw [List.cons_append, splitOn, splitOn, h, h']
    split
    · exact ⟨[] :: init, last, rfl, rfl⟩
    · cases init with
      | nil => exact ⟨[], c :: last, rfl, rfl⟩
      | cons l ls => exact ⟨(c :: l) :: ls, last, rfl, rfl⟩

theorem splitOn_append_sep (sep : CodePoint) (t u : Text) :
    splitOn sep (t ++ sep :: u) = splitOn sep t ++ splitOn sep u := by
  induction t with
  | nil => simp [splitOn]
  | cons c r ih =>
    rw [List.cons_append, splitOn, splitOn, ih]
    split
    · rfl
    · cases h : splitOn sep r with
      | nil => exact absurd h (splitOn_ne_nil sep r)
      | cons l ls => rfl

theorem length_splitOn (sep : CodePoint) (t : Text) :
    (splitOn sep t).length = List.count sep t + 1 := by
  induction t with
  | nil => rfl
  | cons c r ih =>
    rw [splitOn, List.count_cons]
    by_cases hc : c = sep
    · rw [if_pos hc, if_pos (beq_iff_eq.mpr hc), List.length_cons, ih]
    · rw [if_neg hc, if_neg (by simpa using hc), Nat.add_zero, ← ih]
      cases hr : splitOn sep r with
      | nil => exact absurd hr (splitOn_ne_nil sep r)
      | cons l ls => rfl

/-- The lines of joined lines are those lines. -/
theorem lines_unlines {ls : List Text} (h : ∀ l ∈ ls, newline ∉ l) (hne : ls ≠ []) :
    lines (unlines ls) = ls :=
  splitOn_joinWith h hne

theorem unlines_lines (t : Text) : unlines (lines t) = t := by
  rw [lines, splitOn_eq]
  exact List.intercalate_splitOn newline

/-- The lines of joined texts are the lines of each. -/
theorem lines_unlines_flatMap {ts : List Text} (hne : ts ≠ []) : lines (unlines ts) = ts.flatMap lines := by
  induction ts with
  | nil => exact absurd rfl hne
  | cons t ts ih =>
    cases ts with
    | nil => simp [unlines, joinWith]
    | cons u ts =>
      have hcons : unlines (t :: u :: ts) = t ++ newline :: unlines (u :: ts) := by
        simp [unlines, joinWith, List.intercalate_cons_cons]
      rw [hcons, lines, splitOn_append_sep, List.flatMap_cons, ← ih (List.cons_ne_nil u ts)]
      rfl

/-- Lines stay the lines that they are. -/
theorem flatMap_lines_of_no_newline {ls : List Text} (h : ∀ l ∈ ls, newline ∉ l) : ls.flatMap lines = ls := by
  induction ls with
  | nil => rfl
  | cons l ls ih =>
    obtain ⟨hl, hls⟩ := List.forall_mem_cons.mp h
    rw [List.flatMap_cons, ih hls, lines, splitOn_of_not_mem hl, List.singleton_append]

/-- A text is cut at its last separator in one way only. -/
theorem append_sep_inj {a b x y : Text} (hx : sep ∉ x) (hy : sep ∉ y)
    (h : a ++ sep :: x = b ++ sep :: y) : a = b ∧ x = y := by
  have hcut (u v : Text) (hv : sep ∉ v) : (u ++ sep :: v).reverse.takeWhile (· ≠ sep) = v.reverse := by
    have hall : ∀ c ∈ v.reverse, decide (c ≠ sep) = true := by
      intro c hc
      rw [decide_eq_true_eq]
      rintro rfl
      exact hv (List.mem_reverse.mp hc)
    rw [List.reverse_append, List.reverse_cons, List.append_assoc, List.takeWhile_append_of_pos hall]
    simp
  have hxy : x = y := by
    have he := hcut a x hx
    rw [h, hcut b y hy] at he
    exact (List.reverse_inj.mp he).symm
  subst hxy
  exact ⟨List.append_cancel_right h, rfl⟩

/-- Cutting before the last separator loses nothing but the separator. -/
theorem cutLast?_some {before after : Text} (h : cutLast? sep t = some (before, after)) :
    t = before ++ sep :: after ∧ sep ∉ after := by
  unfold cutLast? at h
  have hsplit := List.takeWhile_append_dropWhile (p := (· ≠ sep)) (l := t.reverse)
  have hnot : sep ∉ t.reverse.takeWhile (· ≠ sep) := fun hm => by simpa using List.mem_takeWhile_imp hm
  have hstop := List.head?_dropWhile_not (· ≠ sep) t.reverse
  generalize t.reverse.takeWhile (· ≠ sep) = tail at h hsplit hnot
  generalize t.reverse.dropWhile (· ≠ sep) = start at hsplit hstop
  obtain rfl : t = start.reverse ++ tail.reverse := by rw [← List.reverse_append, hsplit, List.reverse_reverse]
  cases start with
  | nil => simp at h
  | cons c rest =>
    obtain rfl : c = sep := by simpa using hstop
    have hlonger : (rest.reverse ++ c :: tail.reverse).length = tail.reverse.length + 1 + rest.reverse.length := by
      simp only [List.length_append, List.length_cons]
      omega
    have hlength : (rest.reverse ++ c :: tail.reverse).length - tail.reverse.length - 1 = rest.reverse.length := by
      omega
    have hlist : (c :: rest).reverse ++ tail.reverse = rest.reverse ++ c :: tail.reverse := by simp
    rw [hlist] at h
    dsimp only at h
    rw [hlength, List.take_left, if_neg (by omega)] at h
    cases h
    exact ⟨hlist, fun hm => hnot (List.mem_reverse.mp hm)⟩

theorem ofChar_injective {c d : Char} (h : CodePoint.ofChar c = CodePoint.ofChar d) : c = d :=
  Char.toNat_inj.mp (congrArg CodePoint.val h)

theorem ofNat_injective {m n : Nat} (h : ofNat m = ofNat n) : m = n := by
  have hs : m.repr.toList = n.repr.toList :=
    (List.map_inj_right fun _ _ he => ofChar_injective he).mp h
  exact Nat.repr_injective (String.toList_inj.mp hs)

/-- A numeral holds digits only. -/
theorem not_mem_ofNat {c : Char} (hc : c.isDigit = false) (n : Nat) : CodePoint.ofChar c ∉ ofNat n := by
  intro hm
  obtain ⟨d, hd, he⟩ := List.mem_map.mp hm
  obtain rfl := ofChar_injective he
  rw [Nat.toList_repr] at hd
  have hdigit := Nat.isDigit_of_mem_toDigits (by decide) (by decide) hd
  rw [hc] at hdigit
  cases hdigit

end CodeAgent.Text
