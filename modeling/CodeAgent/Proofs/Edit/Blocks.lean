import Mathlib
import CodeAgent.Edit.Blocks
import CodeAgent.Proofs.Text.Lines

namespace CodeAgent.Blocks
open Text

variable {β : Type} {next : Text → Option β} {t u v w r rest tail : Text} {found : β} {b : Edit}

/-- A text that can be a section. Opening markers do no harm in it. -/
structure IsSection (t : Text) : Prop where
  noReturn : CodePoint.ofChar '\r' ∉ t
  noClose : ¬ closeMark <:+: t
  noDivider : divider ∉ lines t

instance (t : Text) : Decidable (IsSection t) :=
  decidable_of_iff (CodePoint.ofChar '\r' ∉ t ∧ ¬ closeMark <:+: t ∧ divider ∉ lines t)
    ⟨fun h => ⟨h.1, h.2.1, h.2.2⟩, fun h => ⟨h.noReturn, h.noClose, h.noDivider⟩⟩

theorem newline_not_mem_marks : newline ∉ openMark ∧ newline ∉ divider ∧ newline ∉ closeMark := by decide

theorem return_not_mem_marks : CodePoint.ofChar '\r' ∉ openMark ∧ CodePoint.ofChar '\r' ∉ divider ∧
    CodePoint.ofChar '\r' ∉ closeMark := by decide

@[simp]
theorem afterNewline?_newline (r : Text) : afterNewline? (newline :: r) = some r := rfl

theorem afterNewline?_cons_of_ne {c : CodePoint} (hc : c ≠ newline) (hr : c ≠ '\r') (t : Text) :
    afterNewline? (c :: t) = none := by
  have hline : ¬ c = CodePoint.ofChar '\n' := hc
  cases t with
  | nil => simp [afterNewline?, hline]
  | cons d t => simp [afterNewline?, hline, hr]

/-- Without carriage returns a line ends at a line feed only. -/
theorem afterNewline?_eq_some (ht : CodePoint.ofChar '\r' ∉ t) (h : afterNewline? t = some r) :
    t = newline :: r := by
  cases t with
  | nil => cases h
  | cons c rest =>
    rw [List.mem_cons, not_or] at ht
    by_cases hc : c = newline
    · rw [hc, afterNewline?_newline] at h
      rw [hc, Option.some.inj h]
    · rw [afterNewline?_cons_of_ne hc (Ne.symm ht.1)] at h
      cases h

@[simp]
theorem afterMark?_append (mark r : Text) : afterMark? mark (mark ++ r) = some r := by
  simp [afterMark?]

theorem afterMark?_eq_some {mark : Text} (h : afterMark? mark t = some r) : t = mark ++ r := by
  unfold afterMark? at h
  split at h
  · rename_i hp
    obtain ⟨r', rfl⟩ := List.isPrefixOf_iff_prefix.mp hp
    rw [List.drop_left] at h
    cases h
    rfl
  · cases h

/-- A section ends at the first line end that `next` can follow. -/
theorem upToLine?_first (hu : CodePoint.ofChar '\r' ∉ u) (hnext : next r = some found)
    (hfirst : ∀ v w, u = v ++ newline :: w → next (w ++ newline :: r) = none) :
    upToLine? next (u ++ newline :: r) = some (u, found) := by
  induction u with
  | nil =>
    unfold upToLine?
    simp [hnext]
  | cons c u ih =>
    rw [List.mem_cons, not_or] at hu
    have hhere : (afterNewline? (c :: u ++ newline :: r)).bind next = none := by
      by_cases hc : c = newline
      · rw [hc, List.cons_append, afterNewline?_newline]
        exact hfirst [] u (by rw [hc]; rfl)
      · rw [List.cons_append, afterNewline?_cons_of_ne hc (Ne.symm hu.1)]
        rfl
    have hlater := ih hu.2 fun v w he => hfirst (c :: v) w (by rw [he]; rfl)
    unfold upToLine?
    rw [hhere]
    simp only [List.cons_append, hlater, Option.map_some]

theorem upToLine?_eq_none (ht : CodePoint.ofChar '\r' ∉ t)
    (h : ∀ v w, t = v ++ newline :: w → next w = none) : upToLine? next t = none := by
  induction t with
  | nil => rfl
  | cons c t ih =>
    have hhere : (afterNewline? (c :: t)).bind next = none := by
      cases ha : afterNewline? (c :: t) with
      | none => rfl
      | some x =>
        exact h [] x (afterNewline?_eq_some ht ha)
    have hlater := ih (fun hm => ht (List.mem_cons_of_mem _ hm)) fun v w he => h (c :: v) w (by rw [he]; rfl)
    unfold upToLine?
    rw [hhere]
    simp only [hlater, Option.map_none]

theorem upToLine?_isSome (u : Text) (h : (next r).isSome) : (upToLine? next (u ++ newline :: r)).isSome := by
  induction u with
  | nil =>
    obtain ⟨found, hfound⟩ := Option.isSome_iff_exists.mp h
    unfold upToLine?
    simp [hfound]
  | cons c u ih =>
    unfold upToLine?
    split
    · rfl
    · simpa using ih

/-- Wherever a section is written, one can be read. -/
theorem optionalPart?_isSome (t : Text) (h : (next r).isSome) :
    (optionalPart? next (renderSection t ++ r)).isSome := by
  unfold optionalPart?
  split
  · rfl
  · rename_i hnone
    by_cases ht : t = []
    · simpa [renderSection, ht] using h
    · have hsome := upToLine?_isSome t h
      rw [renderSection, if_neg (by simpa using ht), List.append_assoc, List.singleton_append] at hnone
      rw [hnone] at hsome
      cases hsome

/-- A section that was left out takes in all up to a later line end, if `next` can follow that. -/
theorem optionalPart?_stretched (hu : u ≠ []) (hline : afterNewline? (u ++ newline :: r) = none)
    (h : (next r).isSome) :
    ∃ s found, optionalPart? next (u ++ newline :: r) = some (s, found) ∧ s ≠ [] := by
  obtain ⟨c, u, rfl⟩ := List.exists_cons_of_ne_nil hu
  obtain ⟨⟨s, found⟩, hlater⟩ := Option.isSome_iff_exists.mp (upToLine?_isSome u h)
  refine ⟨c :: s, found, ?_, List.cons_ne_nil c s⟩
  unfold optionalPart? upToLine?
  rw [hline]
  simp only [List.cons_append, Option.bind_none, hlater, Option.map_some]

/-- A text that starts like a line and goes on has that line in front. -/
theorem line_of_append {line : Text} (hline : newline ∉ line) (h : w ++ newline :: r = line ++ newline :: rest) :
    line ∈ lines w := by
  rw [lines, splitOn_eq]
  rcases List.append_eq_append_iff.mp h with ⟨x, hx, hy⟩ | ⟨x, hx, hy⟩
  · cases x with
    | nil =>
      rw [List.append_nil] at hx
      rw [← hx, List.splitOn_eq_singleton hline]
      exact List.mem_singleton_self _
    | cons c x =>
      rw [List.cons_append, List.cons.injEq] at hy
      exact absurd (hx ▸ hy.1 ▸ List.mem_append_right _ List.mem_cons_self) hline
  · cases x with
    | nil =>
      rw [List.append_nil] at hx
      rw [hx, List.splitOn_eq_singleton hline]
      exact List.mem_singleton_self _
    | cons c x =>
      rw [List.cons_append, List.cons.injEq] at hy
      rw [hx, ← hy.1, List.splitOn_append_cons_self, List.splitOn_eq_singleton hline]
      exact List.mem_cons_self

theorem mem_lines_of_mem (v : Text) {line : Text} (h : line ∈ lines w) : line ∈ lines (v ++ newline :: w) := by
  rw [lines, splitOn_eq] at h ⊢
  rw [List.splitOn_append_cons_self]
  exact List.mem_append_right _ h

/-- What follows the search section of a block: the divider line, then the replacement section and the
closing marker. -/
def afterDivider? (t : Text) : Option (Text × Text) :=
  ((afterMark? divider t).bind afterNewline?).bind (optionalPart? (afterMark? closeMark))

theorem afterDivider?_divider (t : Text) :
    afterDivider? (divider ++ newline :: t) = optionalPart? (afterMark? closeMark) t := by
  simp [afterDivider?]

/-- No divider line starts where a line of a section starts. -/
theorem IsSection.afterDivider?_eq_none (h : IsSection t) (hr : CodePoint.ofChar '\r' ∉ r)
    (hw : w = t ∨ ∃ v, t = v ++ newline :: w) : afterDivider? (w ++ newline :: r) = none := by
  cases ha : (afterMark? divider (w ++ newline :: r)).bind afterNewline? with
  | none => simp [afterDivider?, ha]
  | some x =>
    exfalso
    obtain ⟨y, hy, hx⟩ := Option.bind_eq_some_iff.mp ha
    have hwhole := afterMark?_eq_some hy
    have hreturn : CodePoint.ofChar '\r' ∉ w := by
      rcases hw with rfl | ⟨v, rfl⟩
      · exact h.noReturn
      · exact fun hm => h.noReturn (List.mem_append_right _ (List.mem_cons_of_mem _ hm))
    have hy' : CodePoint.ofChar '\r' ∉ y := by
      intro hm
      have hmem : CodePoint.ofChar '\r' ∈ w ++ newline :: r := hwhole ▸ List.mem_append_right _ hm
      rcases List.mem_append.mp hmem with hm | hm
      · exact hreturn hm
      · rcases List.mem_cons.mp hm with he | hm
        · exact absurd he (by decide)
        · exact hr hm
    rw [afterNewline?_eq_some hy' hx] at hwhole
    have hline := line_of_append newline_not_mem_marks.2.1 hwhole
    rcases hw with rfl | ⟨v, rfl⟩
    · exact h.noDivider hline
    · exact h.noDivider (mem_lines_of_mem v hline)

/-- No closing marker starts where a line of a section starts. -/
theorem IsSection.afterClose?_eq_none (h : IsSection t) (ht : t = v ++ newline :: w) :
    afterMark? closeMark (w ++ newline :: r) = none := by
  cases ha : afterMark? closeMark (w ++ newline :: r) with
  | none => rfl
  | some x =>
    exfalso
    rcases List.append_eq_append_iff.mp (afterMark?_eq_some ha) with ⟨y, hy, hz⟩ | ⟨y, hy, hz⟩
    · cases y with
      | nil =>
        rw [List.append_nil] at hy
        exact h.noClose ⟨v ++ [newline], [], by simp [ht, hy]⟩
      | cons c y =>
        rw [List.cons_append, List.cons.injEq] at hz
        exact newline_not_mem_marks.2.2 (hy ▸ hz.1 ▸ List.mem_append_right _ List.mem_cons_self)
    · exact h.noClose ⟨v ++ [newline], y, by simp [ht, hy]⟩

/-- A replacement section is read as it was written, the last one also if it is empty. -/
theorem replacement_read (h : IsSection t) (htail : tail = [] ∨ t ≠ []) :
    optionalPart? (afterMark? closeMark) (renderSection t ++ closeMark ++ tail) = some (t, tail) := by
  by_cases ht : t = []
  · obtain rfl := htail.resolve_right (not_not_intro ht)
    have hnone : upToLine? (afterMark? closeMark) closeMark = none := by
      refine upToLine?_eq_none return_not_mem_marks.2.2 ?_
      intro v w he
      exact absurd (he ▸ List.mem_append_right _ List.mem_cons_self) newline_not_mem_marks.2.2
    have hclose := afterMark?_append closeMark []
    rw [List.append_nil] at hclose
    simp [optionalPart?, renderSection, ht, hnone, hclose]
  · have hfirst : upToLine? (afterMark? closeMark) (t ++ newline :: (closeMark ++ tail)) = some (t, tail) :=
      upToLine?_first h.noReturn (afterMark?_append _ _) fun _ _ he => h.afterClose?_eq_none he
    simp [optionalPart?, renderSection, ht, hfirst]

theorem return_not_mem_renderSection (h : CodePoint.ofChar '\r' ∉ t) :
    CodePoint.ofChar '\r' ∉ renderSection t := by
  unfold renderSection
  split
  · exact List.not_mem_nil
  · intro hm
    rcases List.mem_append.mp hm with hm | hm
    · exact h hm
    · exact absurd (List.mem_singleton.mp hm) (by decide)

/-- A line of a text in two parts starts in the first, at the end of the first, or in the second. -/
theorem cut_line {a : Text} (h : a ++ newline :: r = v ++ newline :: w) :
    (∃ x, a = v ++ newline :: x ∧ w = x ++ newline :: r) ∨ w = r ∨ ∃ x, r = x ++ newline :: w := by
  rcases List.append_eq_append_iff.mp h with ⟨x, -, hy⟩ | ⟨x, hx, hy⟩
  · cases x with
    | nil => exact Or.inr (Or.inl (List.cons.inj hy).2.symm)
    | cons c x => exact Or.inr (Or.inr ⟨x, (List.cons.inj hy).2⟩)
  · cases x with
    | nil => exact Or.inr (Or.inl (List.cons.inj hy).2)
    | cons c x =>
      obtain ⟨rfl, hw⟩ := List.cons.inj hy
      exact Or.inl ⟨x, hx, hw⟩

/-- In the last block an empty search section is found to be empty: no later line is a divider. -/
theorem no_later_divider (h : IsSection t) :
    upToLine? afterDivider? (divider ++ newline :: (renderSection t ++ closeMark)) = none := by
  have hreturn : CodePoint.ofChar '\r' ∉ divider ++ newline :: (renderSection t ++ closeMark) := by
    simp only [List.mem_append, List.mem_cons, not_or]
    exact ⟨return_not_mem_marks.2.1, by decide, return_not_mem_renderSection h.noReturn,
      return_not_mem_marks.2.2⟩
  have hclose : ∀ w, w = closeMark ∨ (∃ x, closeMark = x ++ newline :: w) → afterDivider? w = none := by
    rintro w (rfl | ⟨x, hx⟩)
    · rfl
    · exact absurd (hx ▸ List.mem_append_right _ List.mem_cons_self) newline_not_mem_marks.2.2
  refine upToLine?_eq_none hreturn ?_
  intro v w he
  have hlater : w = renderSection t ++ closeMark ∨ ∃ x, renderSection t ++ closeMark = x ++ newline :: w := by
    refine (cut_line he).resolve_left ?_
    rintro ⟨x, hx, -⟩
    exact newline_not_mem_marks.2.1 (hx ▸ List.mem_append_right _ List.mem_cons_self)
  by_cases ht : t = []
  · exact hclose w (by simpa [renderSection, ht] using hlater)
  · have hwritten : renderSection t ++ closeMark = t ++ newline :: closeMark := by simp [renderSection, ht]
    rw [hwritten] at hlater
    rcases hlater with rfl | ⟨x, hx⟩
    · exact h.afterDivider?_eq_none return_not_mem_marks.2.2 (Or.inl rfl)
    · rcases cut_line hx with ⟨y, hy, rfl⟩ | hw
      · exact h.afterDivider?_eq_none return_not_mem_marks.2.2 (Or.inr ⟨x, hy⟩)
      · exact hclose w hw

theorem block?_open (t : Text) :
    block? (openMark ++ newline :: t) =
      (optionalPart? afterDivider? t).map fun (s, r, rest) => (⟨s, r⟩, rest) := by
  have hopen : (afterMark? openMark (openMark ++ newline :: t)).bind afterNewline? = some t := by simp
  unfold block?
  rw [hopen]
  change (optionalPart? afterDivider? t).bind _ = _
  cases optionalPart? afterDivider? t <;> rfl

def inner (b : Edit) : Text :=
  renderSection b.search ++ (divider ++ newline :: (renderSection b.replacement ++ closeMark))

theorem renderBlock_eq (b : Edit) : renderBlock b = openMark ++ newline :: inner b := by
  simp [renderBlock, inner]

/-- A block of which no section is empty is read as it was written, and so is the last block. -/
theorem block?_render (hs : IsSection b.search) (hr : IsSection b.replacement)
    (htail : tail = [] ∨ b.search ≠ [] ∧ b.replacement ≠ []) (hreturn : CodePoint.ofChar '\r' ∉ tail) :
    block? (renderBlock b ++ tail) = some (b, tail) := by
  have hrest : afterDivider? (divider ++ newline :: (renderSection b.replacement ++ closeMark ++ tail)) =
      some (b.replacement, tail) := by
    rw [afterDivider?_divider]
    exact replacement_read hr (htail.imp_right And.right)
  have hreturn' : CodePoint.ofChar '\r' ∉ divider ++ newline :: (renderSection b.replacement ++ closeMark ++ tail) := by
    simp only [List.mem_append, List.mem_cons, not_or]
    exact ⟨return_not_mem_marks.2.1, by decide,
      ⟨return_not_mem_renderSection hr.noReturn, return_not_mem_marks.2.2⟩, hreturn⟩
  have hpart : optionalPart? afterDivider? (inner b ++ tail) = some (b.search, b.replacement, tail) := by
    by_cases hempty : b.search = []
    · obtain rfl : tail = [] := htail.resolve_right fun h => h.1 hempty
      have hinner : inner b ++ [] = divider ++ newline :: (renderSection b.replacement ++ closeMark) := by
        simp [inner, renderSection, hempty]
      rw [List.append_nil] at hrest
      rw [hinner, optionalPart?, no_later_divider hr]
      simp only [hrest, hempty, Option.map_some]
    · have hinner : inner b ++ tail = b.search ++
          newline :: (divider ++ newline :: (renderSection b.replacement ++ closeMark ++ tail)) := by
        simp [inner, renderSection, hempty]
      have hfirst := upToLine?_first hs.noReturn hrest fun v w he =>
        hs.afterDivider?_eq_none hreturn' (Or.inr ⟨v, he⟩)
      rw [hinner, optionalPart?, hfirst]
  rw [renderBlock_eq, List.append_assoc, List.cons_append, block?_open, hpart]
  rfl

theorem renderBlock_divider (b : Edit) : ∃ v, renderBlock b =
    v ++ newline :: (divider ++ newline :: (renderSection b.replacement ++ closeMark)) := by
  by_cases hs : b.search = []
  · exact ⟨openMark, by simp [renderBlock, renderSection, hs]⟩
  · exact ⟨openMark ++ newline :: b.search, by simp [renderBlock, renderSection, hs]⟩

theorem renderBlock_close (b : Edit) : ∃ v, renderBlock b = v ++ newline :: closeMark := by
  by_cases hr : b.replacement = []
  · exact ⟨openMark ++ newline :: (renderSection b.search ++ divider), by simp [renderBlock, renderSection, hr]⟩
  · exact ⟨openMark ++ newline :: (renderSection b.search ++ divider ++ newline :: b.replacement),
      by simp [renderBlock, renderSection, hr]⟩

/-- An empty section of a block is not found to be empty when another block follows: the section goes on to
the next divider, or closing marker. -/
theorem block?_stretched {b b' : Edit} (hs : IsSection b.search) (hempty : b.search = [] ∨ b.replacement = [])
    (hreturn : CodePoint.ofChar '\r' ∉ renderBlock b' ++ tail) :
    ∃ e rest, block? (renderBlock b ++ newline :: (renderBlock b' ++ tail)) = some (e, rest) ∧ e ≠ b := by
  rw [renderBlock_eq, List.append_assoc, List.cons_append, block?_open]
  by_cases hsearch : b.search = []
  · obtain ⟨v, hv⟩ := renderBlock_divider b'
    have hnext :
        (afterDivider? (divider ++ newline :: (renderSection b'.replacement ++ closeMark ++ tail))).isSome := by
      rw [afterDivider?_divider, List.append_assoc]
      exact optionalPart?_isSome _ (by simp)
    obtain ⟨s, ⟨r, rest⟩, hpart, hne⟩ := optionalPart?_stretched
      (u := divider ++ newline :: (renderSection b.replacement ++ closeMark ++ newline :: v))
      (by simp [divider, ofString]) rfl hnext
    have htext : inner b ++ newline :: (renderBlock b' ++ tail) =
        divider ++ newline :: (renderSection b.replacement ++ closeMark ++ newline :: v) ++
          newline :: (divider ++ newline :: (renderSection b'.replacement ++ closeMark ++ tail)) := by
      simp [hv, inner, renderSection, hsearch]
    refine ⟨⟨s, r⟩, rest, by rw [htext, hpart]; rfl, ?_⟩
    rintro rfl
    exact hne hsearch
  · have hreplacement := hempty.resolve_left hsearch
    obtain ⟨v, hv⟩ := renderBlock_close b'
    have hnext : (afterMark? closeMark (closeMark ++ tail)).isSome := by simp
    obtain ⟨s, rest, hpart, hne⟩ := optionalPart?_stretched (u := closeMark ++ newline :: v)
      (by simp [closeMark, ofString]) rfl hnext
    have hrest : afterDivider? (divider ++ newline :: (closeMark ++ newline :: (renderBlock b' ++ tail))) =
        some (s, rest) := by
      rw [afterDivider?_divider, ← hpart, hv]
      simp
    have hreturn' : CodePoint.ofChar '\r' ∉ divider ++ newline ::
        (closeMark ++ newline :: (renderBlock b' ++ tail)) := by
      rw [List.mem_append, List.mem_cons, List.mem_append, List.mem_cons]
      simp only [not_or]
      exact ⟨return_not_mem_marks.2.1, by decide, return_not_mem_marks.2.2, by decide, hreturn⟩
    have hfirst := upToLine?_first hs.noReturn hrest fun v w he =>
      hs.afterDivider?_eq_none hreturn' (Or.inr ⟨v, he⟩)
    have htext : inner b ++ newline :: (renderBlock b' ++ tail) =
        b.search ++ newline :: (divider ++ newline :: (closeMark ++ newline :: (renderBlock b' ++ tail))) := by
      simp [inner, renderSection, hsearch, hreplacement]
    refine ⟨⟨b.search, s⟩, rest, by rw [htext, optionalPart?, hfirst]; rfl, ?_⟩
    intro he
    exact hne ((congrArg Edit.replacement he).trans hreplacement)

theorem parse_block {e : Edit} (h : block? t = some (e, rest)) (hlt : rest.length < t.length) :
    parse t = e :: parse rest := by
  cases t with
  | nil => cases hlt
  | cons c r =>
    rw [parse, h]
    exact if_pos (Nat.le_of_lt_succ hlt)

theorem parse_head {e : Edit} (h : block? t = some (e, rest)) : parse t = e :: parse rest ∨ parse t = [] := by
  cases t with
  | nil => cases h
  | cons c r =>
    rw [parse, h]
    dsimp only
    split
    · exact Or.inl rfl
    · exact Or.inr rfl

/-- No block starts with a line feed. -/
theorem parse_newline (t : Text) : parse (newline :: t) = parse t := by
  have hnone : block? (newline :: t) = none := by
    have hmark : afterMark? openMark (newline :: t) = none := rfl
    unfold block?
    rw [hmark]
    rfl
  rw [parse, hnone]

theorem render_cons_cons (b b' : Edit) (bs : List Edit) :
    render (b :: b' :: bs) = renderBlock b ++ newline :: render (b' :: bs) := by
  simp [render, unlines, joinWith, List.intercalate_cons_cons]

theorem render_singleton (b : Edit) : render [b] = renderBlock b := by
  simp [render, unlines, joinWith]

theorem return_not_mem_renderBlock {b : Edit} (hs : IsSection b.search) (hr : IsSection b.replacement) :
    CodePoint.ofChar '\r' ∉ renderBlock b := by
  simp only [renderBlock_eq, inner, List.mem_append, List.mem_cons, not_or]
  exact ⟨return_not_mem_marks.1, by decide, return_not_mem_renderSection hs.noReturn, return_not_mem_marks.2.1,
    by decide, return_not_mem_renderSection hr.noReturn, return_not_mem_marks.2.2⟩

theorem return_not_mem_render {bs : List Edit} (h : ∀ b ∈ bs, IsSection b.search ∧ IsSection b.replacement) :
    CodePoint.ofChar '\r' ∉ render bs := by
  intro hm
  rcases mem_joinWith hm with hm | ⟨part, hpart, hm⟩
  · exact absurd (List.mem_singleton.mp hm) (by decide)
  · obtain ⟨b, hb, rfl⟩ := List.mem_map.mp hpart
    exact return_not_mem_renderBlock (h b hb).1 (h b hb).2 hm

/-- Written blocks are read again just if only the last one has empty sections. -/
theorem parse_render_iff {bs : List Edit} (h : ∀ b ∈ bs, IsSection b.search ∧ IsSection b.replacement) :
    parse (render bs) = bs ↔ ∀ b ∈ bs.dropLast, b.search ≠ [] ∧ b.replacement ≠ [] := by
  induction bs with
  | nil => simp [render, unlines, joinWith, parse]
  | cons b bs ih =>
    obtain ⟨⟨hs, hr⟩, hrest⟩ := List.forall_mem_cons.mp h
    cases bs with
    | nil =>
      have hblock := block?_render hs hr (Or.inl rfl) List.not_mem_nil
      rw [List.append_nil] at hblock
      have hparse := parse_block hblock (by simp [renderBlock])
      simp [render_singleton, hparse, parse]
    | cons b' bs =>
      have hreturn := return_not_mem_render hrest
      rw [List.dropLast_cons_cons, List.forall_mem_cons, render_cons_cons]
      by_cases hfull : b.search ≠ [] ∧ b.replacement ≠ []
      · have hblock : block? (renderBlock b ++ newline :: render (b' :: bs)) = some (b, newline :: render (b' :: bs)) :=
          block?_render hs hr (Or.inr hfull) (by simpa using ⟨by decide, hreturn⟩)
        rw [parse_block hblock (by simp [renderBlock]; omega), parse_newline, List.cons.injEq, ih hrest]
        exact and_congr_left fun _ => ⟨fun _ => hfull, fun _ => rfl⟩
      · have hempty : b.search = [] ∨ b.replacement = [] := Decidable.or_iff_not_not_and_not.mpr hfull
        obtain ⟨tail, htail⟩ : ∃ tail, render (b' :: bs) = renderBlock b' ++ tail := by
          cases bs with
          | nil => exact ⟨[], by rw [render_singleton, List.append_nil]⟩
          | cons b'' bs => exact ⟨_, render_cons_cons b' b'' bs⟩
        rw [htail] at hreturn ⊢
        obtain ⟨e, rest, hblock, hne⟩ := block?_stretched hs hempty hreturn
        constructor
        · intro hparse
          rcases parse_head hblock with he | he
          · rw [hparse, List.cons.injEq] at he
            exact absurd he.1.symm hne
          · rw [hparse] at he
            cases he
        · exact fun hall => absurd hall.1 hfull

/-- A last block with two empty sections is read again after a full one. -/
theorem empty_last_block_read :
    (∀ b ∈ ([⟨"a\n", "b"⟩, ⟨[], []⟩] : List Edit), IsSection b.search ∧ IsSection b.replacement) ∧
      parse (render [⟨"a\n", "b"⟩, ⟨[], []⟩]) = [⟨"a\n", "b"⟩, ⟨[], []⟩] :=
  ⟨by decide, (parse_render_iff (by decide)).mpr (by decide)⟩

/-- A block with an empty search section and the block behind it are read as one, which searches for the text
of both. -/
theorem empty_search_stretches :
    (∀ b ∈ ([⟨[], "a"⟩, ⟨"b", "c"⟩] : List Edit), ∀ t ∈ [b.search, b.replacement],
      IsSection t ∧ ¬ openMark <:+: t) ∧
    parse (render [⟨[], "a"⟩, ⟨"b", "c"⟩]) = [⟨"====\na\n>>>> REPLACE\n<<<< SEARCH\nb", "c"⟩] ∧
    parse (render [⟨[], "a"⟩, ⟨"b", "c"⟩]) ≠ [⟨[], "a"⟩, ⟨"b", "c"⟩] := by
  have hblock : block? (render [⟨[], "a"⟩, ⟨"b", "c"⟩]) =
      some (⟨"====\na\n>>>> REPLACE\n<<<< SEARCH\nb", "c"⟩, []) := by cbv
  have hparse := parse_block hblock (by decide)
  rw [parse] at hparse
  exact ⟨by decide, hparse, by rw [hparse]; decide⟩

end CodeAgent.Blocks
