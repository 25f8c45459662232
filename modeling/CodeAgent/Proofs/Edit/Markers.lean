import CodeAgent.Proofs.Edit.Blocks

namespace CodeAgent.Blocks
open Text

variable {β : Type} {next : Text → Option β} {mark s t u r rest : Text} {found : β} {b : Edit}

def occurrences (mark t : Text) : List Text := (suffixes t).filter mark.isPrefixOf

def Unbordered (mark : Text) : Prop := ∀ k < mark.length, 0 < k → ¬ mark.drop k <+: mark

instance (mark : Text) : Decidable (Unbordered mark) := inferInstanceAs (Decidable (∀ k < mark.length, _ → _))

theorem marks_unbordered : Unbordered openMark ∧ Unbordered closeMark := by decide

theorem marks_ne_nil : openMark ≠ [] ∧ closeMark ≠ [] := by decide

theorem occurrences_cons (mark : Text) (c : CodePoint) (r : Text) :
    occurrences mark (c :: r) = if mark <+: c :: r then (c :: r) :: occurrences mark r else occurrences mark r := by
  simp [occurrences, suffixes, List.filter_cons]

theorem occurrences_mark_append (hne : mark ≠ []) (r : Text) :
    occurrences mark (mark ++ r) = (mark ++ r) :: occurrences mark (mark.tail ++ r) := by
  obtain ⟨c, m, rfl⟩ := List.exists_cons_of_ne_nil hne
  rw [List.cons_append, occurrences_cons, if_pos (by simp), List.tail_cons]

theorem mem_suffixes_iff : s ∈ suffixes t ↔ s <:+ t := by
  induction t with
  | nil => simp [suffixes]
  | cons c r ih => rw [suffixes, List.mem_cons, ih, List.suffix_cons_iff]

theorem mem_occurrences_iff : s ∈ occurrences mark t ↔ mark <+: s ∧ s <:+ t := by
  rw [occurrences, List.mem_filter, mem_suffixes_iff, List.isPrefixOf_iff_prefix, and_comm]

/-- What stands in the end of a text stands in the text. -/
theorem occurrences_append (mark u r : Text) : (occurrences mark r).Sublist (occurrences mark (u ++ r)) := by
  induction u with
  | nil => exact List.Sublist.refl _
  | cons c u ih =>
    rw [List.cons_append, occurrences_cons]
    split
    · exact ih.cons _
    · exact ih

theorem nodup_occurrences (mark t : Text) : (occurrences mark t).Nodup := by
  induction t with
  | nil => exact (List.nodup_singleton []).filter _
  | cons c r ih =>
    rw [occurrences_cons]
    split
    · refine List.nodup_cons.mpr ⟨fun hm => ?_, ih⟩
      have hle := (mem_occurrences_iff.mp hm).2.length_le
      simp at hle
    · exact ih

theorem occurrences_drop {n : Nat} (h : ∀ k < n, ¬ mark <+: t.drop k) :
    occurrences mark t = occurrences mark (t.drop n) := by
  induction n generalizing t with
  | zero => rfl
  | succ n ih =>
    cases t with
    | nil => rfl
    | cons c r =>
      have hhere : ¬ mark <+: c :: r := h 0 (Nat.zero_lt_succ n)
      rw [occurrences_cons, if_neg hhere, List.drop_succ_cons]
      exact ih fun k hk => h (k + 1) (Nat.succ_lt_succ hk)

/-- Inside a marker that cannot overlap itself there is no other. -/
theorem Unbordered.occurrences_tail (h : Unbordered mark) (hne : mark ≠ []) (r : Text) :
    occurrences mark (mark.tail ++ r) = occurrences mark r := by
  obtain ⟨c, m, rfl⟩ := List.exists_cons_of_ne_nil hne
  rw [List.tail_cons]
  have hinside : ∀ k < m.length, ¬ (c :: m) <+: (m ++ r).drop k := by
    intro k hk hprefix
    rw [List.drop_append_of_le_length hk.le] at hprefix
    have hself : m.drop k <+: c :: m :=
      List.prefix_of_prefix_length_le (List.prefix_append _ r) hprefix (by simp; omega)
    exact h (k + 1) (by simpa using hk) (Nat.succ_pos k) hself
  have hdrop := occurrences_drop hinside
  rwa [List.drop_left] at hdrop

/-- Counting without overlap misses none of these markers. -/
theorem count_eq_length (h : Unbordered mark) (hne : mark ≠ []) (t : Text) :
    count mark t = (occurrences mark t).length := by
  have hpos : 0 < mark.length := List.length_pos_iff.mpr hne
  induction t using count.induct mark with
  | case1 => simp [count, occurrences, suffixes, hne]
  | case2 c r hp ih =>
    have hprefix : mark <+: c :: r := by simpa [hpos] using hp
    obtain ⟨u, hu⟩ := hprefix
    have hrest : mark.tail ++ u = r := by
      rw [← List.tail_append_of_ne_nil hne, hu, List.tail_cons]
    have hdrop : r.drop (mark.length - 1) = u := by
      rw [← hrest, ← List.length_tail, List.drop_left]
    rw [hdrop] at ih
    rw [count, if_pos hp, hdrop, ih, ← hu, occurrences_mark_append hne, h.occurrences_tail hne, List.length_cons,
      Nat.add_comm]
  | case3 c r hp ih =>
    have hprefix : ¬ mark <+: c :: r := by simpa [hpos] using hp
    rw [count, if_neg hp, occurrences_cons, if_neg hprefix, ih]

def IsLineEnd (e : Text) : Prop := e = [newline] ∨ e = [CodePoint.ofChar '\r', newline]

/-- How a section stands in a text: with a line end behind it, or not at all if it is empty. -/
def Written (s w : Text) : Prop := (s = [] ∧ w = []) ∨ ∃ e, IsLineEnd e ∧ w = s ++ e

/-- A line end is what was cut off. -/
theorem afterNewline?_some (h : afterNewline? t = some r) : ∃ e, IsLineEnd e ∧ t = e ++ r := by
  cases t with
  | nil => cases h
  | cons c u =>
    unfold afterNewline? at h
    dsimp only at h
    split at h
    · rename_i hc
      cases h
      exact ⟨[newline], Or.inl rfl, by rw [hc]; rfl⟩
    · split at h
      · split at h
        · rename_i hc
          cases h
          simp only [Bool.and_eq_true, decide_eq_true_eq] at hc
          exact ⟨[CodePoint.ofChar '\r', newline], Or.inr rfl, by rw [hc.1, hc.2]; rfl⟩
        · cases h
      · cases h

/-- A section ends at the first line behind which the next mark stands. -/
theorem upToLine?_some (h : upToLine? next t = some (s, found)) :
    ∃ e r, IsLineEnd e ∧ t = s ++ e ++ r ∧ next r = some found := by
  induction t generalizing s with
  | nil => simp [upToLine?, afterNewline?] at h
  | cons c t ih =>
    rw [upToLine?] at h
    split at h
    · rename_i hhere
      obtain ⟨r, hline, hnext⟩ := Option.bind_eq_some_iff.mp hhere
      obtain ⟨e, he, ht⟩ := afterNewline?_some hline
      cases h
      exact ⟨e, r, he, by rw [ht, List.nil_append], hnext⟩
    · obtain ⟨⟨s', found'⟩, hlater, heq⟩ := Option.map_eq_some_iff.mp h
      cases heq
      obtain ⟨e, r, he, ht, hnext⟩ := ih hlater
      exact ⟨e, r, he, by rw [ht]; rfl, hnext⟩

theorem optionalPart?_some (h : optionalPart? next t = some (s, found)) :
    ∃ w r, Written s w ∧ t = w ++ r ∧ next r = some found := by
  unfold optionalPart? at h
  split at h
  · rename_i hline
    cases h
    obtain ⟨e, r, he, ht, hnext⟩ := upToLine?_some hline
    exact ⟨s ++ e, r, Or.inr ⟨e, he, rfl⟩, ht, hnext⟩
  · obtain ⟨found', hnext, heq⟩ := Option.map_eq_some_iff.mp h
    cases heq
    exact ⟨[], t, Or.inl ⟨rfl, rfl⟩, rfl, hnext⟩

/-- A block with the text from its opening marker on and the text from its closing marker on. -/
structure Found where
  block : Edit
  opens : Text
  closes : Text
deriving DecidableEq

def Found.Stands (f : Found) : Prop :=
  ∃ e search e' replacement rest, IsLineEnd e ∧ Written f.block.search search ∧ IsLineEnd e' ∧
    Written f.block.replacement replacement ∧
    f.opens = openMark ++ e ++ search ++ divider ++ e' ++ replacement ++ f.closes ∧ f.closes = closeMark ++ rest

/-- A block that is read stands in the text, marks and all. -/
theorem block?_stands (h : block? t = some (b, rest)) : (Found.mk b t (closeMark ++ rest)).Stands := by
  unfold block? at h
  obtain ⟨u, hopen, h⟩ := Option.bind_eq_some_iff.mp h
  obtain ⟨⟨search, replacement, rest'⟩, hpart, h⟩ := Option.bind_eq_some_iff.mp h
  cases h
  obtain ⟨v, hmark, hline⟩ := Option.bind_eq_some_iff.mp hopen
  obtain ⟨e, he, hv⟩ := afterNewline?_some hline
  obtain ⟨w, x, hw, hu, hnext⟩ := optionalPart?_some hpart
  obtain ⟨y, hdivider, hnext⟩ := Option.bind_eq_some_iff.mp hnext
  obtain ⟨z, hmark', hline'⟩ := Option.bind_eq_some_iff.mp hdivider
  obtain ⟨e', he', hz⟩ := afterNewline?_some hline'
  obtain ⟨w', x', hw', hy, hclose⟩ := optionalPart?_some hnext
  refine ⟨e, w, e', w', rest, he, hw, he', hw', ?_, rfl⟩
  rw [afterMark?_eq_some hmark, hv, hu, afterMark?_eq_some hmark', hz, hy, afterMark?_eq_some hclose]
  simp

/-- Something stands between the markers of a block, behind the start of the first. -/
def Found.Holds (f : Found) (mark : Text) : Prop := ∃ u v, u ≠ [] ∧ f.opens = u ++ mark ++ v ++ f.closes

theorem Written.infix {w : Text} (h : Written s w) (hne : mark ≠ []) (hs : mark <:+: s) : mark <:+: w := by
  rcases h with ⟨rfl, rfl⟩ | ⟨e, -, rfl⟩
  · exact absurd (List.infix_nil.mp hs) hne
  · exact hs.trans (List.infix_append' [] s e)

theorem Found.Stands.holds {f : Found} (h : f.Stands) (hne : mark ≠ [])
    (hm : mark <:+: f.block.search ∨ mark <:+: f.block.replacement) : f.Holds mark := by
  obtain ⟨e, w, e', w', rest, he, hw, he', hw', hopens, -⟩ := h
  rcases hm with hm | hm
  · obtain ⟨x, y, hx⟩ := hw.infix hne hm
    refine ⟨openMark ++ e ++ x, y ++ divider ++ e' ++ w', by simp [marks_ne_nil.1], ?_⟩
    rw [hopens, ← hx]
    simp
  · obtain ⟨x, y, hx⟩ := hw'.infix hne hm
    refine ⟨openMark ++ e ++ w ++ divider ++ e' ++ x, y, by simp [marks_ne_nil.1], ?_⟩
    rw [hopens, ← hx]
    simp

/-- A block stands in the text before what follows it. -/
theorem Found.Stands.suffix {f : Found} (h : f.Stands) : ∃ u, u ≠ [] ∧ f.opens = openMark ++ u ++ f.closes := by
  obtain ⟨e, w, e', w', rest, he, -, -, -, hopens, -⟩ := h
  have he : e ≠ [] := by rcases he with rfl | rfl <;> simp
  refine ⟨e ++ w ++ divider ++ e' ++ w', by simp [he], ?_⟩
  rw [hopens]
  simp

def findAll (t : Text) : List Found :=
  match t with
  | [] => []
  | c :: r =>
    match block? (c :: r) with
    | some (b, rest) => if rest.length ≤ r.length then ⟨b, c :: r, closeMark ++ rest⟩ :: findAll rest else []
    | none => findAll r
termination_by t.length
decreasing_by all_goals simp only [List.length_cons]; omega

theorem block?_shortens (h : block? t = some (b, rest)) : rest.length < t.length := by
  obtain ⟨u, -, hopens⟩ := (block?_stands h).suffix
  have hlength := congrArg List.length hopens
  have hpos := List.length_pos_iff.mpr marks_ne_nil.1
  simp only [List.length_append] at hlength
  omega

theorem findAll_block (h : block? t = some (b, rest)) : findAll t = ⟨b, t, closeMark ++ rest⟩ :: findAll rest := by
  have hlt := block?_shortens h
  cases t with
  | nil => cases hlt
  | cons c r =>
    rw [findAll, h]
    exact if_pos (Nat.le_of_lt_succ hlt)

theorem findAll_skip {c : CodePoint} (h : block? (c :: r) = none) : findAll (c :: r) = findAll r := by
  rw [findAll, h]

/-- A text is empty, starts with a block, or has a first character where no block starts. -/
@[elab_as_elim]
theorem block_induction {motive : Text → Prop} (nil : motive [])
    (block : ∀ {t b rest}, block? t = some (b, rest) → motive rest → motive t)
    (skip : ∀ {c r}, block? (c :: r) = none → motive r → motive (c :: r)) (t : Text) : motive t := by
  induction t using findAll.induct with
  | case1 => exact nil
  | case2 c r b rest h hle ih => exact block h ih
  | case3 c r b rest h hle => exact absurd (Nat.le_of_lt_succ (block?_shortens h)) hle
  | case4 c r h ih => exact skip h ih

theorem parse_eq_findAll (t : Text) : parse t = (findAll t).map (·.block) := by
  induction t using block_induction with
  | nil => simp [parse, findAll]
  | block h ih => rw [parse_block h (block?_shortens h), findAll_block h, List.map_cons, ih]
  | skip h ih =>
    rw [parse, findAll_skip h, h]
    exact ih

theorem findAll_stands (t : Text) : ∀ f ∈ findAll t, f.Stands := by
  induction t using block_induction with
  | nil => simp [findAll]
  | block h ih =>
    rw [findAll_block h, List.forall_mem_cons]
    exact ⟨block?_stands h, ih⟩
  | skip h ih =>
    rw [findAll_skip h]
    exact ih

/-- Every block opens at a marker of its own, in the order of the text. -/
theorem opens_sublist (t : Text) : ((findAll t).map (·.opens)).Sublist (occurrences openMark t) := by
  induction t using block_induction with
  | nil => simp [findAll]
  | @block t b rest h ih =>
    obtain ⟨u, -, hopens⟩ := (block?_stands h).suffix
    have ht : t = openMark ++ (u ++ closeMark ++ rest) := by simpa using hopens
    rw [findAll_block h, List.map_cons, ht, occurrences_mark_append marks_ne_nil.1]
    apply (ih.trans ?_).cons_cons
    rw [← List.append_assoc]
    exact occurrences_append openMark _ rest
  | @skip c r h ih =>
    rw [findAll_skip h]
    exact ih.trans (occurrences_append openMark [c] r)

/-- Every block closes at a marker of its own. -/
theorem closes_sublist (t : Text) : ((findAll t).map (·.closes)).Sublist (occurrences closeMark t) := by
  induction t using block_induction with
  | nil => simp [findAll]
  | @block t b rest h ih =>
    obtain ⟨u, -, hopens⟩ := (block?_stands h).suffix
    have ht : t = openMark ++ u ++ (closeMark ++ rest) := hopens
    have hhere := occurrences_append closeMark (openMark ++ u) (closeMark ++ rest)
    rw [← ht, occurrences_mark_append marks_ne_nil.2] at hhere
    rw [findAll_block h, List.map_cons]
    exact ((ih.trans (occurrences_append closeMark _ rest)).cons_cons _).trans hhere
  | @skip c r h ih =>
    rw [findAll_skip h]
    exact ih.trans (occurrences_append closeMark [c] r)

def Found.Before (f g : Found) : Prop := ∃ u, f.closes = closeMark ++ u ++ g.opens

theorem findAll_ordered (t : Text) : (findAll t).Pairwise Found.Before := by
  induction t using block_induction with
  | nil => simp [findAll]
  | @block t b rest h ih =>
    rw [findAll_block h]
    refine List.pairwise_cons.mpr ⟨fun g hg => ?_, ih⟩
    have hopens := (opens_sublist rest).subset (List.mem_map_of_mem hg)
    obtain ⟨u, hu⟩ := (mem_occurrences_iff.mp hopens).2
    exact ⟨u, by rw [List.append_assoc, hu]⟩
  | skip h ih =>
    rw [findAll_skip h]
    exact ih

theorem Found.Stands.closes_lt_opens {f : Found} (h : f.Stands) : f.closes.length < f.opens.length := by
  obtain ⟨u, hu, hopens⟩ := h.suffix
  have hlength := congrArg List.length hopens
  have hpos := List.length_pos_iff.mpr hu
  simp only [List.length_append] at hlength
  omega

theorem Found.Before.opens_lt_closes {f g : Found} (h : f.Before g) : g.opens.length < f.closes.length := by
  obtain ⟨u, hu⟩ := h
  have hlength := congrArg List.length hu
  have hpos := List.length_pos_iff.mpr marks_ne_nil.2
  simp only [List.length_append] at hlength
  omega

/-- Two blocks of a text are the same, or one stands before the other. -/
theorem findAll_apart {f g : Found} (hf : f ∈ findAll t) (hg : g ∈ findAll t) : f = g ∨ f.Before g ∨ g.Before f := by
  have hsymm : Std.Symm fun f g : Found => f.Before g ∨ g.Before f := ⟨fun _ _ => Or.symm⟩
  have hordered : (findAll t).Pairwise fun f g => f.Before g ∨ g.Before f := (findAll_ordered t).imp Or.inl
  by_cases hne : f = g
  · exact Or.inl hne
  · exact Or.inr (hordered.forall hf hg hne)

/-- Between the markers of a block no block opens or closes. -/
theorem no_marker_between {f g : Found} (hf : f ∈ findAll t) (hg : g ∈ findAll t)
    (hs : s = g.opens ∨ s = g.closes) : ¬ (f.closes.length < s.length ∧ s.length < f.opens.length) := by
  have hfs := (findAll_stands t f hf).closes_lt_opens
  have hgs := (findAll_stands t g hg).closes_lt_opens
  rcases findAll_apart hf hg with rfl | h | h
  · rcases hs with rfl | rfl <;> omega
  · have hlt := h.opens_lt_closes
    rcases hs with rfl | rfl <;> omega
  · have hlt := h.opens_lt_closes
    rcases hs with rfl | rfl <;> omega

theorem Found.Holds.between {f : Found} (h : f.Holds mark) (hne : mark ≠ []) (hf : f ∈ findAll t) :
    ∃ s ∈ occurrences mark t, f.closes.length < s.length ∧ s.length < f.opens.length := by
  obtain ⟨u, v, hu, hopens⟩ := h
  have hinside : f.opens <:+ t :=
    (mem_occurrences_iff.mp ((opens_sublist t).subset (List.mem_map_of_mem hf))).2
  have hlength := congrArg List.length hopens
  have hu := List.length_pos_iff.mpr hu
  have hmark := List.length_pos_iff.mpr hne
  refine ⟨mark ++ v ++ f.closes, mem_occurrences_iff.mpr ⟨by simp, ?_⟩, ?_⟩
  · exact (List.IsSuffix.trans ⟨u, by simp [hopens]⟩ hinside)
  · simp only [List.length_append] at hlength ⊢
    omega

/-- How a text holds its blocks when none has swallowed another: each is written between its own markers, one
behind the other, and there are no other markers. -/
structure Delimited (t : Text) : Prop where
  blocks : parse t = (findAll t).map (·.block)
  stands : ∀ f ∈ findAll t, f.Stands
  ordered : (findAll t).Pairwise Found.Before
  opens : occurrences openMark t = (findAll t).map (·.opens)
  closes : occurrences closeMark t = (findAll t).map (·.closes)
  clean : ∀ b ∈ parse t, ∀ mark ∈ [openMark, closeMark], ¬ mark <:+: b.search ∧ ¬ mark <:+: b.replacement

def Stray (t : Text) : Prop :=
  (∃ s ∈ occurrences openMark t, s ∉ (findAll t).map (·.opens)) ∨
    ∃ s ∈ occurrences closeMark t, s ∉ (findAll t).map (·.closes)

theorem attempts_eq (t : Text) :
    attempts t = max (occurrences openMark t).length (occurrences closeMark t).length := by
  rw [attempts, count_eq_length marks_unbordered.1 marks_ne_nil.1, count_eq_length marks_unbordered.2 marks_ne_nil.2]

theorem length_parse_le (t : Text) : (parse t).length ≤ attempts t := by
  have hopens := (opens_sublist t).length_le
  rw [List.length_map] at hopens
  rw [parse_eq_findAll, List.length_map, attempts_eq]
  exact hopens.trans (Nat.le_max_left _ _)

theorem not_stray_iff : ¬ Stray t ↔
    occurrences openMark t = (findAll t).map (·.opens) ∧ occurrences closeMark t = (findAll t).map (·.closes) := by
  constructor
  · intro h
    simp only [Stray, not_or, not_exists, not_and, not_not] at h
    have hopens := (nodup_occurrences openMark t).length_le_of_subset fun s hs => h.1 s hs
    have hcloses := (nodup_occurrences closeMark t).length_le_of_subset fun s hs => h.2 s hs
    exact ⟨((opens_sublist t).eq_of_length_le hopens).symm, ((closes_sublist t).eq_of_length_le hcloses).symm⟩
  · rintro ⟨hopens, hcloses⟩ (⟨s, hs, hnot⟩ | ⟨s, hs, hnot⟩)
    · exact hnot (hopens ▸ hs)
    · exact hnot (hcloses ▸ hs)

/-- As many blocks are read as are attempted just if every marker belongs to a block. -/
theorem length_eq_attempts_iff : (parse t).length = attempts t ↔ ¬ Stray t := by
  rw [not_stray_iff, parse_eq_findAll, List.length_map, attempts_eq]
  have hopens := (opens_sublist t).length_le
  have hcloses := (closes_sublist t).length_le
  rw [List.length_map] at hopens hcloses
  constructor
  · intro h
    have hmax := Nat.le_max_left (occurrences openMark t).length (occurrences closeMark t).length
    have hmax' := Nat.le_max_right (occurrences openMark t).length (occurrences closeMark t).length
    refine ⟨((opens_sublist t).eq_of_length_le ?_).symm, ((closes_sublist t).eq_of_length_le ?_).symm⟩ <;>
    · rw [List.length_map]
      omega
  · intro ⟨ho, hc⟩
    rw [ho, hc, List.length_map, List.length_map, Nat.max_self]

/-- A text without stray marks is made of blocks and what is between them. -/
theorem delimited_of_not_stray (h : ¬ Stray t) : Delimited t := by
  obtain ⟨hopens, hcloses⟩ := not_stray_iff.mp h
  refine ⟨parse_eq_findAll t, findAll_stands t, findAll_ordered t, hopens, hcloses, ?_⟩
  have hplace : ∀ mark ∈ [openMark, closeMark], mark ≠ [] ∧
      ∀ s ∈ occurrences mark t, ∃ g ∈ findAll t, s = g.opens ∨ s = g.closes := by
    intro mark hmark
    simp only [List.mem_cons, List.not_mem_nil, or_false] at hmark
    rcases hmark with rfl | rfl
    · refine ⟨marks_ne_nil.1, fun s hs => ?_⟩
      obtain ⟨g, hg, rfl⟩ := List.mem_map.mp (hopens ▸ hs)
      exact ⟨g, hg, Or.inl rfl⟩
    · refine ⟨marks_ne_nil.2, fun s hs => ?_⟩
      obtain ⟨g, hg, rfl⟩ := List.mem_map.mp (hcloses ▸ hs)
      exact ⟨g, hg, Or.inr rfl⟩
  intro b hb mark hmark
  obtain ⟨hne, hmarks⟩ := hplace mark hmark
  rw [parse_eq_findAll] at hb
  obtain ⟨f, hf, rfl⟩ := List.mem_map.mp hb
  rw [← not_or]
  intro hm
  obtain ⟨s, hs, hbetween⟩ := ((findAll_stands t f hf).holds hne hm).between hne hf
  obtain ⟨g, hg, hplaced⟩ := hmarks s hs
  exact no_marker_between hf hg hplaced hbetween

end CodeAgent.Blocks
