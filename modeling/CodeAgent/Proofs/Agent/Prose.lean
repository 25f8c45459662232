import CodeAgent.Host.Usual
import CodeAgent.Proofs.Agent.Reply

namespace CodeAgent.Reply

variable {t t' r rest before after : Text} {c : CodePoint}

/-- Text without braces. -/
structure Prose (t : Text) : Prop where
  noOpen : openBrace ∉ t
  noClose : closeBrace ∉ t

def Blank (t : Text) : Prop := ∀ c ∈ t, c.isBlank = true

theorem Blank.prose (h : Blank t) : Prose t where
  noOpen hm := absurd (h _ hm) (by decide)
  noClose hm := absurd (h _ hm) (by decide)

theorem skipBlanks_split (t : Text) : ∃ s, Blank s ∧ t = s ++ skipBlanks t :=
  ⟨t.takeWhile CodePoint.isBlank, fun _ hc => List.mem_takeWhile_imp hc, List.takeWhile_append_dropWhile.symm⟩

theorem skipBlanks_append {s : Text} (hs : Blank s) (hc : c.isBlank = false) : skipBlanks (s ++ c :: r) = c :: r := by
  rw [skipBlanks, List.dropWhile_append_of_pos hs, List.dropWhile_cons_of_neg (by simp [hc])]

theorem expect?_eq_some {word : Text} : expect? word t = some r ↔ t = word ++ r := by
  unfold expect?
  constructor
  · intro h
    split at h
    · rename_i hp
      obtain ⟨r', rfl⟩ := List.isPrefixOf_iff_prefix.mp hp
      rw [List.drop_left] at h
      rw [Option.some.inj h]
    · cases h
  · rintro rfl
    rw [if_pos (List.isPrefixOf_iff_prefix.mpr (List.prefix_append word r)), List.drop_left]

/-- What stands in an opening before the name: a brace, the key, a colon and a quote, with blanks between them. -/
def Head (head : Text) : Prop :=
  ∃ s₁ s₂ s₃, Blank s₁ ∧ Blank s₂ ∧ Blank s₃ ∧
    head = "\x7b" ++ (s₁ ++ ("\"tool\"" ++ (s₂ ++ (":" ++ (s₃ ++ "\"")))))

theorem Head.split {head : Text} (h : Head head) : ∃ a, head = openBrace :: a ∧ openBrace ∉ a ∧ doubleQuote ∈ a := by
  obtain ⟨s₁, s₂, s₃, h₁, h₂, h₃, rfl⟩ := h
  refine ⟨s₁ ++ ("\"tool\"" ++ (s₂ ++ (":" ++ (s₃ ++ "\"")))), rfl, ?_, ?_⟩
  · simp only [List.mem_append, not_or]
    exact ⟨h₁.prose.noOpen, by decide, h₂.prose.noOpen, by decide, h₃.prose.noOpen, by decide⟩
  · exact List.mem_append_right _ (List.mem_append_left _ (by decide))

def nameAndRest (t : Text) : Option Text :=
  match t.span (· ≠ doubleQuote) with
  | ([], _) => none
  | (_, []) => none
  | (_, _ :: rest) => some rest

/-- A name ends at the first quote behind it. -/
theorem nameAndRest_eq_some : nameAndRest t = some rest ↔
    ∃ name, name ≠ [] ∧ doubleQuote ∉ name ∧ t = name ++ doubleQuote :: rest := by
  have hname : doubleQuote ∉ t.takeWhile (· ≠ doubleQuote) := fun hm => by
    simpa using List.mem_takeWhile_imp hm
  have ht : t = t.takeWhile (· ≠ doubleQuote) ++ t.dropWhile (· ≠ doubleQuote) :=
    List.takeWhile_append_dropWhile.symm
  rw [nameAndRest, List.span_eq_takeWhile_dropWhile]
  constructor
  · intro h
    cases hd : t.dropWhile (· ≠ doubleQuote) with
    | nil =>
      rw [hd] at h
      cases hn : t.takeWhile (· ≠ doubleQuote) <;> rw [hn] at h <;> cases h
    | cons c r =>
      have hc : c = doubleQuote := by
        have hhead := List.head?_dropWhile_not (· ≠ doubleQuote) t
        rw [hd] at hhead
        simpa using hhead
      subst hc
      rw [hd] at h ht
      cases hn : t.takeWhile (· ≠ doubleQuote) with
      | nil =>
        rw [hn] at h
        cases h
      | cons b name =>
        rw [hn] at h ht hname
        cases h
        exact ⟨b :: name, List.cons_ne_nil b name, hname, ht⟩
  · rintro ⟨name, hne, hquote, rfl⟩
    have hall : ∀ c ∈ name, decide (c ≠ doubleQuote) = true := fun c hc => by
      simpa using fun he : c = doubleQuote => hquote (he ▸ hc)
    have htake : (name ++ doubleQuote :: rest).takeWhile (· ≠ doubleQuote) = name := by
      rw [List.takeWhile_append_of_pos hall, List.takeWhile_cons_of_neg (by simp), List.append_nil]
    have hdrop : (name ++ doubleQuote :: rest).dropWhile (· ≠ doubleQuote) = doubleQuote :: rest := by
      rw [List.dropWhile_append_of_pos hall, List.dropWhile_cons_of_neg (by simp)]
    rw [htake, hdrop]
    cases name with
    | nil => exact absurd rfl hne
    | cons b name => rfl

/-- An opening is a head, a name without quotes, and the quote that closes the name. -/
theorem afterOpening?_eq_some : afterOpening? t = some rest ↔
    ∃ head name, Head head ∧ name ≠ [] ∧ doubleQuote ∉ name ∧ t = head ++ (name ++ doubleQuote :: rest) := by
  have hsteps : afterOpening? t = some rest ↔ ∃ r₁ r₂ r₃ r₄, t = "\x7b" ++ r₁ ∧ skipBlanks r₁ = "\"tool\"" ++ r₂ ∧
      skipBlanks r₂ = ":" ++ r₃ ∧ skipBlanks r₃ = "\"" ++ r₄ ∧ nameAndRest r₄ = some rest := by
    simp only [← expect?_eq_some]
    unfold afterOpening?
    simp only [Option.bind_eq_bind, Option.bind_eq_some_iff]
    constructor
    · rintro ⟨r₁, h₁, r₂, h₂, r₃, h₃, r₄, h₄, h⟩
      exact ⟨r₁, r₂, r₃, r₄, h₁, h₂, h₃, h₄, h⟩
    · rintro ⟨r₁, r₂, r₃, r₄, h₁, h₂, h₃, h₄, h⟩
      exact ⟨r₁, h₁, r₂, h₂, r₃, h₃, r₄, h₄, h⟩
  simp only [hsteps, nameAndRest_eq_some]
  constructor
  · rintro ⟨r₁, r₂, r₃, r₄, rfl, h₁, h₂, h₃, name, hne, hquote, rfl⟩
    obtain ⟨s₁, hs₁, e₁⟩ := skipBlanks_split r₁
    obtain ⟨s₂, hs₂, e₂⟩ := skipBlanks_split r₂
    obtain ⟨s₃, hs₃, e₃⟩ := skipBlanks_split r₃
    refine ⟨_, name, ⟨s₁, s₂, s₃, hs₁, hs₂, hs₃, rfl⟩, hne, hquote, ?_⟩
    rw [e₁, h₁, e₂, h₂, e₃, h₃]
    simp only [List.append_assoc]
  · rintro ⟨_, name, ⟨s₁, s₂, s₃, hs₁, hs₂, hs₃, rfl⟩, hne, hquote, rfl⟩
    refine ⟨s₁ ++ ("\"tool\"" ++ (s₂ ++ (":" ++ (s₃ ++ ("\"" ++ (name ++ doubleQuote :: rest)))))), _, _,
      name ++ doubleQuote :: rest, ?_, skipBlanks_append hs₁ (by decide), skipBlanks_append hs₂ (by decide),
      skipBlanks_append hs₃ (by decide), name, hne, hquote, rfl⟩
    simp only [List.append_assoc]

theorem afterOpening?_mem (h : afterOpening? t = some rest) : openBrace ∈ t.head? ∧ doubleQuote ∈ t := by
  obtain ⟨head, name, hhead, -, -, rfl⟩ := afterOpening?_eq_some.mp h
  obtain ⟨a, rfl, -, -⟩ := hhead.split
  exact ⟨rfl, by simp⟩

/-- An opening stays one, whatever stands behind it. -/
theorem afterOpening?_append (h : afterOpening? t = some rest) (after : Text) :
    afterOpening? (t ++ after) = some (rest ++ after) := by
  obtain ⟨head, name, hhead, hne, hquote, rfl⟩ := afterOpening?_eq_some.mp h
  exact afterOpening?_eq_some.mpr ⟨head, name, hhead, hne, hquote, by simp⟩

theorem afterOpening?_length (h : afterOpening? (c :: r) = some rest) : rest.length ≤ r.length := by
  obtain ⟨head, name, hhead, -, -, he⟩ := afterOpening?_eq_some.mp h
  have hlength := congrArg List.length he
  simp only [List.length_cons, List.length_append] at hlength
  omega

/-- Where only the text behind completes an opening, that ends in this text, and what it covers before has no quote
behind a second brace. -/
theorem afterOpening?_completed (hno : afterOpening? (c :: r) = none)
    (h : afterOpening? (c :: (r ++ after)) = some rest) :
    (∃ a b, r = a ++ b ∧ openBrace ∉ a ∧ doubleQuote ∉ b) ∧ rest <:+ after := by
  obtain ⟨head, name, hhead, hne, hquote, he⟩ := afterOpening?_eq_some.mp h
  have hopening (u : Text) : afterOpening? (head ++ name ++ [doubleQuote] ++ u) = some u :=
    afterOpening?_eq_some.mpr ⟨head, name, hhead, hne, hquote, by simp⟩
  have hmatch : c :: r ++ after = head ++ name ++ [doubleQuote] ++ rest := by
    rw [List.cons_append, he]
    simp
  rcases List.append_eq_append_iff.mp hmatch with ⟨u, hcovered, hafter⟩ | ⟨u, hinside, -⟩
  · refine ⟨?_, u, hafter.symm⟩
    obtain ⟨a, rfl, hbrace, -⟩ := hhead.split
    rcases List.eq_nil_or_concat u with rfl | ⟨v, q, rfl⟩
    · have hopened := hopening []
      rw [List.append_nil, hcovered, List.append_nil, hno] at hopened
      cases hopened
    · rw [List.concat_eq_append, ← List.append_assoc] at hcovered
      obtain ⟨hv, -⟩ := List.append_inj' hcovered rfl
      rw [List.cons_append, List.cons_append, List.cons.injEq] at hv
      rcases List.append_eq_append_iff.mp hv.2 with ⟨w, rfl, rfl⟩ | ⟨w, rfl, rfl⟩
      · exact ⟨a, w, rfl, hbrace, fun hm => hquote (List.mem_append_left v hm)⟩
      · exact ⟨r, [], (List.append_nil r).symm, fun hm => hbrace (List.mem_append_left w hm), List.not_mem_nil⟩
  · rw [hinside, hopening] at hno
    cases hno

theorem openings_cons_of_some (h : afterOpening? (c :: r) = some rest) :
    openings (c :: r) = (c :: r, rest) :: openings rest := by
  rw [openings, h]
  exact if_pos (afterOpening?_length h)

theorem openings_cons_of_none (h : afterOpening? (c :: r) = none) : openings (c :: r) = openings r := by
  rw [openings, h]

/-- Text without openings in front of a text adds none, however the text goes on. -/
theorem openings_append_left (hb : openBrace ∉ before) (t : Text) : openings (before ++ t) = openings t := by
  induction before with
  | nil => rfl
  | cons c before ih =>
    rw [List.mem_cons, not_or] at hb
    have hnone : afterOpening? (c :: (before ++ t)) = none := by
      cases h : afterOpening? (c :: (before ++ t)) with
      | none => rfl
      | some rest => exact absurd (Option.some.inj (afterOpening?_mem h).1).symm hb.1
    rw [List.cons_append, openings_cons_of_none hnone, ih hb.2]

theorem openings_of_noOpen (h : openBrace ∉ t) : openings t = [] := by
  simpa [openings] using openings_append_left h []

theorem openings_of_noQuote (h : doubleQuote ∉ t) : openings t = [] := by
  induction t with
  | nil => rw [openings]
  | cons c r ih =>
    have hnone : afterOpening? (c :: r) = none := by
      cases hr : afterOpening? (c :: r) with
      | none => rfl
      | some rest => exact absurd (afterOpening?_mem hr).2 h
    rw [openings_cons_of_none hnone, ih fun hm => h (List.mem_cons_of_mem c hm)]

theorem closings_of_noClose (h : closeBrace ∉ t) (n : Nat) : closings n t = [] := by
  induction t generalizing n with
  | nil => rfl
  | cons c r ih =>
    rw [List.mem_cons, not_or] at h
    rw [closings, if_neg (Ne.symm h.1), ih h.2]

def extend (after : Text) (o : Text × Text) : Text × Text := (o.1 ++ after, o.2 ++ after)

/-- Prose behind a text leaves its openings, and can add only ones that have no closing brace after them. -/
theorem openings_append (hq : Prose after) (t : Text) :
    ∃ more, openings (t ++ after) = (openings t).map (extend after) ++ more ∧ ∀ o ∈ more, closeBrace ∉ o.2 := by
  fun_induction openings t with
  | case1 => exact ⟨[], by simp [openings_of_noOpen hq.noOpen], by simp⟩
  | case2 c r rest h _ ih =>
    obtain ⟨more, hmore, hclose⟩ := ih
    have hextended : afterOpening? (c :: (r ++ after)) = some (rest ++ after) := afterOpening?_append h after
    exact ⟨more, by rw [List.cons_append, openings_cons_of_some hextended, hmore]; rfl, hclose⟩
  | case3 c r rest h hle => exact absurd (afterOpening?_length h) hle
  | case4 c r hno ih =>
    rw [List.cons_append]
    cases h : afterOpening? (c :: (r ++ after)) with
    | none =>
      rw [openings_cons_of_none h]
      exact ih
    | some rest =>
      obtain ⟨⟨a, b, rfl, hbrace, hquote⟩, u, hrest⟩ := afterOpening?_completed hno h
      have hnothing : openings (a ++ b) = [] := by
        rw [openings_append_left hbrace, openings_of_noQuote hquote]
      have hprose : openBrace ∉ rest := fun hm => hq.noOpen (hrest ▸ List.mem_append_right u hm)
      have hclose : closeBrace ∉ rest := fun hm => hq.noClose (hrest ▸ List.mem_append_right u hm)
      refine ⟨[(c :: (a ++ b ++ after), rest)], ?_, by simpa using hclose⟩
      rw [hnothing, openings_cons_of_some h, openings_of_noOpen hprose]
      rfl

theorem closings_append (hq : closeBrace ∉ after) (n : Nat) (t : Text) : closings n (t ++ after) = closings n t := by
  induction t generalizing n with
  | nil => exact closings_of_noClose hq n
  | cons c r ih => rw [List.cons_append, closings, closings, ih]

def spansFrom (o : Text × Text) : List Text := (closings (o.1.length - o.2.length) o.2).map o.1.take

theorem spansFrom_extend (hq : closeBrace ∉ after) {o : Text × Text} (ho : o.2.length ≤ o.1.length) :
    spansFrom (extend after o) = spansFrom o := by
  have hoffset : (o.1 ++ after).length - (o.2 ++ after).length = o.1.length - o.2.length := by
    rw [List.length_append, List.length_append, Nat.add_sub_add_right]
  rw [spansFrom, spansFrom, extend, hoffset, closings_append hq]
  refine List.map_congr_left fun n hn => List.take_append_of_le_length ?_
  have hbounds := le_of_mem_closings hn
  omega

theorem candidates_eq (t : Text) : candidates t = (openings t).flatMap spansFrom := rfl

/-- The search goes through the same spans. -/
theorem candidates_append (hq : Prose after) (t : Text) : candidates (t ++ after) = candidates t := by
  obtain ⟨more, hmore, hclose⟩ := openings_append hq t
  have hold : ((openings t).map (extend after)).flatMap spansFrom = (openings t).flatMap spansFrom := by
    rw [List.flatMap_map]
    exact List.flatMap_congr fun o ho => spansFrom_extend hq.noClose (length_of_mem_openings ho)
  have hnew : more.flatMap spansFrom = [] := by
    refine List.flatMap_eq_nil_iff.mpr fun o ho => ?_
    rw [spansFrom, closings_of_noClose (hclose o ho), List.map_nil]
  rw [candidates_eq, candidates_eq, hmore, List.flatMap_append, hold, hnew, List.append_nil]

theorem candidates_append_left (hp : Prose before) (t : Text) : candidates (before ++ t) = candidates t := by
  rw [candidates_eq, candidates_eq, openings_append_left hp.noOpen]

theorem outerSpan?_append_left (hp : Prose before) (t : Text) : outerSpan? (before ++ t) = outerSpan? t := by
  have hall : ∀ c ∈ before, decide (c ≠ openBrace) = true := fun c hc => by
    simpa using fun he : c = openBrace => hp.noOpen (he ▸ hc)
  rw [outerSpan?, outerSpan?, List.dropWhile_append_of_pos hall]

theorem dropEndWhile_append {p : CodePoint → Bool} (h : ∀ c ∈ after, p c = true) (t : Text) :
    Text.dropEndWhile p (t ++ after) = Text.dropEndWhile p t := by
  rw [Text.dropEndWhile, Text.dropEndWhile, List.reverse_append,
    List.dropWhile_append_of_pos fun c hc => h c (List.mem_reverse.mp hc)]

theorem outerSpan?_append (hq : Prose after) (t : Text) : outerSpan? (t ++ after) = outerSpan? t := by
  have hnoOpen : ∀ c ∈ after, decide (c ≠ openBrace) = true := fun c hc => by
    simpa using fun he : c = openBrace => hq.noOpen (he ▸ hc)
  have hnoClose : ∀ c ∈ after, decide (c ≠ closeBrace) = true := fun c hc => by
    simpa using fun he : c = closeBrace => hq.noClose (he ▸ hc)
  have hspan : Text.dropEndWhile (· ≠ closeBrace) ((t ++ after).dropWhile (· ≠ openBrace)) =
      Text.dropEndWhile (· ≠ closeBrace) (t.dropWhile (· ≠ openBrace)) := by
    rw [List.dropWhile_append]
    split
    · rename_i hnothing
      rw [List.isEmpty_iff.mp hnothing, List.dropWhile_eq_nil_iff.mpr hnoOpen]
    · rw [dropEndWhile_append hnoClose]
  rw [outerSpan?, hspan, outerSpan?]

theorem trim_split (t : Text) : ∃ front back, Blank front ∧ Blank back ∧ t = front ++ t.trim ++ back := by
  refine ⟨t.takeWhile CodePoint.isBlank,
    ((t.dropWhile CodePoint.isBlank).reverse.takeWhile CodePoint.isBlank).reverse,
    fun _ hc => List.mem_takeWhile_imp hc, fun _ hc => List.mem_takeWhile_imp (List.mem_reverse.mp hc), ?_⟩
  rw [Text.trim, Text.trimWith, Text.dropEndWhile, List.append_assoc, ← List.reverse_append,
    List.takeWhile_append_dropWhile, List.reverse_reverse, List.takeWhile_append_dropWhile]

/-- The blanks around a reply are prose, too. -/
theorem outerSpan?_trim_eq (t : Text) : outerSpan? t.trim = outerSpan? t := by
  obtain ⟨front, back, hfront, hback, ht⟩ := trim_split t
  conv_rhs => rw [ht, outerSpan?_append hback.prose, outerSpan?_append_left hfront.prose]

theorem candidates_trim (t : Text) : candidates t.trim = candidates t := by
  obtain ⟨front, back, hfront, hback, ht⟩ := trim_split t
  conv_rhs => rw [ht, candidates_append hback.prose, candidates_append_left hfront.prose]

section

variable [Host]

/-- What a reply is understood as depends on nothing but its outer span and the spans that the search goes through. -/
theorem toolCall?_congr (ho : outerSpan? t = outerSpan? t') (hc : candidates t = candidates t') :
    toolCall? t = toolCall? t' := by
  rw [← outerSpan?_trim_eq, ← outerSpan?_trim_eq t'] at ho
  rw [← candidates_trim, ← candidates_trim t'] at hc
  rw [toolCall?, toolCall?, callObject?, callObject?, scan_eq, scan_eq, ho, hc]

/-- Whatever a reply is understood as, and also where its reading is given up, prose around it changes nothing. -/
theorem toolCall?_prose (hp : Prose before) (hq : Prose after) (t : Text) :
    toolCall? (before ++ t ++ after) = toolCall? t :=
  toolCall?_congr (by rw [outerSpan?_append hq, outerSpan?_append_left hp])
    (by rw [candidates_append hq, candidates_append_left hp])

instance : DecidablePred Prose := fun t =>
  decidable_of_iff (openBrace ∉ t ∧ closeBrace ∉ t) ⟨fun h => ⟨h.1, h.2⟩, fun h => ⟨h.noOpen, h.noClose⟩⟩

end

attribute [local instance] Host.usual

/-- A name that is open at the end of a malformed reply is closed by the first quote behind it. The call in the reply is
found with this text behind it, too. -/
theorem open_name_prose :
    toolCall? ("So: " ++ "\x7bx \x7b\"tool\": \"run_tests\"\x7d \x7b\"tool\": \"" ++ "\" done \"") =
      .ok (some (.valid .runTests)) := by
  have hcall : toolCall? "\x7bx \x7b\"tool\": \"run_tests\"\x7d \x7b\"tool\": \"" = .ok (some (.valid .runTests)) := by
    cbv
  rw [toolCall?_prose (by decide) (by decide), hcall]

end CodeAgent.Reply
