import CodeAgent.Host.Usual
import CodeAgent.Proofs.Agent.Prose
import CodeAgent.Proofs.Json.Front

namespace CodeAgent.Reply

variable {t rest : Text} {s e m k : Nat} {fields : List (Text × Json)}

/-- A brace, the key, a colon and a quoted name that is not empty. -/
def Opening (o : Text) : Prop :=
  ∃ head name, Head head ∧ name ≠ [] ∧ doubleQuote ∉ name ∧ o = head ++ (name ++ [doubleQuote])

theorem afterOpening?_iff : afterOpening? t = some rest ↔ ∃ o, Opening o ∧ t = o ++ rest := by
  rw [afterOpening?_eq_some]
  constructor
  · rintro ⟨head, name, hhead, hne, hquote, rfl⟩
    exact ⟨_, ⟨head, name, hhead, hne, hquote, rfl⟩, by simp⟩
  · rintro ⟨_, ⟨head, name, hhead, hne, hquote, rfl⟩, rfl⟩
    exact ⟨head, name, hhead, hne, hquote, by simp⟩

theorem Opening.ne_nil {o : Text} (h : Opening o) : o ≠ [] := by
  obtain ⟨head, name, -, -, -, rfl⟩ := h
  simp

/-- The text from the place `s` up to the place `m` is an opening. -/
def Opens (t : Text) (s m : Nat) : Prop := m ≤ t.length ∧ Opening (t.extract s m)

theorem Opens.lt (h : Opens t s m) : s < m := by
  have hpos := List.length_pos_iff.mpr h.2.ne_nil
  rw [List.length_take] at hpos
  omega

theorem Opens.after (h : Opens t s m) : afterOpening? (t.drop s) = some (t.drop m) := by
  have hdrop : (t.drop s).drop (m - s) = t.drop m := by
    rw [List.drop_drop, Nat.add_sub_cancel' (Nat.le_of_lt h.lt)]
  exact afterOpening?_iff.mpr ⟨_, h.2, by rw [← hdrop, List.extract, List.take_append_drop]⟩

theorem opens_of_after (h : afterOpening? (t.drop s) = some rest) : ∃ m, Opens t s m ∧ rest = t.drop m := by
  obtain ⟨o, ho, hdrop⟩ := afterOpening?_iff.mp h
  have hpos := List.length_pos_iff.mpr ho.ne_nil
  have hlength := congrArg List.length hdrop
  rw [List.length_drop, List.length_append] at hlength
  refine ⟨s + o.length, ⟨by omega, ?_⟩, ?_⟩
  · rw [List.extract, hdrop, Nat.add_sub_cancel_left, List.take_left]
    exact ho
  · rw [← List.drop_drop, hdrop, List.drop_left]

/-- An opening ends at one place. -/
theorem Opens.unique {m' : Nat} (h : Opens t s m) (h' : Opens t s m') : m = m' := by
  have hsame := congrArg List.length (Option.some.inj (h.after.symm.trans h'.after))
  have hm := h.1
  have hm' := h'.1
  rw [List.length_drop, List.length_drop] at hsame
  omega

def First (t : Text) (k s m : Nat) : Prop := k ≤ s ∧ Opens t s m ∧ ∀ s', k ≤ s' → s' < s → ∀ m', ¬ Opens t s' m'

/-- An opening that is met from the place `k` on, where each is looked for behind the one before it. -/
inductive Met (t : Text) : Nat → Nat → Nat → Prop
  | first {k s m : Nat} (h : First t k s m) : Met t k s m
  | later {k s m s' m' : Nat} (h : First t k s m) (hl : Met t m s' m') : Met t k s' m'

theorem Met.opens (h : Met t k s m) : Opens t s m := by
  induction h with
  | first h => exact h.2.1
  | later _ _ ih => exact ih

theorem Met.le (h : Met t k s m) : k ≤ s := by
  induction h with
  | first h => exact h.1
  | later h _ ih => exact Nat.le_trans h.1 (Nat.le_trans (Nat.le_of_lt h.2.1.lt) ih)

/-- Where an opening stands, it is the first one from there on. -/
theorem Opens.met_iff (h : Opens t k m) {s' m' : Nat} : Met t k s' m' ↔ s' = k ∧ m' = m ∨ Met t m s' m' := by
  have hfirst {s₁ m₁ : Nat} (h₁ : First t k s₁ m₁) : s₁ = k ∧ m₁ = m := by
    obtain ⟨hle, hopens, hleast⟩ := h₁
    rcases Nat.lt_or_eq_of_le hle with hlt | rfl
    · exact absurd h (hleast k (Nat.le_refl k) hlt m)
    · exact ⟨rfl, hopens.unique h⟩
  constructor
  · intro hmet
    cases hmet with
    | first h₁ => exact Or.inl (hfirst h₁)
    | later h₁ hl =>
      obtain ⟨rfl, rfl⟩ := hfirst h₁
      exact Or.inr hl
  · have hk : First t k k m := ⟨Nat.le_refl k, h, fun s' hle hlt => absurd hle (Nat.not_le.mpr hlt)⟩
    rintro (⟨rfl, rfl⟩ | hl)
    · exact .first hk
    · exact .later hk hl

theorem first_succ (h : ∀ m, ¬ Opens t k m) : First t k s m ↔ First t (k + 1) s m := by
  constructor
  · rintro ⟨hle, hopens, hleast⟩
    have hne : k ≠ s := by
      rintro rfl
      exact h m hopens
    exact ⟨by omega, hopens, fun s' hs' => hleast s' (by omega)⟩
  · rintro ⟨hle, hopens, hleast⟩
    refine ⟨by omega, hopens, fun s' hs' hlt m' => ?_⟩
    rcases Nat.lt_or_eq_of_le hs' with hs' | rfl
    · exact hleast s' hs' hlt m'
    · exact h m'

theorem met_succ (h : ∀ m, ¬ Opens t k m) : Met t k s m ↔ Met t (k + 1) s m := by
  constructor <;> intro hmet
  · cases hmet with
    | first h₁ => exact .first ((first_succ h).mp h₁)
    | later h₁ hl => exact .later ((first_succ h).mp h₁) hl
  · cases hmet with
    | first h₁ => exact .first ((first_succ h).mpr h₁)
    | later h₁ hl => exact .later ((first_succ h).mpr h₁) hl

/-- The openings are the ones that are met, from left to right. -/
theorem openings_drop (t : Text) (k : Nat) : ∃ marks : List (Nat × Nat),
    openings (t.drop k) = marks.map (fun p => (t.drop p.1, t.drop p.2)) ∧ marks.Pairwise (fun p q => p.1 < q.1) ∧
      ∀ s m, (s, m) ∈ marks ↔ Met t k s m := by
  generalize hu : t.drop k = u
  -- On the text from `k` on: behind an opening the search goes on at its end, and else one code point further.
  fun_induction openings u generalizing k with
  | case1 =>
    refine ⟨[], rfl, .nil, fun s m => ⟨fun h => absurd h List.not_mem_nil, fun h => ?_⟩⟩
    have hk := List.drop_eq_nil_iff.mp hu
    have hle := h.le
    have hlt := h.opens.lt
    have hm := h.opens.1
    omega
  | case2 c r rest h _ ih =>
    rw [← hu] at h
    obtain ⟨m, hopens, hrest⟩ := opens_of_after h
    obtain ⟨marks, heq, hp, hmem⟩ := ih m hrest.symm
    refine ⟨(k, m) :: marks, by rw [heq, ← hu, hrest]; rfl, List.pairwise_cons.mpr ⟨?_, hp⟩, fun s' m' => ?_⟩
    · rintro ⟨s', m'⟩ hp'
      exact Nat.lt_of_lt_of_le hopens.lt ((hmem s' m').mp hp').le
    · rw [List.mem_cons, hmem, hopens.met_iff, Prod.mk.injEq]
  | case3 c r rest h hle => exact absurd (afterOpening?_length h) hle
  | case4 c r hno ih =>
    have hclosed : ∀ m, ¬ Opens t k m := fun m hopens => by
      have hafter := hopens.after
      rw [hu, hno] at hafter
      cases hafter
    have hr : t.drop (k + 1) = r := by rw [← List.drop_drop, hu, List.drop_one, List.tail_cons]
    obtain ⟨marks, heq, hp, hmem⟩ := ih (k + 1) hr
    exact ⟨marks, heq, hp, fun s m => (hmem s m).trans (met_succ hclosed).symm⟩

/-- The closing braces from the place `m` on, as lengths from the place `s` on. -/
theorem closings_drop (t : Text) (hm : s ≤ m) : ∃ ends : List Nat,
    closings (m - s) (t.drop m) = ends.map (fun e => e + 1 - s) ∧ ends.Pairwise (· < ·) ∧
      ∀ e, e ∈ ends ↔ m ≤ e ∧ t[e]? = some closeBrace := by
  generalize hu : t.drop m = u
  induction u generalizing m with
  | nil =>
    refine ⟨[], rfl, .nil, fun e => ⟨fun h => absurd h List.not_mem_nil, fun h => ?_⟩⟩
    have hle := List.drop_eq_nil_iff.mp hu
    rw [List.getElem?_eq_none (Nat.le_trans hle h.1)] at h
    cases h.2
  | cons c r ih =>
    have hr : t.drop (m + 1) = r := by rw [← List.drop_drop, hu, List.drop_one, List.tail_cons]
    have hc : t[m]? = some c := by rw [← List.head?_drop, hu, List.head?_cons]
    obtain ⟨ends, heq, hp, hmem⟩ := ih (Nat.le_succ_of_le hm) hr
    rw [Nat.succ_sub hm] at heq
    rw [closings]
    have hsplit (e : Nat) : m ≤ e ↔ e = m ∨ m + 1 ≤ e := by omega
    split
    · rename_i hbrace
      refine ⟨m :: ends, by rw [heq, List.map_cons, Nat.succ_sub hm], ?_, fun e => ?_⟩
      · exact List.pairwise_cons.mpr ⟨fun e he => ((hmem e).mp he).1, hp⟩
      · rw [List.mem_cons, hmem, hsplit e]
        constructor
        · rintro (rfl | ⟨hle, he⟩)
          · exact ⟨Or.inl rfl, hc.trans (congrArg some hbrace)⟩
          · exact ⟨Or.inr hle, he⟩
        · rintro ⟨rfl | hle, he⟩
          · exact Or.inl rfl
          · exact Or.inr ⟨hle, he⟩
    · rename_i hother
      refine ⟨ends, heq, hp, fun e => ?_⟩
      rw [hmem, hsplit e]
      constructor
      · rintro ⟨hle, he⟩
        exact ⟨Or.inr hle, he⟩
      · rintro ⟨rfl | hle, he⟩
        · exact absurd (Option.some.inj (hc.symm.trans he)) hother
        · exact ⟨hle, he⟩

/-- A span from an opening up to a closing brace at the place `e`. -/
def Span (t : Text) (s e : Nat) : Prop := ∃ m, Met t 0 s m ∧ m ≤ e ∧ t[e]? = some closeBrace

/-- One span is tried before another: its opening is further left, or it ends first. -/
def Before (p q : Nat × Nat) : Prop := p.1 < q.1 ∨ p.1 = q.1 ∧ p.2 < q.2

def spanAt (t : Text) (p : Nat × Nat) : Text := t.extract p.1 (p.2 + 1)

theorem Span.length (h : Span t s e) : (spanAt t (s, e)).length = e + 1 - s := by
  obtain ⟨m, -, -, he⟩ := h
  have hlt := (List.getElem?_eq_some_iff.mp he).1
  rw [spanAt, List.length_take, List.length_drop]
  exact Nat.min_eq_left (by omega)

theorem Span.le (h : Span t s e) : s ≤ e := by
  obtain ⟨m, hmet, hle, -⟩ := h
  exact Nat.le_trans (Nat.le_of_lt hmet.opens.lt) hle

/-- The spans that the search goes through, in its order. -/
theorem candidates_places (t : Text) : ∃ places : List (Nat × Nat),
    candidates t = places.map (spanAt t) ∧ places.Pairwise Before ∧ ∀ s e, (s, e) ∈ places ↔ Span t s e := by
  obtain ⟨marks, hmarks, hascending, hmet⟩ := openings_drop t 0
  have hends (p : Nat × Nat) (hp : p ∈ marks) := closings_drop t (Nat.le_of_lt ((hmet p.1 p.2).mp hp).opens.lt)
  choose! ends hclosings hsorted hmem using hends
  refine ⟨marks.flatMap fun p => (ends p).map fun e => (p.1, e), ?_, ?_, fun s e => ?_⟩
  · have hdrop : openings t = marks.map fun p => (t.drop p.1, t.drop p.2) := hmarks
    rw [candidates_eq, hdrop, List.flatMap_map, List.map_flatMap]
    refine List.flatMap_congr fun p hp => ?_
    have hm := ((hmet p.1 p.2).mp hp).opens
    have hoffset : (t.drop p.1).length - (t.drop p.2).length = p.2 - p.1 := by
      have hle := hm.1
      have hlt := hm.lt
      rw [List.length_drop, List.length_drop]
      omega
    rw [spansFrom, hoffset, hclosings p hp, List.map_map, List.map_map]
    rfl
  · refine List.pairwise_flatMap.mpr ⟨fun p hp => ?_, hascending.imp fun hlt x hx y hy => ?_⟩
    · exact List.pairwise_map.mpr ((hsorted p hp).imp fun hlt => Or.inr ⟨rfl, hlt⟩)
    · obtain ⟨_, -, rfl⟩ := List.mem_map.mp hx
      obtain ⟨_, -, rfl⟩ := List.mem_map.mp hy
      exact Or.inl hlt
  · rw [List.mem_flatMap]
    constructor
    · rintro ⟨⟨s, m⟩, hp, he⟩
      obtain ⟨_, he, heq⟩ := List.mem_map.mp he
      cases heq
      exact ⟨m, (hmet s m).mp hp, (hmem (s, m) hp e).mp he⟩
    · rintro ⟨m, hm, he⟩
      have hp := (hmet s m).mpr hm
      exact ⟨(s, m), hp, List.mem_map.mpr ⟨e, (hmem (s, m) hp e).mpr he, rfl⟩⟩

section Order

variable {places before after : List (Nat × Nat)} {p : Nat × Nat}

theorem Before.irrefl (p : Nat × Nat) : ¬ Before p p := by
  rintro (h | ⟨-, h⟩)
  · exact Nat.lt_irrefl _ h
  · exact Nat.lt_irrefl _ h

theorem Before.asymm {q : Nat × Nat} (h : Before p q) : ¬ Before q p := by
  rintro (h' | ⟨h', h''⟩) <;> rcases h with h | ⟨_, h⟩ <;> omega

/-- What stands around an element of an ordered list. -/
theorem around_iff (hp : (before ++ p :: after).Pairwise Before) (q : Nat × Nat) :
    (q ∈ before ↔ q ∈ before ++ p :: after ∧ Before q p) ∧ (q ∈ after ↔ q ∈ before ++ p :: after ∧ Before p q) := by
  obtain ⟨-, hafter, hbefore⟩ := List.pairwise_append.mp hp
  have hahead := (List.pairwise_cons.mp hafter).1
  have hfront (hq : q ∈ before) : Before q p := hbefore q hq p List.mem_cons_self
  simp only [List.mem_append, List.mem_cons]
  constructor
  · constructor
    · intro hq
      exact ⟨Or.inl hq, hfront hq⟩
    · rintro ⟨hq | rfl | hq, hlt⟩
      · exact hq
      · exact absurd hlt (Before.irrefl q)
      · exact absurd (hahead q hq) hlt.asymm
  · constructor
    · intro hq
      exact ⟨Or.inr (Or.inr hq), hahead q hq⟩
    · rintro ⟨hq | rfl | hq, hlt⟩
      · exact absurd (hfront hq) hlt.asymm
      · exact absurd hlt (Before.irrefl q)
      · exact hq

theorem split_map {f : Nat × Nat → Text} {span : Text} {front back : List Text} :
    places.map f = front ++ span :: back ↔
      ∃ before p after, places = before ++ p :: after ∧ before.map f = front ∧ f p = span ∧ after.map f = back := by
  rw [List.map_eq_append_iff]
  constructor
  · rintro ⟨before, rest, rfl, rfl, hrest⟩
    obtain ⟨p, after, rfl, rfl, rfl⟩ := List.map_eq_cons_iff.mp hrest
    exact ⟨before, p, after, rfl, rfl, rfl, rfl⟩
  · rintro ⟨before, p, after, rfl, rfl, rfl, rfl⟩
    exact ⟨before, p :: after, rfl, rfl, List.map_cons⟩

/-- Among spans in the order of their places the longest call is the leftmost of those that are longest. -/
theorem longest_places [Host] (hp : places.Pairwise Before) {f : Nat × Nat → Text} {span : Text} :
    Longest (places.map f) span ↔ ∃ p ∈ places, f p = span ∧
      ∀ q ∈ places, IsCall (f q) → (Before q p → (f q).length < span.length) ∧
        (Before p q → (f q).length ≤ span.length) := by
  constructor
  · rintro ⟨front, back, he, hfront, hback⟩
    obtain ⟨before, p, after, rfl, rfl, rfl, rfl⟩ := split_map.mp he
    refine ⟨p, by simp, rfl, fun q hq hcall => ⟨fun hlt => ?_, fun hlt => ?_⟩⟩
    · exact hfront _ (List.mem_map_of_mem ((around_iff hp q).1.mpr ⟨hq, hlt⟩)) hcall
    · exact hback _ (List.mem_map_of_mem ((around_iff hp q).2.mpr ⟨hq, hlt⟩)) hcall
  · rintro ⟨p, hmem, rfl, hall⟩
    obtain ⟨before, after, rfl⟩ := List.append_of_mem hmem
    refine ⟨before.map f, after.map f, by rw [List.map_append, List.map_cons], ?_, ?_⟩
    · intro c hc hcall
      obtain ⟨q, hq, rfl⟩ := List.mem_map.mp hc
      obtain ⟨hmem, hlt⟩ := (around_iff hp q).1.mp hq
      exact (hall q hmem hcall).1 hlt
    · intro c hc hcall
      obtain ⟨q, hq, rfl⟩ := List.mem_map.mp hc
      obtain ⟨hmem, hlt⟩ := (around_iff hp q).2.mp hq
      exact (hall q hmem hcall).2 hlt

theorem stops_places [Host] (hp : places.Pairwise Before) {f : Nat × Nat → Text} :
    Stops (places.map f) ↔ ∃ p ∈ places, Unreadable (f p) ∧
      ∀ q ∈ places, IsCall (f q) → Before q p → (f q).length < (f p).length := by
  constructor
  · rintro ⟨front, span, back, he, hu, hfront⟩
    obtain ⟨before, p, after, rfl, rfl, rfl, rfl⟩ := split_map.mp he
    refine ⟨p, by simp, hu, fun q hq hcall hlt => ?_⟩
    exact hfront _ (List.mem_map_of_mem ((around_iff hp q).1.mpr ⟨hq, hlt⟩)) hcall
  · rintro ⟨p, hmem, hu, hall⟩
    obtain ⟨before, after, rfl⟩ := List.append_of_mem hmem
    refine ⟨before.map f, f p, after.map f, by rw [List.map_append, List.map_cons], hu, fun c hc hcall => ?_⟩
    obtain ⟨q, hq, rfl⟩ := List.mem_map.mp hc
    obtain ⟨hmem, hlt⟩ := (around_iff hp q).1.mp hq
    exact hall q hmem hcall hlt

end Order

section

variable [Host]

theorem callOf?_iff (h : ∀ fs, Json.read t = .ok (.obj fs) → (Json.lookup "tool" fs).isSome) :
    callOf? t = some fields ↔ Json.read t = .ok (.obj fields) := by
  rw [callOf?, document?]
  cases hr : Json.read t with
  | error fault => cases fault <;> simp
  | ok v =>
    cases v with
    | obj fs => simp [toolObject?, h fs hr]
    | _ => simp [toolObject?]

/-- Behind an opening, every object is a call. -/
theorem Span.callOf?_iff (h : Span t s e) :
    callOf? (spanAt t (s, e)) = some fields ↔ Json.read (spanAt t (s, e)) = .ok (.obj fields) := by
  obtain ⟨m, hmet, hle, -⟩ := h
  have hprefix : (spanAt t (s, e)).take (m - s) = t.extract s m := by
    rw [spanAt, List.extract, List.take_take, Nat.min_eq_left (by omega)]
  obtain ⟨_, name, ⟨s₁, s₂, s₃, h₁, -, -, rfl⟩, -, -, ho⟩ := hmet.opens.2
  rw [← hprefix] at ho
  have hspan := (List.take_append_drop (m - s) (spanAt t (s, e))).symm
  rw [ho] at hspan
  simp only [List.append_assoc] at hspan
  refine Reply.callOf?_iff fun fs hr => ?_
  rw [hspan] at hr
  have hblank : ∀ c ∈ s₁, c ≠ CodePoint.ofChar '"' ∧ c ≠ CodePoint.ofChar '\x7d' := by
    intro c hc
    constructor
    · rintro rfl
      exact absurd (h₁ _ hc) (by decide)
    · rintro rfl
      exact absurd (h₁ _ hc) (by decide)
  have hkey : (Json.lookup (Json.joinPairs "tool") fs).isSome := Json.lookup_firstKey hblank hr
  exact hkey

/-- From an opening at the place `s` up to a closing brace at the place `e` stands an object. -/
structure CallAt (t : Text) (s e : Nat) (fields : List (Text × Json)) : Prop where
  span : Span t s e
  object : Json.read (t.extract s (e + 1)) = .ok (.obj fields)

/-- None of these objects is longer, and none that is as long starts further left. -/
structure LongestAt (t : Text) (s e : Nat) (fields : List (Text × Json)) : Prop extends CallAt t s e fields where
  longest : ∀ s' e' fields', CallAt t s' e' fields' → e' - s' < e - s ∨ e' - s' = e - s ∧ s ≤ s'

/-- The reader gives up on a span that is longer than the objects before it. -/
def GivesUp (t : Text) : Prop :=
  ∃ s e, Span t s e ∧ Unreadable (t.extract s (e + 1)) ∧
    ∀ s' e' fields, CallAt t s' e' fields → Before (s', e') (s, e) → e' - s' < e - s

theorem Span.isCall_iff (h : Span t s e) : IsCall (spanAt t (s, e)) ↔ ∃ fields, CallAt t s e fields := by
  rw [IsCall, Option.isSome_iff_exists]
  constructor
  · rintro ⟨fields, hc⟩
    exact ⟨fields, h, h.callOf?_iff.mp hc⟩
  · rintro ⟨fields, hc⟩
    exact ⟨fields, h.callOf?_iff.mpr hc.object⟩

/-- The search stops at a span just if the text has places at which it gives up. -/
theorem stops_iff (t : Text) : Stops (candidates t) ↔ GivesUp t := by
  obtain ⟨places, heq, hp, hmem⟩ := candidates_places t
  rw [heq, stops_places hp]
  constructor
  · rintro ⟨⟨s, e⟩, hse, hu, hall⟩
    have hspan := (hmem s e).mp hse
    refine ⟨s, e, hspan, hu, fun s' e' fields hc hlt => ?_⟩
    have hshort := hall _ ((hmem s' e').mpr hc.span) (hc.span.isCall_iff.mpr ⟨fields, hc⟩) hlt
    rw [hc.span.length, hspan.length] at hshort
    have hle := hc.span.le
    omega
  · rintro ⟨s, e, hspan, hu, hall⟩
    refine ⟨(s, e), (hmem s e).mpr hspan, hu, ?_⟩
    rintro ⟨s', e'⟩ hq hcall hlt
    have hspan' := (hmem s' e').mp hq
    obtain ⟨fields, hc⟩ := hspan'.isCall_iff.mp hcall
    have hshort := hall s' e' fields hc hlt
    have hle := hspan'.le
    rw [hspan'.length, hspan.length]
    omega

/-- The longest candidate is the longest call between an opening and a brace of the text. -/
theorem longest_iff (t : Text) (fields : List (Text × Json)) :
    (∃ span, Longest (candidates t) span ∧ callOf? span = some fields) ↔ ∃ s e, LongestAt t s e fields := by
  obtain ⟨places, heq, hp, hmem⟩ := candidates_places t
  simp only [heq, longest_places hp]
  constructor
  · rintro ⟨_, ⟨⟨s, e⟩, hse, rfl, hall⟩, hc⟩
    have hspan := (hmem s e).mp hse
    refine ⟨s, e, ⟨hspan, hspan.callOf?_iff.mp hc⟩, fun s' e' fields' hc' => ?_⟩
    have hother := hall _ ((hmem s' e').mpr hc'.span) (hc'.span.isCall_iff.mpr ⟨fields', hc'⟩)
    rw [hc'.span.length, hspan.length] at hother
    have hle := hspan.le
    have hle' := hc'.span.le
    simp only [Before] at hother
    omega
  · rintro ⟨s, e, ⟨hspan, hr⟩, hlongest⟩
    refine ⟨_, ⟨(s, e), (hmem s e).mpr hspan, rfl, ?_⟩, hspan.callOf?_iff.mpr hr⟩
    rintro ⟨s', e'⟩ hq hcall
    have hspan' := (hmem s' e').mp hq
    obtain ⟨fields', hc'⟩ := hspan'.isCall_iff.mp hcall
    have hother := hlongest s' e' fields' hc'
    have hle := hspan.le
    have hle' := hspan'.le
    rw [hspan'.length, hspan.length]
    constructor
    · rintro (hlt | ⟨hsame, hlt⟩) <;> simp only at * <;> omega
    · intro _
      omega

/-- A search that is given up is given up at one of the spans. -/
theorem document?_of_error {spans : List Text} {best : Found} {fault : Fault}
    (h : spans.foldlM trySpan best = .error fault) : ∃ span ∈ spans, document? span = .error fault := by
  induction spans generalizing best with
  | nil => cases h
  | cons span rest ih =>
    rw [List.foldlM_cons] at h
    cases ht : trySpan best span with
    | ok found =>
      rw [ht] at h
      obtain ⟨other, hmem, hd⟩ := ih h
      exact ⟨other, List.mem_cons_of_mem span hmem, hd⟩
    | error fault' =>
      rw [ht] at h
      cases h
      refine ⟨span, List.mem_cons_self, ?_⟩
      rcases Nat.lt_or_ge (size best) span.length with hlt | hle
      · rw [trySpan_long hlt] at ht
        cases hd : document? span with
        | error fault =>
          rw [hd] at ht
          exact congrArg Except.error (Except.error.inj ht)
        | ok v? =>
          rw [hd] at ht
          cases ht
      · rw [trySpan_short hle] at ht
        cases ht

/-- A whole number that ends the search stands in the text with all its digits. -/
theorem longRun_of_scan {n : Nat} (h : scan t = .error (.longInteger n)) : Json.LongRun n t := by
  rw [scan_eq] at h
  cases hf : (candidates t).foldlM trySpan none with
  | ok best =>
    rw [hf] at h
    cases h
  | error fault =>
    rw [hf] at h
    cases h
    obtain ⟨span, hmem, hd⟩ := document?_of_error hf
    have hread : Json.read span = .error (.longInteger n) := by
      rw [document?] at hd
      split at hd
      · cases hd
      · cases hd
      · rename_i hr
        cases hd
        exact hr
      · cases hd
    obtain ⟨places, heq, -, -⟩ := candidates_places t
    rw [heq] at hmem
    obtain ⟨p, -, rfl⟩ := List.mem_map.mp hmem
    exact (Json.longRun_of_read hread).mono ((List.take_prefix _ _).isInfix.trans (List.drop_suffix _ _).isInfix)

theorem LongestAt.unique {s' e' : Nat} {fields' : List (Text × Json)} (h : LongestAt t s e fields)
    (h' : LongestAt t s' e' fields') : fields = fields' := by
  have hle := h.longest s' e' fields' h'.toCallAt
  have hle' := h'.longest s e fields h.toCallAt
  have hspan := h.span.le
  have hspan' := h'.span.le
  have hs : s = s' := by omega
  have he : e = e' := by omega
  subst hs he
  have hsame := h.object.symm.trans h'.object
  cases hsame
  rfl

/-- The search ends with nothing just if no object stands from an opening up to a closing brace, and otherwise with the
longest of them, the leftmost of those; unless it comes to a span that is nested too deeply, or that has a whole number
with too many digits. -/
theorem scan_longest (t : Text) :
    (scan t = .ok none ↔ ¬ GivesUp t ∧ ∀ s e fields, ¬ CallAt t s e fields) ∧
    (∀ fields, scan t = .ok (some fields) ↔ ¬ GivesUp t ∧ ∃ s e, LongestAt t s e fields) ∧
    (scan t = .error .tooDeep ∨ (∃ n, scan t = .error (.longInteger n) ∧ Json.LongRun n t) ↔ GivesUp t) := by
  have hne : ∀ span ∈ candidates t, span ≠ [] := fun _ => candidates_ne_nil
  have hrun := foldlM_trySpan hne
  rw [stops_iff] at hrun
  rcases hrun with ⟨hstop, fault, hf⟩ | ⟨hgo, best, hf, hb⟩
  · have hscan : scan t = .error fault := by rw [scan_eq, hf]; rfl
    have hkept : scan t = .error .tooDeep ∨ ∃ n, scan t = .error (.longInteger n) ∧ Json.LongRun n t := by
      cases fault with
      | tooDeep => exact Or.inl hscan
      | longInteger n => exact Or.inr ⟨n, hscan, longRun_of_scan hscan⟩
    refine ⟨?_, fun fields => ?_, fun _ => hstop, fun _ => hkept⟩
    · simp [hscan, hstop]
    · simp [hscan, hstop]
  · have hscan : scan t = .ok (best.map (·.1)) := by rw [scan_eq, hf]; rfl
    have hkept : scan t = .error .tooDeep ∨ (∃ n, scan t = .error (.longInteger n) ∧ Json.LongRun n t) ↔
        GivesUp t := by
      simp [hscan, hgo]
    cases hb with
    | nothing hnone =>
      have hnocall (s e : Nat) (fields : List (Text × Json)) : ¬ CallAt t s e fields := fun hc => by
        obtain ⟨places, heq, -, hmem⟩ := candidates_places t
        rw [heq] at hnone
        exact hnone _ (List.mem_map_of_mem ((hmem s e).mpr hc.span)) (hc.span.isCall_iff.mpr ⟨fields, hc⟩)
      refine ⟨⟨fun _ => ⟨hgo, hnocall⟩, fun _ => hscan⟩, fun fields => ⟨?_, ?_⟩, hkept⟩
      · intro h
        cases hscan.symm.trans h
      · rintro ⟨-, s, e, hl⟩
        exact absurd hl.toCallAt (hnocall s e fields)
    | @call span found hl hc =>
      obtain ⟨s, e, hlongest⟩ := (longest_iff t found).mp ⟨span, hl, hc⟩
      refine ⟨⟨?_, fun h => absurd hlongest.toCallAt (h.2 s e found)⟩, fun fields => ⟨?_, ?_⟩, hkept⟩
      · intro h
        cases hscan.symm.trans h
      · intro h
        cases hscan.symm.trans h
        exact ⟨hgo, s, e, hlongest⟩
      · rintro ⟨-, s', e', hlongest'⟩
        rw [hscan, hlongest'.unique hlongest]
        rfl

end

attribute [local instance] Host.usual

/-- Of two longest objects the leftmost is taken. A closing brace inside a string ends none of them. -/
theorem leftmost_taken :
    scan "\x7bx \x7b\"tool\": \"a\"\x7d \x7b\"tool\": \"b\x7d\"\x7d \x7b\"tool\": \"cd\"\x7d" =
      .ok (some [("tool", .str "b\x7d")]) ∧
    ∃ s e, LongestAt "\x7bx \x7b\"tool\": \"a\"\x7d \x7b\"tool\": \"b\x7d\"\x7d \x7b\"tool\": \"cd\"\x7d" s e
      [("tool", .str "b\x7d")] := by
  have hscan : scan "\x7bx \x7b\"tool\": \"a\"\x7d \x7b\"tool\": \"b\x7d\"\x7d \x7b\"tool\": \"cd\"\x7d" =
      .ok (some [("tool", .str "b\x7d")]) := by
    cbv
  exact ⟨hscan, (((scan_longest _).2.1 _).mp hscan).2⟩

section Nested

variable {o body : Text} {n : Nat}

theorem closings_append_left (h : closeBrace ∉ body) (k : Nat) (u : Text) :
    closings k (body ++ u) = closings (k + body.length) u := by
  induction body generalizing k with
  | nil => rfl
  | cons c body ih =>
    rw [List.mem_cons, not_or] at h
    rw [List.cons_append, closings, if_neg (Ne.symm h.1), ih h.2, List.length_cons, Nat.add_right_comm, Nat.add_assoc]

/-- An opening without braces behind it but the last one is tried as one span. -/
theorem candidates_single (ho : Opening o) (hopen : openBrace ∉ body) (hclose : closeBrace ∉ body) :
    candidates (o ++ (body ++ [closeBrace])) = [o ++ (body ++ [closeBrace])] := by
  have hafter : afterOpening? (o ++ (body ++ [closeBrace])) = some (body ++ [closeBrace]) :=
    afterOpening?_iff.mpr ⟨o, ho, rfl⟩
  have hnoOpen : openBrace ∉ body ++ [closeBrace] := by
    rw [List.mem_append, not_or]
    exact ⟨hopen, by decide⟩
  obtain ⟨c, r, rfl⟩ := List.exists_cons_of_ne_nil ho.ne_nil
  rw [List.cons_append] at hafter ⊢
  rw [candidates_eq, openings_cons_of_some hafter, openings_of_noOpen hnoOpen, List.flatMap_singleton, spansFrom,
    closings_append_left hclose]
  have hwhole : (c :: (r ++ (body ++ [closeBrace]))).length - (body ++ [closeBrace]).length + body.length + 1 =
      (c :: (r ++ (body ++ [closeBrace]))).length := by
    simp only [List.length_cons, List.length_append, List.length_nil]
    omega
  simp only [closings, ↓reduceIte, hwhole, List.map_cons, List.map_nil, List.take_length]

def openBrackets (n : Nat) : Text := ", \"x\": " ++ List.replicate n (CodePoint.ofChar '[')

theorem openBrackets_points {c : CodePoint} (h : c ∈ openBrackets n) :
    c ≠ openBrace ∧ c ≠ closeBrace ∧ c.isDigit = false := by
  rcases List.mem_append.mp h with h | h
  · have hall : ∀ c ∈ (", \"x\": " : Text), c ≠ openBrace ∧ c ≠ closeBrace ∧ c.isDigit = false := by decide
    exact hall c h
  · rw [List.eq_of_mem_replicate h]
    decide

open Json in
/-- A call whose brackets are open more deeply than the host allows is given up. -/
theorem read_openBrackets [Host] (h : Host.jsonDepth ≤ n) (rest : Text) :
    Json.read ("\x7b\"tool\": \"run_tests\"" ++ (openBrackets n ++ rest)) = .error .tooDeep := by
  rcases hdepth : Host.jsonDepth with _ | depth
  · have hbrace : ("\x7b\"tool\": \"run_tests\"" : Text) = openBrace :: "\"tool\": \"run_tests\"" := rfl
    rw [hbrace, List.cons_append, Json.read, if_neg (by rw [List.head?_cons]; decide), openBrace,
      skipSpace_cons (by decide), hdepth, value_object_zero]
    rfl
  obtain ⟨second, hsecond, htext⟩ : ∃ second, field (value depth) (skipSpace second) = .error .tooDeep ∧
      ("\x7b\"tool\": \"run_tests\"" : Text) ++ (openBrackets n ++ rest) = openBrace :: (writeString "tool" ++
        CodePoint.ofChar ':' :: CodePoint.ofChar ' ' :: (writeString "run_tests" ++ CodePoint.ofChar ',' ::
          CodePoint.ofChar ' ' :: second)) := by
    refine ⟨writeString "x" ++ CodePoint.ofChar ':' :: CodePoint.ofChar ' ' ::
      (List.replicate n (CodePoint.ofChar '[') ++ rest), ?_, by rw [openBrackets, List.append_assoc]; rfl⟩
    have hlt : depth < n := by omega
    have hskip : skipSpace (List.replicate n (CodePoint.ofChar '[') ++ rest) =
        List.replicate n (CodePoint.ofChar '[') ++ rest := by
      obtain ⟨n, rfl⟩ : ∃ m, n = m + 1 := ⟨n - 1, by omega⟩
      rw [List.replicate_succ, List.cons_append, skipSpace_cons (by decide)]
    have hfield := field_write (value depth) "x" hskip
    rw [value_brackets hlt] at hfield
    exact hfield
  have hname (u : Text) : value depth (writeString "run_tests" ++ u) = .ok (.str "run_tests", u) := by
    have hstring := string_write "run_tests" u
    rw [writeString_eq, List.cons_append] at hstring ⊢
    cases depth <;> rw [value, if_pos rfl, hstring] <;> rfl
  have hfirst := field_write (r := writeString "run_tests" ++ CodePoint.ofChar ',' :: CodePoint.ofChar ' ' :: second)
    (value depth) "tool" rfl
  rw [hname] at hfirst
  have hfields (m : Nat) : Json.fields (value depth) (m + 2) [] (writeString "tool" ++ CodePoint.ofChar ':' ::
      CodePoint.ofChar ' ' :: (writeString "run_tests" ++ CodePoint.ofChar ',' :: CodePoint.ofChar ' ' :: second)) =
        .error .tooDeep := by
    rw [fields_next hfirst, fields_error hsecond]
  rw [writeString_eq "tool", List.cons_append] at hfields
  rw [htext, Json.read, if_neg (by rw [List.head?_cons]; decide), skipSpace_cons (by decide), writeString_eq "tool",
    List.cons_append, openBrace, hdepth, value_object (by decide) (by decide), List.length_cons, hfields]
  rfl

def nestedReply : Text := "\x7b \x7b\"tool\": \"run_tests\"" ++ (openBrackets 1500 ++ "\x7d")

/-- No object stands in this reply, and no run of digits. The search does not end with nothing. -/
theorem nested_not_passed : (∀ s e fields, ¬ CallAt nestedReply s e fields) ∧ (∀ n, ¬ Json.LongRun n nestedReply) ∧
    scan nestedReply = .error .tooDeep := by
  have hopening : Opening "\x7b\"tool\": \"run_tests\"" := by
    refine ⟨"\x7b\"tool\": \"", "run_tests", ⟨[], [], " ", ?_, ?_, ?_, rfl⟩, by decide, by decide, rfl⟩
    · exact fun _ hc => absurd hc List.not_mem_nil
    · exact fun _ hc => absurd hc List.not_mem_nil
    · intro c hc
      rw [List.mem_singleton.mp hc]
      decide
  have hread := read_openBrackets (n := 1500) (by decide) [closeBrace]
  have hopen : openBrace ∉ openBrackets 1500 := fun hc => (openBrackets_points hc).1 rfl
  have hclose : closeBrace ∉ openBrackets 1500 := fun hc => (openBrackets_points hc).2.1 rfl
  have hsingle := candidates_single hopening hopen hclose
  generalize hspan : ("\x7b\"tool\": \"run_tests\"" : Text) ++ (openBrackets 1500 ++ [closeBrace]) = span
    at hread hsingle
  have hreply : nestedReply = openBrace :: CodePoint.ofChar ' ' :: span := by
    rw [← hspan]
    rfl
  have hcandidates : candidates nestedReply = [span] := by
    have houter : afterOpening? (openBrace :: CodePoint.ofChar ' ' :: span) = none := by
      rw [← hspan]
      rfl
    have hblank : afterOpening? (CodePoint.ofChar ' ' :: span) = none := rfl
    rw [hreply, candidates_eq, openings_cons_of_none houter, openings_cons_of_none hblank, ← candidates_eq, hsingle]
  refine ⟨fun s e fields hc => ?_, fun n hrun => ?_, ?_⟩
  · obtain ⟨places, heq, -, hmem⟩ := candidates_places nestedReply
    have hp : spanAt nestedReply (s, e) ∈ candidates nestedReply := heq ▸ List.mem_map_of_mem ((hmem s e).mpr hc.span)
    rw [hcandidates, List.mem_singleton] at hp
    cases (hp ▸ hread).symm.trans hc.object
  · obtain ⟨d, hpart, hdigits, hlength, hlong⟩ := hrun
    have hnodigit : ∀ c ∈ nestedReply, c.isDigit = false := by
      intro c hc
      rcases List.mem_append.mp hc with hc | hc
      · have hall : ∀ c ∈ ("\x7b \x7b\"tool\": \"run_tests\"" : Text), c.isDigit = false := by decide
        exact hall c hc
      rcases List.mem_append.mp hc with hc | hc
      · exact (openBrackets_points hc).2.2
      · rw [List.mem_singleton.mp hc]
        decide
    obtain ⟨c, r, rfl⟩ : ∃ c r, d = c :: r := List.exists_cons_of_length_pos (by omega)
    have hno := hnodigit c (hpart.subset List.mem_cons_self)
    rw [hdigits c List.mem_cons_self] at hno
    cases hno
  · have hdocument : document? span = .error .tooDeep := by rw [document?, hread]
    have hne : span ≠ [] := candidates_ne_nil (t := nestedReply) (hcandidates ▸ List.mem_singleton_self span)
    have hlong : size none < span.length := List.length_pos_iff.mpr hne
    rw [scan_eq, hcandidates, List.foldlM_cons, trySpan_long hlong, hdocument]
    rfl

end Nested

end CodeAgent.Reply
