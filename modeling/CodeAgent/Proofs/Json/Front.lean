import CodeAgent.Proofs.Json.Reader
import CodeAgent.Proofs.Table
import Mathlib.Data.List.Infix
import Mathlib.Data.List.TakeWhile

namespace CodeAgent.Json

variable {α β : Type} {t r start : Text} {n : Nat} {c : CodePoint}

/-- A run of digits that is too long for a whole number. -/
def LongRun (n : Nat) (t : Text) : Prop :=
  ∃ d, d <:+: t ∧ (∀ c ∈ d, c.isDigit) ∧ d.length = n ∧ Decimal.maxDigits < n

theorem LongRun.mono (h : LongRun n r) (hr : r <:+: t) : LongRun n t := by
  obtain ⟨d, hd, hrest⟩ := h
  exact ⟨d, hd.trans hr, hrest⟩

/-- What can come of reading from the front of a text. -/
inductive Leaves (t : Text) : Except Fault (α × Text) → Prop where
  | rest {v : α} {r : Text} (h : r <:+ t) : Leaves t (.ok (v, r))
  | malformed (problem : Problem) (place : Text) : Leaves t (.error (.malformed problem place))
  | long {n : Nat} (h : LongRun n t) : Leaves t (.error (.longInteger n))
  | tooDeep : Leaves t (.error .tooDeep)

theorem Leaves.of_suffix {x : Except Fault (α × Text)} (h : Leaves r x) (hr : r <:+ t) : Leaves t x := by
  cases h with
  | rest h => exact .rest (h.trans hr)
  | malformed problem place => exact .malformed problem place
  | long h => exact .long (h.mono hr.isInfix)
  | tooDeep => exact .tooDeep

theorem Leaves.bind {x : Except Fault (α × Text)} {f : α × Text → Except Fault (β × Text)} (h : Leaves t x)
    (hf : ∀ v r, r <:+ t → Leaves t (f (v, r))) : Leaves t (x >>= f) := by
  cases h with
  | rest h => exact hf _ _ h
  | malformed problem place => exact .malformed problem place
  | long h => exact .long h
  | tooDeep => exact .tooDeep

theorem skipSpace_suffix (t : Text) : skipSpace t <:+ t := List.dropWhile_suffix _

theorem hex4?_suffix {k : Nat} (h : hex4? t = some (k, r)) : r <:+ t := by
  unfold hex4? at h
  split at h
  · rename_i a b c d rest
    simp only [Option.bind_eq_bind, Option.bind_eq_some_iff, Option.some.injEq, Prod.mk.injEq] at h
    obtain ⟨-, -, -, -, -, -, -, -, -, rfl⟩ := h
    exact ⟨[a, b, c, d], rfl⟩
  · cases h

theorem lowSurrogate?_suffix {k : Nat} (h : lowSurrogate? t = some (k, r)) : r <:+ t := by
  unfold lowSurrogate? at h
  split at h
  · rename_i b u rest
    split at h
    · split at h
      · rename_i hlow
        split at h
        · cases h
          exact (hex4?_suffix hlow).trans ⟨[b, u], rfl⟩
        · cases h
      · cases h
    · cases h
  · cases h

/-- The body of a string is read off the front. -/
theorem leaves_stringBody (start : Text) (n : Nat) (acc t : Text) : Leaves t (stringBody start n acc t) := by
  fun_induction stringBody start n acc t with
  | case1 => exact .malformed _ _
  | case2 => exact .malformed _ _
  | case3 => exact .rest (List.suffix_cons _ _)
  | case4 => exact .malformed _ _
  | case5 => exact .malformed _ _
  | case6 => exact .malformed _ _
  | case7 n acc r unit rest _ hunit _ low r' hlow _ ih =>
    have hrest : r' <:+ r := (lowSurrogate?_suffix hlow).trans (hex4?_suffix hunit)
    exact ih.of_suffix (hrest.trans ⟨[_, _], rfl⟩)
  | case8 n acc r unit rest _ hunit _ _ _ ih => exact ih.of_suffix ((hex4?_suffix hunit).trans ⟨[_, _], rfl⟩)
  | case9 n acc r unit rest _ hunit _ _ ih => exact ih.of_suffix ((hex4?_suffix hunit).trans ⟨[_, _], rfl⟩)
  | case10 n acc e r _ d _ _ ih => exact ih.of_suffix ⟨[_, e], rfl⟩
  | case11 => exact .malformed _ _
  | case12 => exact .malformed _ _
  | case13 n acc c r _ _ _ ih => exact ih.of_suffix (List.suffix_cons c r)

theorem leaves_string (t : Text) : Leaves t (string t) := (leaves_stringBody t _ _ _).of_suffix (List.drop_suffix 1 t)

theorem digits_split (t : Text) : (digits t).1 ++ (digits t).2 = t ∧ ∀ c ∈ (digits t).1, c.isDigit := by
  rw [digits, List.span_eq_takeWhile_dropWhile]
  exact ⟨List.takeWhile_append_dropWhile, fun _ hc => List.mem_takeWhile_imp hc⟩

theorem digits_suffix (t : Text) : (digits t).2 <:+ t := ⟨_, (digits_split t).1⟩

theorem wholePart_split (t : Text) : (wholePart t).1 ++ (wholePart t).2 = t ∧ ∀ c ∈ (wholePart t).1, c.isDigit := by
  unfold wholePart
  split
  · split
    · rename_i hzero
      subst hzero
      exact ⟨rfl, fun c hc => by rw [List.mem_singleton.mp hc]; decide⟩
    · exact digits_split _
  · exact ⟨rfl, fun _ hc => absurd hc List.not_mem_nil⟩

theorem fraction?_suffix {f : Text} (h : fraction? t = some (f, r)) : r <:+ t := by
  unfold fraction? at h
  split at h
  · rename_i p d rest
    split at h
    · have hrest : (digits (d :: rest)).2 = r := congrArg Prod.snd (Option.some.inj h)
      rw [← hrest]
      exact (digits_suffix (d :: rest)).trans (List.suffix_cons p _)
    · cases h
  · cases h

theorem cutSign_suffix (t : Text) : (Decimal.cutSign t).2 <:+ t := by
  unfold Decimal.cutSign
  split
  · split
    · exact List.suffix_cons _ _
    split
    · exact List.suffix_cons _ _
    · exact List.suffix_refl _
  · exact List.suffix_refl _

theorem exponent?_suffix {negative : Bool} {ds : Text} (h : exponent? t = some (negative, ds, r)) : r <:+ t := by
  unfold exponent? at h
  split at h
  · rename_i e rest
    split at h
    · dsimp only at h
      split at h
      · cases h
      · cases h
        exact (digits_suffix _).trans ((cutSign_suffix rest).trans (List.suffix_cons e rest))
    · cases h
  · cases h

/-- A number is too long just by the digits in front of its fraction. -/
theorem leaves_number (negative : Bool) (start t : Text) : Leaves t (number negative start t) := by
  obtain ⟨hsplit, hdigits⟩ := wholePart_split t
  have hwhole : (wholePart t).2 <:+ t := ⟨_, hsplit⟩
  have hfraction : ((fraction? (wholePart t).2).getD ([], (wholePart t).2)).2 <:+ t := by
    cases hf : fraction? (wholePart t).2 with
    | none => exact hwhole
    | some found => exact (fraction?_suffix (f := found.1) hf).trans hwhole
  rw [number]
  dsimp only
  split
  · exact .malformed _ _
  split
  · rename_i he
    exact .rest ((exponent?_suffix he).trans hfraction)
  split
  · split
    · rename_i hlong
      exact .long ⟨(wholePart t).1, ⟨[], (wholePart t).2, hsplit⟩, hdigits, rfl, hlong⟩
    · exact .rest hwhole
  · exact .rest hfraction

theorem word?_suffix {v : Json} (h : word? t = some (v, r)) : r <:+ t := by
  have htry {w : Text} {u : Json} {next : Option (Json × Text)} (hnext : next = some (v, r) → r <:+ t)
      (hw : (if w.isPrefixOf t then some (u, t.drop w.length) else next) = some (v, r)) : r <:+ t := by
    split at hw
    · cases hw
      exact List.drop_suffix _ _
    · exact hnext hw
  have hnone (hn : (none : Option (Json × Text)) = some (v, r)) : r <:+ t := by cases hn
  exact htry (htry (htry (htry (htry (htry hnone))))) h

/-- Behind an item stands the closing bracket, or a comma and more items. -/
theorem leaves_after {next : Step α} (hnext : ∀ t, Leaves t (next t)) (close : Char) (v : α) (r : Text) :
    Leaves r (match skipSpace r with
      | c :: r' =>
        if c = close then .ok (v, r')
        else if c = ',' then next (skipSpace r')
        else .error (.malformed .comma (c :: r'))
      | [] => .error (.malformed .comma [])) := by
  have hskip := skipSpace_suffix r
  split
  · rename_i c r' hs
    rw [hs] at hskip
    have hrest := (List.suffix_cons c r').trans hskip
    split
    · exact .rest hrest
    split
    · exact (hnext _).of_suffix ((skipSpace_suffix r').trans hrest)
    · exact .malformed _ _
  · exact .malformed _ _

/-- Behind an opening bracket stands the closing one, or what is inside. -/
theorem leaves_inside {inside : Step α} (hinside : ∀ t, Leaves t (inside t)) (close : Char) (empty : Json)
    (f : α → Json) (problem : Problem) (r : Text) :
    Leaves r (match skipSpace r with
      | e :: r' =>
        if e = close then .ok (empty, r')
        else do
          let (v, rest) ← inside (e :: r')
          .ok (f v, rest)
      | [] => .error (.malformed problem [])) := by
  have hskip := skipSpace_suffix r
  split
  · rename_i e r' hs
    rw [hs] at hskip
    split
    · exact .rest ((List.suffix_cons e r').trans hskip)
    · exact ((hinside _).of_suffix hskip).bind fun _ _ hrest => .rest hrest
  · exact .malformed _ _

section Items

variable {item : Step Json} (hitem : ∀ t, Leaves t (item t))
include hitem

theorem leaves_items (n : Nat) (acc : List Json) (t : Text) : Leaves t (items item n acc t) := by
  induction n generalizing acc t with
  | zero => exact .malformed _ _
  | succ n ih =>
    rw [items]
    refine (hitem t).bind fun v r hr => ?_
    exact (leaves_after (ih (v :: acc)) ']' _ r).of_suffix hr

/-- A field is read off the front. -/
theorem leaves_field (t : Text) : Leaves t (field item t) := by
  unfold field
  split
  · rename_i c r
    split
    · refine (leaves_string (c :: r)).bind fun key r₁ h₁ => ?_
      have hskip := (skipSpace_suffix r₁).trans h₁
      dsimp only
      split
      · rename_i k r₂ hs
        rw [hs] at hskip
        have hrest := (skipSpace_suffix r₂).trans ((List.suffix_cons k r₂).trans hskip)
        split
        · exact ((hitem (skipSpace r₂)).of_suffix hrest).bind fun v r₃ h₃ => .rest h₃
        · exact .malformed _ _
      · exact .malformed _ _
    · exact .malformed _ _
  · exact .malformed _ _

theorem leaves_fields (n : Nat) (acc : List (Text × Json)) (t : Text) : Leaves t (fields item n acc t) := by
  induction n generalizing acc t with
  | zero => exact .malformed _ _
  | succ n ih =>
    rw [fields]
    refine (leaves_field hitem t).bind fun f r hr => ?_
    exact (leaves_after (ih (f :: acc)) '\x7d' _ r).of_suffix hr

end Items

/-- A value that starts with no quote and no bracket. -/
theorem leaves_plain (c : CodePoint) (r : Text) :
    Leaves (c :: r) (match word? (c :: r) with
      | some found => .ok found
      | none => if c = '-' then number true (c :: r) r else number false (c :: r) (c :: r)) := by
  split
  · rename_i found hw
    exact .rest (word?_suffix (v := found.1) hw)
  split
  · exact (leaves_number true (c :: r) r).of_suffix (List.suffix_cons c r)
  · exact leaves_number false (c :: r) (c :: r)

/-- A value is read off the front. -/
theorem leaves_value (depth : Nat) (t : Text) : Leaves t (value depth t) := by
  -- On the depth: what is inside a bracket is read with one bracket less.
  induction depth generalizing t with
  | zero =>
    unfold value
    split
    · exact .malformed _ _
    rename_i c r
    split
    · exact (leaves_string (c :: r)).bind fun _ _ hrest => .rest hrest
    split
    · exact .tooDeep
    split
    · exact .tooDeep
    · exact leaves_plain c r
  | succ d ih =>
    unfold value
    split
    · exact .malformed _ _
    rename_i c r
    have hinside := List.suffix_cons c r
    split
    · exact (leaves_string (c :: r)).bind fun _ _ hrest => .rest hrest
    split
    · exact (leaves_inside (leaves_items ih _ []) ']' (.arr []) .arr .value r).of_suffix hinside
    split
    · exact (leaves_inside (leaves_fields ih _ []) '\x7d' (.obj []) (fun fs => .obj (ofPairs fs)) .propertyName
        r).of_suffix hinside
    · exact leaves_plain c r

/-- Brackets that are opened at once are too deep where there are more than may be open. -/
theorem value_brackets {depth : Nat} (h : depth < n) (rest : Text) :
    value depth (List.replicate n (CodePoint.ofChar '[') ++ rest) = .error .tooDeep := by
  obtain ⟨n, rfl⟩ : ∃ m, n = m + 1 := ⟨n - 1, by omega⟩
  induction depth generalizing n with
  | zero => rfl
  | succ depth ih =>
    obtain ⟨n, rfl⟩ : ∃ m, n = m + 1 := ⟨n - 1, by omega⟩
    have hinner := ih n (Nat.lt_of_succ_lt_succ h)
    rw [List.replicate_succ, List.cons_append] at hinner
    rw [List.replicate_succ, List.replicate_succ, List.cons_append, List.cons_append,
      value_array (by decide) (by decide), items_error hinner]
    rfl

/-- Where a document is given up for a whole number that is too long, a run of so many digits is in it. -/
theorem longRun_of_read [Host] (h : read t = .error (.longInteger n)) : LongRun n t := by
  rw [read] at h
  split at h
  · cases h
  · have hvalue := (leaves_value Host.jsonDepth (skipSpace t)).of_suffix (skipSpace_suffix t)
    generalize value Host.jsonDepth (skipSpace t) = result at h hvalue
    cases hvalue with
    | rest =>
      simp only [bind, Except.bind] at h
      split at h <;> cases h
    | long hrun =>
      cases h
      exact hrun
    | _ => cases h

section FirstKey

variable {item : Step Json} {f : Text × Json} {acc fs fields : List (Text × Json)} {v : Json} {rest u : Text}

/-- The first field that is read stays in front. -/
theorem fields_first (h : Json.fields item n acc t = .ok (fs, r)) :
    ∃ f rest more, field item t = .ok (f, rest) ∧ fs = acc.reverse ++ f :: more := by
  induction n generalizing acc t with
  | zero => cases h
  | succ n ih =>
    rw [Json.fields] at h
    cases hf : field item t with
    | error fault =>
      rw [hf] at h
      cases h
    | ok found =>
      rw [hf] at h
      simp only [bind, Except.bind] at h
      split at h
      · split at h
        · cases h
          exact ⟨found.1, found.2, [], rfl, List.reverse_cons⟩
        split at h
        · obtain ⟨g, _, more, -, rfl⟩ := ih h
          exact ⟨found.1, found.2, g :: more, rfl, by simp⟩
        · cases h
      · cases h

/-- A key that was written is the key that is read. -/
theorem field_key {key : Text} (h : field item (writeString key ++ r) = .ok (f, rest)) : f.1 = joinPairs key := by
  have hstring := string_write key r
  rw [writeString_eq, List.cons_append] at h hstring
  rw [field, if_pos rfl, hstring] at h
  simp only [bind, Except.bind] at h
  split at h
  · split at h
    · split at h
      · cases h
      · cases h
        rfl
    · cases h
  · cases h

/-- What is skipped ends at what is no space, in front of `q` or at it. -/
theorem skipSpace_append {s w : Text} {q : CodePoint} (hq : isSpace q = false) :
    skipSpace (s ++ q :: w) = q :: w ∨ ∃ b r, skipSpace (s ++ q :: w) = b :: r ∧ b ∈ s := by
  rw [skipSpace, List.dropWhile_append]
  cases hd : s.dropWhile isSpace with
  | nil => exact Or.inl (skipSpace_cons hq w)
  | cons b r => exact Or.inr ⟨b, r ++ q :: w, rfl, (List.dropWhile_sublist isSpace).subset (hd ▸ List.mem_cons_self)⟩

theorem value_object_zero (x : Text) : value 0 (CodePoint.ofChar '\x7b' :: x) = .error .tooDeep := by
  have hquote : CodePoint.ofChar '\x7b' ≠ CodePoint.ofChar '"' := by decide
  have hbracket : CodePoint.ofChar '\x7b' ≠ CodePoint.ofChar '[' := by decide
  rw [value, if_neg hquote, if_neg hbracket, if_pos rfl]

/-- What is read for an object is what is read for its fields. -/
theorem fields_of_value {depth : Nat} {x y : Text} (hx : skipSpace x = c :: y) (hc : c ≠ CodePoint.ofChar '\x7d')
    (h : value depth (CodePoint.ofChar '\x7b' :: x) = .ok (.obj fields, u)) :
    ∃ k n fs, Json.fields (value k) n [] (c :: y) = .ok (fs, u) ∧ fields = ofPairs fs := by
  have hquote : CodePoint.ofChar '\x7b' ≠ CodePoint.ofChar '"' := by decide
  have hbracket : CodePoint.ofChar '\x7b' ≠ CodePoint.ofChar '[' := by decide
  obtain _ | k := depth
  · rw [value_object_zero] at h
    cases h
  rw [value, if_neg hquote, if_neg hbracket, if_pos rfl] at h
  simp only [hx, if_neg hc] at h
  cases hf : Json.fields (value k) (CodePoint.ofChar '\x7b' :: x).length [] (c :: y) with
  | error fault =>
    rw [hf] at h
    cases h
  | ok found =>
    rw [hf] at h
    cases h
    exact ⟨k, _, found.1, hf, rfl⟩

/-- A document that is read begins with its value. -/
theorem value_of_read [Host] (h : read t = .ok v) : ∃ u, value Host.jsonDepth (skipSpace t) = .ok (v, u) := by
  rw [read] at h
  split at h
  · cases h
  cases hv : value Host.jsonDepth (skipSpace t) with
  | error fault =>
    rw [hv] at h
    cases h
  | ok found =>
    rw [hv] at h
    simp only [bind, Except.bind] at h
    split at h
    · cases h
      exact ⟨found.2, rfl⟩
    · cases h

/-- The first key of an object is among its keys. Between its brace and the key stands nothing but what may be skipped,
and nothing that could be taken for the key or for the end. -/
theorem lookup_firstKey [Host] {s key : Text} (hs : ∀ c ∈ s, c ≠ CodePoint.ofChar '"' ∧ c ≠ CodePoint.ofChar '\x7d')
    (h : read (CodePoint.ofChar '\x7b' :: (s ++ (writeString key ++ r))) = .ok (.obj fields)) :
    (lookup (joinPairs key) fields).isSome := by
  obtain ⟨u, hvalue⟩ := value_of_read h
  rw [skipSpace_cons (by decide)] at hvalue
  have hfirst : ∃ k n fs, Json.fields (value k) n [] (writeString key ++ r) = .ok (fs, u) ∧ fields = ofPairs fs := by
    rw [writeString_eq, List.cons_append] at hvalue ⊢
    rcases skipSpace_append (s := s) (q := CodePoint.ofChar '"') (by decide) with hskip | ⟨b, y, hskip, hb⟩
    · exact fields_of_value hskip (by decide) hvalue
    · obtain ⟨k, n, fs, hfields, -⟩ := fields_of_value hskip (hs b hb).2 hvalue
      obtain ⟨f, _, _, hfield, -⟩ := fields_first hfields
      rw [field, if_neg (hs b hb).1] at hfield
      cases hfield
  obtain ⟨k, n, fs, hfields, rfl⟩ := hfirst
  obtain ⟨f, _, more, hfield, rfl⟩ := fields_first hfields
  have hmem : joinPairs key ∈ Table.keys (Table.ofPairs ([].reverse ++ f :: more)) := by
    rw [Table.mem_keys_ofPairs, ← field_key hfield]
    exact List.mem_cons_self
  exact Option.isSome_iff_ne_none.mpr (Table.mem_keys_iff.mp hmem)

end FirstKey

end CodeAgent.Json
