import Mathlib
import CodeAgent.Source.Cursor

namespace CodeAgent.Source

def TokenKind.IsSpelled : TokenKind → Prop
  | .name cs => Identifier.isValid cs = true
  | _ => True

theorem TokenKind.isSpelled_of_isLayout {kind : TokenKind} (h : kind.isLayout = true) : kind.IsSpelled := by
  cases kind with
  | name cs => cases h
  | _ => trivial

namespace Cursor

/-- A condition on cursors that taking tokens keeps. -/
class Stable (I : Cursor → Prop) : Prop where
  keep : ∀ {c c' : Cursor}, c.Leads c' → I c → I c'

/-- Tokens in the order of their lines, which are lines of a text of `n` lines as far as statements can end on
them. -/
structure Ordered (n : Nat) (c : Cursor) : Prop where
  sorted : c.tokens.Pairwise fun t u => t.endLine ≤ u.line
  spans : ∀ t ∈ c.tokens, 1 ≤ t.line ∧ t.line ≤ t.endLine
  ahead : ∀ t ∈ c.tokens, c.lastLine ≤ t.line
  inside : ∀ t ∈ c.tokens, t.kind.isLayout = false → t.endLine ≤ n
  spelled : ∀ t ∈ c.tokens, t.kind.IsSpelled
  last : c.lastLine ≤ n

/-- Without its first token a run of tokens is in order, and begins no earlier. -/
theorem Ordered.take {n before : Nat} {t : Token} {rest : List Token}
    (h : Ordered n ⟨t :: rest, before⟩) :
    Ordered n ⟨rest, t.lastLine before⟩ ∧ before ≤ t.lastLine before := by
  obtain ⟨hspan, hend⟩ := h.spans t List.mem_cons_self
  have hbefore : before ≤ t.line := h.ahead t List.mem_cons_self
  have hlast : before ≤ t.lastLine before := by
    unfold Token.lastLine
    split
    · exact Nat.le_refl before
    · exact Nat.le_trans hbefore hend
  refine ⟨⟨(List.pairwise_cons.mp h.sorted).2, fun u hu => h.spans u (List.mem_cons_of_mem t hu), ?_,
    fun u hu => h.inside u (List.mem_cons_of_mem t hu), fun u hu => h.spelled u (List.mem_cons_of_mem t hu), ?_⟩,
    hlast⟩
  · intro u hu
    have hafter : t.endLine ≤ u.line := (List.pairwise_cons.mp h.sorted).1 u hu
    change t.lastLine before ≤ u.line
    unfold Token.lastLine
    split
    · exact h.ahead u (List.mem_cons_of_mem t hu)
    · exact hafter
  · change t.lastLine before ≤ n
    unfold Token.lastLine
    split
    · exact h.last
    · rename_i hk
      exact h.inside t List.mem_cons_self (by simpa using hk)

theorem Ordered.mono {m n : Nat} {c : Cursor} (h : Ordered m c) (hle : m ≤ n) : Ordered n c :=
  ⟨h.sorted, h.spans, h.ahead, fun t ht hk => Nat.le_trans (h.inside t ht hk) hle, h.spelled,
    Nat.le_trans h.last hle⟩

/-- The last line that was read never goes back. -/
theorem Ordered.keep {n : Nat} {c c' : Cursor} (hl : c.Leads c') (h : Ordered n c) :
    Ordered n c' ∧ c.lastLine ≤ c'.lastLine := by
  induction hl with
  | refl _ => exact ⟨h, Nat.le_refl _⟩
  | take _ ih =>
    obtain ⟨htaken, hle⟩ := h.take
    obtain ⟨hc, hle'⟩ := ih htaken
    exact ⟨hc, Nat.le_trans hle hle'⟩

instance {n : Nat} : Stable (Ordered n) := ⟨fun hl h => (h.keep hl).1⟩

/-- Every token that is left stands on a line from the `k`-th on. -/
structure From (n k : Nat) (c : Cursor) : Prop extends Ordered n c where
  since : ∀ t ∈ c.tokens, k ≤ t.line

theorem From.keep {n k : Nat} {c c' : Cursor} (hl : c.Leads c') (h : From n k c) : From n k c' := by
  refine ⟨(h.toOrdered.keep hl).1, ?_⟩
  have hsub : c'.tokens ⊆ c.tokens := by
    clear h
    induction hl with
    | refl _ => exact List.Subset.refl _
    | take _ ih => exact List.subset_cons_of_subset _ ih
  exact fun t ht => h.since t (hsub ht)

instance {n k : Nat} : Stable (From n k) := ⟨From.keep⟩

/-- A token on the `k`-th line or later was taken. -/
structure Past (n k : Nat) (c : Cursor) : Prop extends Ordered n c where
  since : 1 ≤ c.lastLine ∧ k ≤ c.lastLine

instance {n k : Nat} : Stable (Past n k) where
  keep hl h := by
    obtain ⟨hc, hle⟩ := h.toOrdered.keep hl
    exact ⟨hc, Nat.le_trans h.since.1 hle, Nat.le_trans h.since.2 hle⟩

/-- Where the next token is, the others are or come later. -/
theorem Ordered.since_line {n : Nat} {c : Cursor} (h : Ordered n c) :
    From n ((c.tokens.head?.map Token.line).getD 0) c := by
  refine ⟨h, ?_⟩
  obtain ⟨tokens, before⟩ := c
  cases tokens with
  | nil => exact fun _ ht => nomatch ht
  | cons t rest =>
    intro u hu
    rcases List.mem_cons.mp hu with rfl | hu
    · exact Nat.le_refl _
    · exact Nat.le_trans (h.spans t List.mem_cons_self).2 ((List.pairwise_cons.mp h.sorted).1 u hu)

theorem From.take {n k before : Nat} {t : Token} {rest : List Token} (h : From n k ⟨t :: rest, before⟩)
    (hk : t.kind.isLayout = false) : Past n k ⟨rest, t.lastLine before⟩ := by
  obtain ⟨hpos, hend⟩ := h.spans t List.mem_cons_self
  have hlast : t.lastLine before = t.endLine := by
    unfold Token.lastLine
    rw [hk]
    rfl
  refine ⟨h.toOrdered.take.1, ?_⟩
  change 1 ≤ t.lastLine before ∧ k ≤ t.lastLine before
  rw [hlast]
  exact ⟨Nat.le_trans hpos hend, Nat.le_trans (h.since t List.mem_cons_self) hend⟩

end Cursor

namespace Reader

open Cursor

variable {α β : Type} {I J : Cursor → Prop} {p q : Reader α} {P Q : α → Prop} {R : β → Prop}

/-- Whatever a reader gives at a cursor that meets a condition has a property. -/
def Yields (I : Cursor → Prop) (p : Reader α) (P : α → Prop) : Prop :=
  ∀ ⦃c c' : Cursor⦄ ⦃a : α⦄, I c → p.read c = some (a, c') → P a

theorem yields_pure {a : α} (h : P a) : Yields I (pure a) P := by
  intro c c' b _ hr
  cases hr
  exact h

theorem yields_fail : Yields I (fail : Reader α) P := by
  intro c c' a _ hr
  cases hr

theorem Yields.mono (h : Yields I p P) (hI : ∀ c, J c → I c) (hP : ∀ a, P a → Q a) :
    Yields J p Q :=
  fun _ _ _ hc hr => hP _ (h (hI _ hc) hr)

theorem read_bind {f : α → Reader β} {c c' : Cursor} {b : β}
    (h : (p >>= f).read c = some (b, c')) :
    ∃ a d, p.read c = some (a, d) ∧ (f a).read d = some (b, c') := by
  change (andThen p f).read c = some (b, c') at h
  dsimp only [andThen] at h
  split at h
  · rename_i a d hp
    exact ⟨a, d, hp, h⟩
  · cases h

/-- The second reader starts where the condition still holds. -/
theorem Yields.bind [Stable I] (h : Yields I p P) {f : α → Reader β}
    (hf : ∀ a, P a → Yields I (f a) R) : Yields I (p >>= f) R := by
  intro c c' b hc hr
  obtain ⟨a, d, hp, hr⟩ := read_bind hr
  exact hf a (h hc hp) (Stable.keep (p.forward hp) hc) hr

theorem yields_bind [Stable I] {f : α → Reader β} (hf : ∀ a, Yields I (f a) R) :
    Yields I (p >>= f) R := by
  intro c c' b hc hr
  obtain ⟨a, d, hp, hr⟩ := read_bind hr
  exact hf a (Stable.keep (p.forward hp) hc) hr

theorem read_either (p q : Reader α) (c : Cursor) :
    (either p q).read c = ((p.read c).or (q.read c)) := by
  dsimp only [either]
  cases p.read c with
  | some r => rfl
  | none => rfl

theorem yields_either (hp : Yields I p P) (hq : Yields I q P) : Yields I (either p q) P := by
  intro c c' a hc hr
  rw [read_either, Option.or_eq_some_iff] at hr
  rcases hr with hr | ⟨-, hr⟩
  · exact hp hc hr
  · exact hq hc hr

theorem read_optional {c c' : Cursor} {a : α} (h : (optional p).read c = some (some a, c')) :
    p.read c = some (a, c') := by
  rw [optional, read_either, Option.or_eq_some_iff] at h
  rcases h with h | ⟨-, h⟩
  · obtain ⟨b, d, hp, hb⟩ := read_bind h
    cases hb
    exact hp
  · cases h

theorem yields_whileTrue [Stable I] {test : Reader Bool} (h : Yields I p P) (fuel : Nat) :
    Yields I (whileTrue test p fuel) fun as => ∀ a ∈ as, P a := by
  induction fuel with
  | zero => exact yields_pure fun a ha => nomatch ha
  | succ n ih =>
    refine yields_bind fun more => ?_
    split
    · refine h.bind fun a ha => ih.bind fun as has => yields_pure ?_
      exact List.forall_mem_cons.mpr ⟨ha, has⟩
    · exact yields_pure fun a ha => nomatch ha

theorem yields_repeatWhile [Stable I] {test : Reader Bool} (h : Yields I p P) :
    Yields I (repeatWhile test p) fun as => ∀ a ∈ as, P a :=
  yields_bind fun _ => yields_whileTrue h _

theorem yields_separated [Stable I] {sep : String} (h : Yields I p P) :
    Yields I (separated sep p) fun as => ∀ a ∈ as, P a :=
  h.bind fun _ ha => (yields_repeatWhile h).bind fun _ has => yields_pure (List.forall_mem_cons.mpr ⟨ha, has⟩)

theorem yields_commaList [Stable I] {stop : Reader Bool} (h : Yields I p P) :
    Yields I (commaList stop p) fun items => ∀ a ∈ items.1, P a := by
  unfold commaList
  refine h.bind fun a ha => (yields_repeatWhile (yields_bind fun _ => h)).bind fun as has => ?_
  exact yields_bind fun closed => yields_pure (List.forall_mem_cons.mpr ⟨ha, has⟩)

/-- A name is spelled as an identifier. -/
theorem yields_spelling {n : Nat} : Yields (Ordered n) spelling fun cs => Identifier.isValid cs = true := by
  intro c c' cs hc hr
  obtain ⟨kind, d, hp, hr⟩ := read_bind hr
  obtain ⟨tokens, before⟩ := c
  cases tokens with
  | nil =>
    cases hp
    cases hr
  | cons t rest =>
    cases hp
    have hspelled := hc.spelled t List.mem_cons_self
    change (match t.kind with
      | .name cs => (do advance; pure cs : Reader (List Char))
      | _ => fail).read _ = _ at hr
    split at hr
    · rename_i spelled hk
      rw [hk] at hspelled
      obtain ⟨_, _, _, hlast⟩ := read_bind hr
      cases hlast
      exact hspelled
    · cases hr

/-- What is read from the line of the next token on. -/
theorem yields_line {n : Nat} {f : Nat → Reader β} (hf : ∀ k, Yields (From n k) (f k) R) :
    Yields (Ordered n) (line >>= f) R := by
  intro c c' b hc hr
  obtain ⟨k, d, hp, hr⟩ := read_bind hr
  cases hp
  exact hf _ hc.since_line hr

/-- A reserved word or an operator is a token that was taken. -/
theorem mark_past {n k : Nat} {s : String} {c c' : Cursor} {u : Unit} (hc : From n k c)
    (h : (mark s).read c = some (u, c')) : Past n k c' := by
  unfold mark expect at h
  obtain ⟨taken, d, ha, h⟩ := read_bind h
  obtain ⟨tokens, before⟩ := c
  cases tokens with
  | nil =>
    cases ha
    cases h
  | cons t rest =>
    change (if decide (t.kind = .mark s) = true then
      some (true, (⟨rest, t.lastLine before⟩ : Cursor)) else some (false, ⟨t :: rest, before⟩)) = _ at ha
    split at ha
    · rename_i hk
      cases ha
      cases h
      exact hc.take (by rw [of_decide_eq_true hk]; rfl)
    · cases ha
      cases h

theorem yields_mark {n k : Nat} {s : String} {f : Unit → Reader β} (hf : Yields (Past n k) (f ()) R) :
    Yields (From n k) (mark s >>= f) R := by
  intro c c' b hc hr
  obtain ⟨u, d, hm, hr⟩ := read_bind hr
  exact hf (mark_past hc hm) hr

/-- The last line of what was read so far. -/
theorem yields_lastLine {n k : Nat} {f : Nat → Reader β}
    (hf : ∀ l, 1 ≤ l → k ≤ l → l ≤ n → Yields (Past n k) (f l) R) :
    Yields (Past n k) (lastLine >>= f) R := by
  intro c c' b hc hr
  obtain ⟨l, d, hp, hr⟩ := read_bind hr
  cases hp
  exact hf _ hc.since.1 hc.since.2 hc.last hc hr

variable [Host]

theorem yields_name {n : Nat} :
    Yields (Ordered n) name fun t => ∃ cs, Identifier.isValid cs = true ∧ t = Identifier.text cs :=
  yields_spelling.bind fun cs hcs => yields_pure ⟨cs, hcs, rfl⟩

end Reader

end CodeAgent.Source
