import CodeAgent.Proofs.Edit.Sequence

namespace CodeAgent.Edit
open Transaction

variable {e : Edit} {edits : List Edit} {t t' final final' : Text}

/-- Every search text occurs at its turn, and `final` is what comes of the text. -/
inductive InTurn : List Edit → Text → Text → Prop where
  | nil {t : Text} : InTurn [] t t
  | cons {e : Edit} {edits : List Edit} {t t' final : Text} (here : Replaces e t t') (tail : InTurn edits t' final) :
      InTurn (e :: edits) t final

/-- At some position the search text is empty, or does not occur in what the edits before it make of the text. -/
def Blocked (edits : List Edit) (t : Text) : Prop :=
  ∃ before e after t', edits = before ++ e :: after ∧ InTurn before t t' ∧ (e.search = [] ∨ ¬ e.search <:+: t')

theorem InTurn.unique (h : InTurn edits t final) (h' : InTurn edits t final') : final = final' := by
  induction h with
  | nil =>
    cases h'
    rfl
  | cons here tail ih =>
    cases h' with
    | cons here' tail' =>
      rw [here.unique here'] at ih
      exact ih tail'

theorem InTurn.encodable (h : InTurn edits t final) (ht : Utf8.Encodable t)
    (he : ∀ e ∈ edits, Utf8.Encodable e.replacement) : Utf8.Encodable final := by
  induction h with
  | nil => exact ht
  | cons here tail ih =>
    obtain ⟨hfirst, hrest⟩ := List.forall_mem_cons.mp he
    exact ih (here.encodable ht hfirst) hrest

/-- An edit that can be made puts the others before what it makes of the text. -/
theorem blocked_cons (here : Replaces e t t') (hs : e.search ≠ []) : Blocked (e :: edits) t ↔ Blocked edits t' := by
  constructor
  · intro ⟨before, f, after, u, hsplit, hbefore, hstop⟩
    cases hbefore with
    | nil =>
      obtain ⟨rfl, -⟩ := List.cons.inj hsplit
      rcases hstop with hempty | hmissing
      · exact absurd hempty hs
      · exact absurd here.occurs hmissing
    | cons here' tail =>
      obtain ⟨rfl, rfl⟩ := List.cons.inj hsplit
      rw [here'.unique here] at tail
      exact ⟨_, f, after, u, rfl, tail, hstop⟩
  · intro ⟨before, f, after, u, hsplit, hbefore, hstop⟩
    exact ⟨e :: before, f, after, u, by rw [hsplit, List.cons_append], .cons here hbefore, hstop⟩

theorem blocked_here (h : e.search = [] ∨ ¬ e.search <:+: t) : Blocked (e :: edits) t :=
  ⟨[], e, edits, t, rfl, .nil, h⟩

theorem not_blocked_nil : ¬ Blocked [] t := by
  intro ⟨before, f, after, u, hsplit, _⟩
  simp at hsplit

/-- A list of edits comes to its end, or stops because it is blocked. -/
theorem applyAll_cases (edits : List Edit) (t : Text) :
    (∃ final, applyAll edits t = .ok final ∧ InTurn edits t final ∧ ¬ Blocked edits t) ∨
      (∃ fault, applyAll edits t = .error fault) ∧ Blocked edits t := by
  induction edits generalizing t with
  | nil => exact Or.inl ⟨t, rfl, .nil, not_blocked_nil⟩
  | cons e edits ih =>
    rw [applyAll]
    split
    · rename_i hempty
      exact Or.inr ⟨⟨_, rfl⟩, blocked_here (Or.inl (by simpa using hempty))⟩
    · rename_i hsearch
      have hs : e.search ≠ [] := by simpa using hsearch
      split
      · rename_i hoccurs
        have here := replaces_apply hoccurs
        rw [blocked_cons here hs]
        refine (ih (e.apply t)).imp_left ?_
        intro ⟨final, hall, htail, hfree⟩
        exact ⟨final, hall, .cons here htail, hfree⟩
      · rename_i hmissing
        have hinfix := not_infix_of_not_occursIn (Bool.not_eq_true _ ▸ hmissing)
        refine Or.inr ⟨?_, blocked_here (Or.inr hinfix)⟩
        split <;> exact ⟨_, rfl⟩

/-- The blocks of a transaction do to a text what the same edits do, if no search text is empty. -/
theorem applyBlocks_toOption (hs : ∀ e ∈ edits, e.search ≠ []) (n : Nat) (t : Text) :
    (applyBlocks n edits t).toOption = (applyAll edits t).toOption := by
  induction edits generalizing n t with
  | nil => rfl
  | cons e edits ih =>
    obtain ⟨hfirst, hrest⟩ := List.forall_mem_cons.mp hs
    have hsearch : ¬ e.search.isEmpty = true := by simpa using hfirst
    rw [applyBlocks, applyAll, if_neg hsearch]
    split
    · exact ih hrest (n + 1) (e.apply t)
    · split <;> rfl

theorem applyBlocks_of_applyAll_ok (hs : ∀ e ∈ edits, e.search ≠ []) (h : applyAll edits t = .ok final) (n : Nat) :
    applyBlocks n edits t = .ok final := by
  have hsame := applyBlocks_toOption hs n t
  rw [h] at hsame
  cases hb : applyBlocks n edits t with
  | ok final' =>
    rw [hb] at hsame
    exact congrArg Except.ok (Option.some.inj hsame)
  | error number =>
    rw [hb] at hsame
    cases hsame

theorem applyBlocks_of_applyAll_error {fault : Fault} (hs : ∀ e ∈ edits, e.search ≠ [])
    (h : applyAll edits t = .error fault) (n : Nat) : ∃ number, applyBlocks n edits t = .error number := by
  have hsame := applyBlocks_toOption hs n t
  rw [h] at hsame
  cases hb : applyBlocks n edits t with
  | ok final =>
    rw [hb] at hsame
    cases hsame
  | error number => exact ⟨number, rfl⟩

end CodeAgent.Edit
