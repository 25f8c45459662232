import CodeAgent.Agent.Parameters
import Mathlib.Data.List.Forall2

namespace CodeAgent

namespace Checked

variable {α β γ : Type} {a : Checked α} {b : Checked β}

theorem both_eq_ok {f : α → β → γ} {c : γ} :
    both f a b = .ok c ↔ ∃ x y, a = .ok x ∧ b = .ok y ∧ f x y = c := by
  cases a <;> cases b <;> simp [both]

theorem both_ok {f : α → β → γ} {x : α} {y : β} (ha : a = .ok x) (hb : b = .ok y) : both f a b = .ok (f x y) :=
  both_eq_ok.mpr ⟨x, y, ha, hb, rfl⟩

theorem within_eq_ok {place : Text} {x : α} : within place a = .ok x ↔ a = .ok x := by
  cases a <;> simp [within]

theorem map_eq_ok {f : α → β} {y : β} : Except.map f a = .ok y ↔ ∃ x, a = .ok x ∧ f x = y := by
  cases a <;> simp [Except.map]

end Checked

namespace Parameter

open Checked

variable {α : Type} {read : Json → Checked α} {fields : List (Text × Json)} {a : α} {v : Json}

/-- What is read as a text that must not be empty. -/
theorem nonEmptyString_eq_ok {t : Text} :
    nonEmptyString v = .ok t ↔ v = .str t ∧ (∀ c ∈ t, c.isSurrogate = false) ∧ t ≠ [] := by
  cases v with
  | str s =>
    simp only [nonEmptyString, fail, List.any_eq_true, List.isEmpty_iff, Json.str.injEq]
    split
    · rename_i h
      obtain ⟨c, hc, hs⟩ := h
      simp only [reduceCtorEq, false_iff, not_and]
      rintro rfl hall
      rw [hall c hc] at hs
      cases hs
    · rename_i h
      have hall : ∀ c ∈ s, c.isSurrogate = false := fun c hc => by
        by_contra hs
        exact h ⟨c, hc, by simpa using hs⟩
      split
      · rename_i he
        simp only [reduceCtorEq, false_iff, not_and]
        rintro rfl _ hne
        exact hne he
      · rename_i hne
        simp only [Except.ok.injEq]
        constructor
        · rintro rfl
          exact ⟨rfl, hall, hne⟩
        · exact And.left
  | _ => simp [nonEmptyString, fail]

theorem atLeast_eq_ok {least n : Nat} :
    atLeast least v = .ok n ↔ ∃ i, integer v = .ok i ∧ (least : Int) ≤ i ∧ i.toNat = n := by
  rw [atLeast]
  split
  · rename_i h
    simp [h, fail]
  · rename_i i h
    split
    · rename_i hle
      simp [h, hle]
    · rename_i hlt
      simp [h, hlt, fail]

theorem optional_eq_ok {o : Option α} :
    optional read v = .ok o ↔ v = .null ∧ o = none ∨ v ≠ .null ∧ ∃ a, read v = .ok a ∧ o = some a := by
  cases v with
  | null => simp [optional, eq_comm]
  | _ =>
    simp only [optional, reduceCtorEq, false_and, ne_eq, not_false_eq_true, true_and, false_or]
    split
    · rename_i h
      simp [h, eq_comm]
    · rename_i h
      simp [h]

theorem required_eq_ok {names : List Text} :
    required names read fields = .ok a ↔
      ∃ n v, names.findSome? (fun n => (Json.lookup n fields).map (n, ·)) = some (n, v) ∧ read v = .ok a := by
  rw [required]
  split
  · rename_i n v h
    simp [h, within_eq_ok]
  · rename_i h
    simp [h, within_eq_ok, fail]

theorem withDefault_eq_ok {default : α} {name : Text} :
    withDefault default name read fields = .ok a ↔
      Json.lookup name fields = none ∧ default = a ∨ ∃ v, Json.lookup name fields = some v ∧ read v = .ok a := by
  rw [withDefault]
  split
  · rename_i v h
    simp [h, within_eq_ok]
  · rename_i h
    simp [h]

theorem listItems_eq_ok {items : List Json} {as : List α} {i : Nat} :
    listItems read i items = .ok as ↔ List.Forall₂ (fun v a => read v = .ok a) items as := by
  induction items generalizing i as with
  | nil => cases as <;> simp [listItems]
  | cons v rest ih =>
    simp only [listItems, both_eq_ok, within_eq_ok, ih]
    constructor
    · rintro ⟨a, as, hv, hrest, rfl⟩
      exact .cons hv hrest
    · intro h
      cases h with
      | cons hv hrest => exact ⟨_, _, hv, hrest, rfl⟩

theorem nonEmptyList_eq_ok {as : List α} :
    nonEmptyList read v = .ok as ↔
      ∃ items, v = .arr items ∧ items ≠ [] ∧ List.Forall₂ (fun v a => read v = .ok a) items as := by
  cases v with
  | arr items =>
    cases items with
    | nil => simp [nonEmptyList, fail]
    | cons v rest => simp [nonEmptyList, listItems_eq_ok]
  | _ => simp [nonEmptyList, fail]

theorem ne_nil_of_nonEmptyList {as : List α} (h : nonEmptyList read v = .ok as) : as ≠ [] := by
  obtain ⟨items, -, hne, hall⟩ := nonEmptyList_eq_ok.mp h
  rintro rfl
  exact hne (List.forall₂_nil_right_iff.mp hall)

theorem le_of_atLeast {least n : Nat} (h : atLeast least v = .ok n) : least ≤ n := by
  obtain ⟨i, -, hle, rfl⟩ := atLeast_eq_ok.mp h
  omega

end Parameter

open Checked Parameter in
/-- A call that is read has the kind it was read for, and promises what every call does. -/
theorem Invocation.read_valid {kind : ToolKind} {fields : List (Text × Json)} {i : Invocation}
    (h : Invocation.read kind fields = .ok i) : i.kind = kind ∧ i.Valid := by
  cases kind with
  | editFile =>
    obtain ⟨path, edits, -, hedits, rfl⟩ := both_eq_ok.mp h
    obtain ⟨_, _, -, hread⟩ := required_eq_ok.mp hedits
    exact ⟨rfl, ne_nil_of_nonEmptyList hread⟩
  | replaceLines =>
    obtain ⟨_, content, hplace, -, rfl⟩ := both_eq_ok.mp h
    obtain ⟨path, _, -, hlines, rfl⟩ := both_eq_ok.mp hplace
    obtain ⟨first, last, hfirst, hlast, rfl⟩ := both_eq_ok.mp hlines
    obtain ⟨_, _, -, hfirst⟩ := required_eq_ok.mp hfirst
    obtain ⟨_, _, -, hlast⟩ := required_eq_ok.mp hlast
    exact ⟨rfl, le_of_atLeast hfirst, le_of_atLeast hlast⟩
  | runCommand =>
    obtain ⟨command, hcommand, rfl⟩ := map_eq_ok.mp h
    obtain ⟨_, _, -, hread⟩ := required_eq_ok.mp hcommand
    exact ⟨rfl, (nonEmptyString_eq_ok.mp hread).2.2⟩
  | applyDiffs =>
    obtain ⟨changes, hchanges, rfl⟩ := map_eq_ok.mp h
    obtain ⟨_, _, -, hread⟩ := required_eq_ok.mp hchanges
    exact ⟨rfl, ne_nil_of_nonEmptyList hread⟩
  | semanticSearch =>
    obtain ⟨query, limit?, -, hlimit, rfl⟩ := both_eq_ok.mp h
    refine ⟨rfl, ?_⟩
    obtain ⟨-, rfl⟩ | ⟨v, -, hread⟩ := withDefault_eq_ok.mp hlimit
    · trivial
    · obtain ⟨-, rfl⟩ | ⟨-, limit, hleast, rfl⟩ := optional_eq_ok.mp hread
      · trivial
      · exact le_of_atLeast hleast
  | insertCode =>
    obtain ⟨_, content, hplace, -, rfl⟩ := both_eq_ok.mp h
    exact ⟨rfl, trivial⟩
  | showFile | listDirectory | deleteFile | createDirectory =>
    obtain ⟨path, -, rfl⟩ := map_eq_ok.mp h
    exact ⟨rfl, trivial⟩
  | writeFile | searchFiles | getBlastRadius =>
    obtain ⟨_, _, -, -, rfl⟩ := both_eq_ok.mp h
    exact ⟨rfl, trivial⟩
  | validateProject | runTests =>
    cases h
    exact ⟨rfl, trivial⟩

end CodeAgent
