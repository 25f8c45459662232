import CodeAgent.Host.Usual
import CodeAgent.Proofs.Source.Chunk

namespace CodeAgent.Source

section

variable [Host]

/-- Everything that is imported by name in a statement is an identifier. -/
inductive Stmt.NamesIdentifiers : Stmt → Prop where
  | mk {s : Stmt} (own : ∀ spec ∈ s.ownImports, ∀ name ∈ spec.names, IsIdentifier name)
      (parts : ∀ part ∈ s.parts, part.NamesIdentifiers) : s.NamesIdentifiers

namespace Stmt

theorem NamesIdentifiers.own {s : Stmt} (h : s.NamesIdentifiers) :
    ∀ spec ∈ s.ownImports, ∀ name ∈ spec.names, IsIdentifier name := by
  cases h
  assumption

theorem NamesIdentifiers.parts {s : Stmt} (h : s.NamesIdentifiers) : ∀ part ∈ s.parts, part.NamesIdentifiers := by
  cases h
  assumption

theorem kept_namesIdentifiers (n : Nat) : Stmt.Kept n NamesIdentifiers where
  plain := .mk (by simp [ownImports]) (by simp [Stmt.parts])
  block h := .mk (by simp [ownImports]) h
  importModules modules := .mk (by simp [ownImports]) (by simp [Stmt.parts])
  importFrom module level names h := .mk (by simpa [ownImports] using h) (by simp [Stmt.parts])
  bindLambda _ := .mk (by simp [ownImports]) (by simp [Stmt.parts])
  function name _ _ _ h := .mk (by simp [ownImports]) h
  classDef name _ _ _ h := .mk (by simp [ownImports]) h

end Stmt

theorem importsOf_identifiers {stmts : List Stmt} (h : ∀ s ∈ stmts, s.NamesIdentifiers) (fuel : Nat) :
    ∀ spec ∈ importsOf fuel stmts, ∀ name ∈ spec.names, IsIdentifier name := by
  induction fuel generalizing stmts with
  | zero => simp [importsOf]
  | succ n ih =>
    intro spec hspec
    rw [importsOf, List.mem_append] at hspec
    rcases hspec with hspec | hspec
    · obtain ⟨s, hs, hspec⟩ := List.mem_flatMap.mp hspec
      exact (h s hs).own spec hspec
    · refine ih (fun part hpart => ?_) spec hspec
      obtain ⟨s, hs, hpart⟩ := List.mem_flatMap.mp hpart
      exact (h s hs).parts part hpart

theorem imports_identifiers {stack : Stack} {source : Text} {file : List Stmt} (h : parse stack source = .ok file) :
    ∀ spec ∈ imports file, ∀ name ∈ spec.names, IsIdentifier name := by
  obtain ⟨cs, tokens, -, ht, hfile⟩ := parse_tokens h
  exact importsOf_identifiers ((Stmt.kept_namesIdentifiers _).fileOf (Lexer.tokens_ordered ht) hfile) _

/-- The composed form of an identifier is an identifier again. -/
def Composes : Prop :=
  ∀ cs, Identifier.isValid cs = true →
    ∃ composed, Identifier.isValid composed = true ∧
      Host.composed (cs.map CodePoint.ofChar) = composed.map CodePoint.ofChar

section
variable {t : Text} (hc : Composes)
include hc

theorem IsIdentifier.spelled (h : IsIdentifier t) :
    ∃ cs, Identifier.isValid cs = true ∧ t = cs.map CodePoint.ofChar := by
  obtain ⟨cs, hvalid, rfl⟩ := h
  unfold Identifier.text
  dsimp only
  split
  · exact ⟨cs, hvalid, rfl⟩
  · exact hc cs hvalid

/-- A character that cannot stand in an identifier is not in the text of one. -/
theorem IsIdentifier.lacks (h : IsIdentifier t) {c : Char} (hstart : Identifier.isStart c = false)
    (hcontinue : Identifier.isContinue c = false) : CodePoint.ofChar c ∉ t := by
  obtain ⟨cs, hvalid, rfl⟩ := h.spelled hc
  have hchar : c ∉ cs := by
    intro hc
    unfold Identifier.isValid at hvalid
    split at hvalid
    · cases hc
    · rw [Bool.and_eq_true, List.all_eq_true] at hvalid
      rcases List.mem_cons.mp hc with rfl | hc
      · rw [hstart] at hvalid
        cases hvalid.1
      · rw [hvalid.2 c hc] at hcontinue
        cases hcontinue
  intro hm
  obtain ⟨d, hd, he⟩ := List.mem_map.mp hm
  exact hchar (Text.ofChar_injective he ▸ hd)

/-- The text of an identifier has no dot in it. -/
theorem IsIdentifier.noDot (h : IsIdentifier t) : ∀ c ∈ t, c.val ≠ 46 := by
  intro c hm hdot
  obtain rfl : c = CodePoint.ofChar '.' := by
    obtain ⟨val, valid⟩ := c
    obtain rfl : val = 46 := hdot
    rfl
  exact h.lacks hc (by decide) (by decide) hm

theorem IsIdentifier.ne_nil (h : IsIdentifier t) : t ≠ [] := by
  obtain ⟨cs, hvalid, rfl⟩ := h.spelled hc
  cases cs with
  | nil => cases hvalid
  | cons c rest => exact List.cons_ne_nil _ _

end

end

/-- Where nothing is composed but the ligature of f and i. -/
theorem composes_usual : @Composes Host.usual := by
  have hcontinue {cs : List Char} (h : cs.all Identifier.isContinue = true) :
      (cs.flatMap fun c => if c.toNat = 0xfb01 then ['f', 'i'] else [c]).all Identifier.isContinue = true := by
    simp only [List.all_eq_true, List.mem_flatMap] at h ⊢
    rintro x ⟨c, hc, hx⟩
    split at hx
    · simp only [List.mem_cons, List.not_mem_nil, or_false] at hx
      rcases hx with rfl | rfl <;> decide
    · exact List.mem_singleton.mp hx ▸ h c hc
  intro cs hvalid
  refine ⟨cs.flatMap fun c => if c.toNat = 0xfb01 then ['f', 'i'] else [c], ?_, ?_⟩
  · cases cs with
    | nil => cases hvalid
    | cons c rest =>
      obtain ⟨hstart, hrest⟩ := Bool.and_eq_true_iff.mp hvalid
      have hrest := hcontinue hrest
      rw [List.flatMap_cons]
      split
      · have hf : Identifier.isStart 'f' = true := by decide
        have hi : Identifier.isContinue 'i' = true := by decide
        exact Bool.and_eq_true_iff.mpr ⟨hf, Bool.and_eq_true_iff.mpr ⟨hi, hrest⟩⟩
      · exact Bool.and_eq_true_iff.mpr ⟨hstart, hrest⟩
  · change (cs.map CodePoint.ofChar).flatMap (fun c => if c.val = 0xfb01 then ("fi" : Text) else [c]) = _
    rw [List.flatMap_map, List.map_flatMap]
    congr 1
    funext c
    change (if c.toNat = 0xfb01 then _ else _) = _
    split <;> rfl

/-- A statement stands among others or inside one of them, at whatever depth. -/
inductive Stands (s : Stmt) : List Stmt → Prop where
  | here {stmts : List Stmt} (h : s ∈ stmts) : Stands s stmts
  | inside {stmts : List Stmt} {outer : Stmt} (h : outer ∈ stmts) (hs : Stands s outer.parts) : Stands s stmts

theorem Stands.ne_nil {s : Stmt} {stmts : List Stmt} (h : Stands s stmts) : stmts ≠ [] := by
  rintro rfl
  rcases h with h | ⟨h, -⟩ <;> cases h

theorem Stands.mono {s : Stmt} {stmts stmts' : List Stmt} (h : Stands s stmts) (hsub : stmts ⊆ stmts') :
    Stands s stmts' := by
  cases h with
  | here h => exact .here (hsub h)
  | inside h hs => exact .inside (hsub h) hs

namespace Stmt

theorem height_eq (s : Stmt) : s.height = heightAll s.parts + 1 := by
  cases s <;> simp [height, parts, heightAll]

theorem heightAll_append (a b : List Stmt) : heightAll (a ++ b) = max (heightAll a) (heightAll b) := by
  induction a with
  | nil => simp [heightAll]
  | cons s a ih => rw [List.cons_append, heightAll, heightAll, ih, Nat.max_assoc]

/-- Inside statements there are fewer levels than in them. -/
theorem heightAll_parts_lt {stmts : List Stmt} (h : stmts ≠ []) :
    heightAll (stmts.flatMap parts) < heightAll stmts := by
  induction stmts with
  | nil => exact absurd rfl h
  | cons s rest ih =>
    have hs := s.height_eq
    rw [List.flatMap_cons, heightAll_append, heightAll]
    cases rest with
    | nil =>
      simp only [List.flatMap_nil, heightAll]
      omega
    | cons s' rest =>
      have hrest := ih (List.cons_ne_nil s' rest)
      omega

end Stmt

/-- An import counts wherever in the file it stands. -/
theorem mem_importsOf {s : Stmt} {spec : ImportSpec} {stmts : List Stmt} {fuel : Nat} (h : Stands s stmts)
    (hspec : spec ∈ s.ownImports) (hfuel : Stmt.heightAll stmts ≤ fuel) : spec ∈ importsOf fuel stmts := by
  induction fuel generalizing stmts with
  | zero =>
    have hlevels := Stmt.heightAll_parts_lt h.ne_nil
    omega
  | succ n ih =>
    have hlevels := Stmt.heightAll_parts_lt h.ne_nil
    rw [importsOf, List.mem_append]
    cases h with
    | here h => exact Or.inl (List.mem_flatMap.mpr ⟨s, h, hspec⟩)
    | @inside _ outer h hs =>
      have hdeeper : Stands s (stmts.flatMap Stmt.parts) :=
        hs.mono fun part hpart => List.mem_flatMap.mpr ⟨outer, h, hpart⟩
      exact Or.inr (ih hdeeper (by omega))

theorem mem_imports {s : Stmt} {spec : ImportSpec} {file : List Stmt} (h : Stands s file)
    (hspec : spec ∈ s.ownImports) : spec ∈ imports file :=
  mem_importsOf h hspec (Nat.le_refl _)

end CodeAgent.Source
