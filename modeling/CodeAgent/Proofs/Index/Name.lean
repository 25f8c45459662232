import CodeAgent.Index.Basic
import CodeAgent.Proofs.Disk.Scan
import CodeAgent.Proofs.Text.Utf8

namespace CodeAgent.SemanticIndex
open Disk

variable {ix : SemanticIndex} {d d' : Disk} {p : Path} {name : Text}

/-- The root of an index was resolved when the index was made. -/
structure Rooted (ix : SemanticIndex) : Prop where
  root : ix.root.root = [Path.slash]
  clean : Clean ix.root.parts

theorem rooted_of_resolve {given : Text} (h : d.resolve (Path.ofText given) = .ok ix.root) : ix.Rooted := by
  obtain ⟨hc, hr⟩ := (kept_clean d).resolve (fun _ hm => Path.mem_ofText hm) h
  exact ⟨hr, hc⟩

theorem Rooted.join_join (h : ix.Rooted) (p : Path) : ix.root.join (ix.root.join p) = ix.root.join p := by
  have habs : (ix.root.join p).isAbsolute = true := by
    unfold Path.join
    split
    · assumption
    · simp [Path.isAbsolute, h.root]
  rw [Path.join, if_pos habs]

theorem Rooted.written_join (h : ix.Rooted) (hp : p.Written) : (ix.root.join p).Written := by
  unfold Path.join
  split
  · exact hp
  · refine ⟨Or.inr (Or.inl h.root), ?_⟩
    intro part hm
    rcases List.mem_append.mp hm with hm | hm
    · exact (h.clean.names part hm).toIsPart
    · exact hp.parts part hm

def below (ix : SemanticIndex) (rest : Place) : Path := ⟨[Path.slash], ix.root.parts ++ rest⟩

theorem Rooted.join_relative (h : ix.Rooted) {rest : Place} (hr : ∀ name ∈ rest, IsName name) :
    ix.root.join (Path.ofText (Path.relativeText rest)) = ix.below rest := by
  have hwritten : (⟨[], rest⟩ : Path).Written := ⟨Or.inl rfl, fun part hm => (hr part hm).toIsPart⟩
  rw [Path.relativeText, hwritten.ofText_text]
  have hroot := h.root
  obtain ⟨⟨root, parts⟩, file, store, asked⟩ := ix
  obtain rfl : root = [Path.slash] := hroot
  rfl

theorem Rooted.below_root (h : ix.Rooted) (rest : Place) : Path.below? ix.root (ix.below rest) = some rest := by
  simp [Path.below?, below, h.root]

theorem Rooted.eq_below (h : ix.Rooted) {q : Path} {rest : Place}
    (hb : Path.below? ix.root q = some rest) : q = ix.below rest := by
  unfold Path.below? at hb
  split at hb
  · rename_i hc
    rw [Bool.and_eq_true, decide_eq_true_eq, h.root, List.isPrefixOf_iff_prefix] at hc
    obtain ⟨hroot, rest', hparts⟩ := hc
    obtain ⟨root, parts⟩ := q
    obtain rfl : root = [Path.slash] := hroot.symm
    obtain rfl : ix.root.parts ++ rest' = parts := hparts
    rw [List.drop_left] at hb
    cases hb
    rfl
  · cases hb

/-- A name is the path from the root to a place inside, or the path as it was given. -/
theorem Rooted.relative_cases (h : ix.Rooted) (hn : ix.relative d p = .ok name) :
    (∃ rest, d.resolve (ix.root.join p) = .ok (ix.below rest) ∧ name = Path.relativeText rest) ∨
    name = (ix.root.join p).text := by
  unfold relative at hn
  dsimp only at hn
  split at hn
  · rename_i q hq
    cases hn
    cases hb : Path.below? ix.root q with
    | none => exact Or.inr rfl
    | some rest =>
      obtain rfl := h.eq_below hb
      exact Or.inl ⟨rest, hq, rfl⟩
  · split at hn
    · cases hn
      exact Or.inr rfl
    · cases hn

/-- What no link leads to in a workspace is named by its place there, if the system can be asked about it at all. -/
theorem Rooted.relative_plain (h : ix.Rooted) {rest : Place} (hp : d.Plain (ix.root.parts ++ rest)) :
    ((∀ name ∈ ix.root.parts ++ rest, IsAccepted name) ∧
      ix.relative d (ix.below rest) = .ok (Path.relativeText rest)) ∨
    (¬ (∀ name ∈ ix.root.parts ++ rest, IsAccepted name) ∧
      ix.relative d (ix.below rest) = .ok (ix.below rest).text) := by
  have hjoin : ix.root.join (ix.below rest) = ix.below rest := rfl
  rcases resolve_plain [Path.slash] hp with ⟨ha, hres⟩ | ⟨ha, fault, hres, hf⟩
  · have hres : d.resolve (ix.below rest) = .ok (ix.below rest) := hres
    refine Or.inl ⟨ha, ?_⟩
    unfold relative
    rw [hjoin]
    simp only [hres, h.below_root, Option.map_some, Option.getD_some]
  · have hres : d.resolve (ix.below rest) = .error fault := hres
    refine Or.inr ⟨ha, ?_⟩
    unfold relative
    rw [hjoin]
    simp only [hres, hf, ↓reduceIte]

theorem Rooted.relative_below (h : ix.Rooted) {rest : Place} (hu : d.Unlinked ix.root.parts)
    (hr : ∀ name ∈ ix.root.parts ++ rest, IsName name) :
    ((∀ name ∈ ix.root.parts ++ rest, IsAccepted name) ∧
      ix.relative d (ix.below rest) = .ok (Path.relativeText rest)) ∨
    (¬ (∀ name ∈ ix.root.parts ++ rest, IsAccepted name) ∧
      ix.relative d (ix.below rest) = .ok (ix.below rest).text) :=
  h.relative_plain (hu.plain hr)

theorem Rooted.relative_below_congr (h : ix.Rooted) {rest : Place} (hu : d.Unlinked ix.root.parts)
    (hu' : d'.Unlinked ix.root.parts) (hr : ∀ name ∈ ix.root.parts ++ rest, IsName name) :
    ix.relative d' (ix.below rest) = ix.relative d (ix.below rest) := by
  rcases h.relative_below hu hr with ⟨ha, he⟩ | ⟨ha, he⟩ <;>
    rcases h.relative_below hu' hr with ⟨ha', he'⟩ | ⟨ha', he'⟩
  · rw [he, he']
  · exact absurd ha ha'
  · exact absurd ha' ha
  · rw [he, he']

/-- A name that a file got on one disk is its own name on another, if a file outside is outside there too. -/
theorem Rooted.relative_name (h : ix.Rooted) (hp : p.Written) (hn : ix.relative d p = .ok name)
    (hu : d'.Unlinked ix.root.parts)
    (houtside : name = (ix.root.join p).text → ix.relative d' p = .ok (ix.root.join p).text) :
    ix.relative d' (Path.ofText name) = .ok name := by
  rcases h.relative_cases hn with ⟨rest, hres, rfl⟩ | rfl
  · obtain ⟨hclean, -⟩ := (kept_clean d).resolve
      (fun part hm => (h.written_join hp).parts part hm) hres
    have hrest : ∀ name ∈ rest, IsName name := fun name hm => hclean.names name (List.mem_append_right _ hm)
    have hjoin : ix.root.join (Path.ofText (Path.relativeText rest)) = ix.root.join (ix.below rest) :=
      h.join_relative hrest
    have hbelow : ix.relative d' (Path.ofText (Path.relativeText rest)) = ix.relative d' (ix.below rest) := by
      unfold relative
      rw [hjoin]
    rw [hbelow]
    rcases h.relative_below hu hclean.names with ⟨-, he⟩ | ⟨ha, -⟩
    · exact he
    · exact absurd hclean.accepted ha
  · rw [(h.written_join hp).ofText_text]
    have hjoin : ix.relative d' (ix.root.join p) = ix.relative d' p := by
      unfold relative
      rw [h.join_join]
    rw [hjoin]
    exact houtside rfl

/-- The name of an entry of the workspace leads back to the entry. -/
theorem Rooted.join_name (h : ix.Rooted) {rest : Place} (hu : d.Unlinked ix.root.parts)
    (hr : ∀ name ∈ ix.root.parts ++ rest, IsName name)
    (hn : ix.relative d (ix.below rest) = .ok name) :
    ix.root.join (Path.ofText name) = ix.below rest := by
  have hrest : ∀ name ∈ rest, IsName name := fun name hm => hr name (List.mem_append_right _ hm)
  rcases h.relative_below hu hr with ⟨-, he⟩ | ⟨-, he⟩
  · rw [he] at hn
    cases hn
    exact h.join_relative hrest
  · rw [he] at hn
    cases hn
    have hwritten : (ix.below rest).Written :=
      ⟨Or.inr (Or.inl rfl), fun part hm => (hr part hm).toIsPart⟩
    rw [hwritten.ofText_text]
    rfl

/-- What stands on the disk is not missing when it is read. -/
theorem readSource_ne_missing (tree : d.IsTree) (hp : d.Plain p.parts) (h : d.lookup? p.parts ≠ none) :
    readSource d p ≠ .missing := by
  intro hm
  unfold readSource at hm
  split at hm
  · cases hm
  · rename_i q hr
    unfold readText readBytes stat at hr
    split at hr
    · rename_i hb
      cases hr
      split at hb
      · cases hb
      · cases hb
      · rename_i hs
        cases hb
        split at hs
        · rename_i hl
          cases hs
          exact h (lookup?_of_noEntry tree hp hl)
        · rename_i place hl
          obtain ⟨rfl, -, -⟩ := locate_ok hp hl
          split at hs
          · cases hs
          · rename_i hnone
            exact h hnone
    · split at hr
      · cases hr
      · cases hr
  · split at hm
    · cases hm
    · cases hm

/-- Reading a path whose text is accepted is not refused. -/
theorem readSource_not_refused (hp : checkPath p = .ok ()) (fault : DiskFault) : readSource d p ≠ .refused fault := by
  intro hm
  have hread {fault : DiskFault} (hr : d.readText p = .error fault) : fault.refusesText = false := by
    unfold readText readBytes at hr
    cases hs : d.stat p with
    | ok e =>
      rw [hs] at hr
      cases e with
      | file bytes =>
        dsimp only at hr
        split at hr <;> cases hr
        rfl
      | directory =>
        cases hr
        rfl
      | link target =>
        cases hr
        rfl
    | error fault' =>
      rw [hs] at hr
      cases hr
      rcases stat_error hs with hc | ⟨errno, rfl⟩
      · cases hp.symm.trans hc
      · rfl
  unfold readSource at hm
  split at hm
  · cases hm
  · cases hm
  · rename_i hr
    rw [hread hr] at hm
    cases hm

theorem readText_of_readSource {source : Text} (h : readSource d p = .text source) :
    d.readText p = .ok source := by
  unfold readSource at h
  split at h
  · cases h
    assumption
  · cases h
  · split at h
    · cases h
    · cases h

theorem readSource_of_readText {source : Text} (h : d.readText p = .ok source) :
    readSource d p = .text source := by
  unfold readSource
  rw [h]

/-- A text that is read without crossing a link stands in the file that is named. -/
theorem file_of_readText_plain {source : Text} (hp : d.Plain p.parts) (h : d.readText p = .ok source) :
    ∃ bytes, d.lookup? p.parts = some (.file bytes) := by
  unfold readText readBytes at h
  split at h
  · cases h
  · rename_i bytes hb
    split at hb
    · rename_i hs
      exact ⟨_, (stat_ok hp hs).1⟩
    · cases hb
    · cases hb

/-- A text that is read without crossing a link is read from every tree on which the same stands at its place. -/
theorem readText_congr {d' : Disk} {source : Text} (tree : d'.IsTree) (hp : d.Plain p.parts) (hp' : d'.Plain p.parts)
    (hl : d'.lookup? p.parts = d.lookup? p.parts) (h : d.readText p = .ok source) : d'.readText p = .ok source := by
  cases hs : d.stat p with
  | ok e =>
    obtain ⟨he, hn⟩ := stat_ok hp hs
    have hs' : d'.stat p = d.stat p := by rw [hs, stat_found tree hp' (hl.trans he) hn]
    unfold readText readBytes at h ⊢
    rwa [hs']
  | error fault =>
    unfold readText readBytes at h
    rw [hs] at h
    cases h

/-- A text that is read stands in a file on the disk. -/
theorem file_of_readText {source : Text} (h : d.readText p = .ok source) :
    ∃ x bytes decoded, d.lookup? x = some (.file bytes) ∧ Utf8.decode bytes = .ok decoded ∧
      source = Text.normalizeNewlines decoded := by
  unfold readText at h
  split at h
  · cases h
  rename_i bytes hb
  split at h
  · rename_i decoded hdecode
    cases h
    unfold readBytes at hb
    split at hb
    · rename_i hs
      cases hb
      unfold stat at hs
      split at hs
      · cases hs
      rename_i x hl
      split at hs
      · rename_i he
        cases hs
        exact ⟨x, bytes, decoded, he, hdecode, rfl⟩
      · cases hs
    · cases hb
    · cases hb
  · cases h

/-- Line ends are unified when a file is read. -/
theorem readText_no_return {source : Text} (h : d.readText p = .ok source) : ∀ c ∈ source, c.val ≠ 13 := by
  obtain ⟨-, -, decoded, -, -, rfl⟩ := file_of_readText h
  exact Utf8.normalizeNewlines_no_return decoded

end CodeAgent.SemanticIndex
