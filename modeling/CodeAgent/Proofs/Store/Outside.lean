import CodeAgent.Proofs.Disk.Alike
import CodeAgent.Proofs.Store.Replace
import CodeAgent.Store.Place

namespace CodeAgent

open Disk

variable {d d' : Disk} {home root : Path} {x : Place} {rest : List Text} {name : Text} {s : Store}

namespace Store

def placeFor (home root : Path) : Path := (directoryFor home root).child fileName

/-- The way from a home to the directory of a store begins in the own directory and never goes up. -/
theorem directoryFor_parts (home root : Path) :
    ∃ rest, (".." : Text) ∉ rest ∧ (directoryFor home root).parts = home.parts ++ ownName :: rest := by
  refine ⟨["index", _], ?_, by simp only [directoryFor, Config.homeDirectory, Path.child, List.append_assoc]; rfl⟩
  simp only [List.mem_cons, List.not_mem_nil, or_false, not_or]
  refine ⟨by decide, fun he => ?_⟩
  have hm : CodePoint.ofChar '-' ∈ (if root.name.isEmpty then ("root" : Text) else root.name) ++ (("-" : Text) ++
      (Sha256.hexDigest (Utf8.encodeAny root.text)).take 12) :=
    List.mem_append_right _ (List.mem_append_left _ List.mem_cons_self)
  rw [← he] at hm
  exact absurd hm (by decide)

end Store

/-- On the way to a place in the own directory of a home there are the directories of the home, and then what is not
outside. -/
theorem prefix_own (hx : x <+: home.parts ++ ownName :: rest) : x <+: home.parts ∨ ¬ Outside x := by
  rcases List.prefix_or_prefix_of_prefix hx (List.prefix_append _ _) with hhome | ⟨tail, rfl⟩
  · exact Or.inl hhome
  · obtain ⟨more, hmore⟩ := (List.prefix_append_right_inj home.parts).mp hx
    cases tail with
    | nil =>
      rw [List.append_nil]
      exact Or.inl List.prefix_rfl
    | cons name tail =>
      obtain ⟨rfl, -⟩ := List.cons.inj hmore
      exact Or.inr fun hout => hout (List.mem_append_right _ List.mem_cons_self)

namespace Disk

/-- The way to an own directory is plain. -/
theorem Reserved.plain_own (h : d.Reserved home) (hhome : (".." : Text) ∉ home.parts) (hrest : (".." : Text) ∉ rest) :
    d.Plain (home.parts ++ ownName :: rest) where
  noDots hm := by
    rcases List.mem_append.mp hm with hm | hm
    · exact hhome hm
    · rcases List.mem_cons.mp hm with he | hm
      · exact absurd he (by decide)
      · exact hrest hm
  noLink x hx target hl := by
    rcases prefix_own hx with hx | hx
    · rw [h.home x hx] at hl
      cases hl
    · have hroot : x ≠ [] := by
        rintro rfl
        cases hl
      exact hx (h.links x target (mem_of_lookup? hl hroot)).1

/-- The directory of a store is made in the own directory. -/
theorem Reserved.ensure_own (h : d.Reserved home) (hhome : (".." : Text) ∉ home.parts) (hrest : (".." : Text) ∉ rest)
    {dir : Path} (hdir : dir.parts = home.parts ++ ownName :: rest) (hd : d.ensureDirectories dir = (d', .ok ())) :
    d'.outside = d.outside ∧ d'.Reserved home := by
  refine ensureDirectories_induct (P := fun e => e.outside = d.outside ∧ e.Reserved home) ?_ hd ⟨rfl, h⟩
  rintro q hq e e' ⟨hsame, he⟩ hmake
  rw [hdir] at hq
  obtain ⟨x, hl, hnone, -, rfl⟩ := makeDirectory_ok hmake
  have hplain := he.plain_own hhome hrest
  obtain ⟨rfl, -, -⟩ := locate_ok (hplain.of_prefix hq) hl
  have hown : ¬ Outside q.parts := by
    refine (prefix_own hq).resolve_left fun hq => ?_
    rw [he.home _ hq] at hnone
    cases hnone
  exact ⟨(outside_put_own hown e .directory).trans hsame, he.put nofun (fun _ => rfl) fun _ _ => rfl⟩

end Disk

/-- A save into the own directory is not seen outside. -/
theorem Store.save_own {dir : Path} (h : d.Reserved home) (hhome : (".." : Text) ∉ home.parts)
    (hrest : (".." : Text) ∉ rest) (hdir : dir.parts = home.parts ++ ownName :: rest)
    (hs : s.save d (dir.child fileName) = (d', .ok ())) : d'.outside = d.outside ∧ d'.Reserved home := by
  obtain ⟨d₁, x, name, bytes, hd, hleads, hchild, -, -, -, hfree, -, rfl⟩ := save_ok_place hs
  rw [child_parent] at hd hleads hchild
  have hname : [fileName] = [name] := List.append_cancel_left (congrArg Path.parts hchild)
  rw [← List.singleton_inj.mp hname] at hfree ⊢
  obtain ⟨hsame, hreserved⟩ := h.ensure_own hhome hrest hdir hd
  have hplain : d₁.Plain dir.parts := hdir ▸ hreserved.plain_own hhome hrest
  obtain ⟨rfl, -, -⟩ := locate_ok hplain hleads.located
  have hown : ¬ Outside (dir.parts ++ [fileName]) := by
    rw [hdir]
    exact fun hout => hout (by simp)
  refine ⟨(outside_put_own hown d₁ _).trans hsame, hreserved.put nofun (fun hd => absurd hd hfree) fun y he => ?_⟩
  have hlast := (List.append_inj' he (by simp)).2
  exact absurd (List.singleton_inj.mp hlast) (by decide)

theorem Store.save_outside (h : d.Reserved home) (hhome : (".." : Text) ∉ home.parts)
    (hs : s.save d (placeFor home root) = (d', .ok ())) : d'.outside = d.outside ∧ d'.Reserved home := by
  obtain ⟨rest, hrest, hparts⟩ := directoryFor_parts home root
  exact save_own h hhome hrest hparts hs

/-- Where the directories of a store can be made and house it, saving works for good. -/
theorem Store.savable_of_housed {d₁ : Disk} {dir : Path} (hd : d.ensureDirectories dir = (d₁, .ok ()))
    (h : Housed d₁ dir name x) : Savable d (dir.child name) := by
  have hsame (t : Store) : t.save d (dir.child name) = t.save d₁ (dir.child name) := by
    rw [save_eq, save_eq, child_parent, hd, h.leads.ensureDirectories]
  intro saved t
  cases saved with
  | nil =>
    rw [List.foldl_nil, hsame]
    exact h.savable [] t
  | cons first rest =>
    rw [List.foldl_cons, hsame]
    exact h.savable (first :: rest) t

/-- A store that can be saved once in the own directory can be saved there for good. -/
theorem Store.savable_of_save (h : d.Reserved home) (hhome : (".." : Text) ∉ home.parts)
    (hs : (s.save d (placeFor home root)).2 = .ok ()) : Savable d (placeFor home root) := by
  obtain ⟨rest, hrest, hparts⟩ := directoryFor_parts home root
  unfold placeFor at hs ⊢
  generalize directoryFor home root = dir at hparts hs
  obtain ⟨d', hs⟩ : ∃ d', s.save d (dir.child fileName) = (d', .ok ()) := ⟨_, Prod.ext rfl hs⟩
  obtain ⟨d₁, -, -, -, hd, -⟩ := save_ok_place hs
  rw [child_parent] at hd
  obtain ⟨-, hreserved⟩ := h.ensure_own hhome hrest hparts hd
  have hchild : (dir.child fileName).parts = home.parts ++ ownName :: (rest ++ [fileName]) := by
    rw [Path.child, hparts, List.append_assoc]
    rfl
  have hup : (".." : Text) ∉ rest ++ [fileName] := by
    rw [List.mem_append, List.mem_singleton, not_or]
    exact ⟨hrest, by decide⟩
  have hplain : d₁.Plain (dir.child fileName).parts := hchild ▸ hreserved.plain_own hhome hup
  obtain ⟨d₂, x, bytes, hd₂, hhoused, -⟩ := save_ok_cases temporaryName_ne_fileName hs <| by
    rw [hd]
    intro x hl target hx
    obtain ⟨rfl, -, -⟩ := locate_ok hplain hl
    exact hplain.noLink _ List.prefix_rfl target hx
  exact savable_of_housed hd₂ hhoused

end CodeAgent
