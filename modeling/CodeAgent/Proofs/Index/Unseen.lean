import CodeAgent.Proofs.Index.Notice
import CodeAgent.Proofs.Store.Outside

namespace CodeAgent.SemanticIndex

open Disk

variable {e : Embedder} {ix ix' : SemanticIndex} {d : Disk} {home root p q : Path} {name : Text} {rest : Place}
variable {persist : Bool}

/-- An index of a workspace that keeps its store in the own directory of a home. -/
structure Placed (home root : Path) (ix : SemanticIndex) : Prop where
  file : ix.file = Store.placeFor home root
  root : ix.root = root

theorem Placed.minds (h : ix.Placed home root) (hm : Minds name ix ix') : ix'.Placed home root :=
  ⟨hm.file.trans h.file, hm.root.trans h.root⟩

/-- A disk on which the store of a workspace can be saved in the own directory of a home. -/
structure Housing (home root : Path) (d : Disk) : Prop where
  reserved : d.Reserved home
  notUp : (".." : Text) ∉ home.parts
  savable : Store.Savable d (Store.placeFor home root)

/-- A step that leaves a disk outside as it was, and does not fail on it. -/
structure Unseen {α : Type} (home root : Path) (d : Disk) (step : IndexStep α) : Prop where
  outside : step.disk.outside = d.outside
  housing : Housing home root step.disk
  placed : step.index.Placed home root
  fault : ∀ fault, step.result ≠ .error (.disk fault)

/-- Saving the store is not seen outside the own directories. -/
theorem settle_unseen {α : Type} (h : Housing home root d) (hix : ix.Placed home root) (persist : Bool) (outcome : α) :
    Unseen home root d (ix.settle d persist outcome) := by
  unfold settle
  split
  · obtain ⟨hok, hsavable⟩ := h.savable.save ix.store
    rw [← hix.file] at hok hsavable
    split
    · rename_i d' _ hsave
      rw [hsave] at hsavable
      rw [hix.file] at hsave hsavable
      obtain ⟨houtside, hreserved⟩ := Store.save_outside h.reserved h.notUp hsave
      exact ⟨houtside, ⟨hreserved, h.notUp, hsavable⟩, hix, nofun⟩
    · rename_i hsave
      rw [hsave] at hok
      cases hok
  · exact ⟨rfl, h, hix, nofun⟩

theorem removeFile_unseen (h : Housing home root d) (hix : ix.Placed home root) (hn : ix.relative d p = .ok name)
    (persist : Bool) : Unseen home root d (ix.removeFile d p persist) := by
  unfold removeFile removeNamed
  rw [hn]
  exact settle_unseen h (hix.minds (forget_minds ix name)) persist _

/-- What a file in the workspace is called in the store. -/
theorem relative_of_resolve (hp : ix.root.join p = p) (hq : d.resolve p = .ok q)
    (hin : Path.below? ix.root q = some rest) : ix.relative d p = .ok (Path.relativeText rest) := by
  unfold relative
  rw [hp]
  simp only [hq, hin, Option.map_some, Option.getD_some]

variable [Host]

/-- Indexing a file is not seen outside the own directories. -/
theorem indexFile_unseen (h : Housing home root d) (hix : ix.Placed home root) (hrooted : ix.Rooted)
    (hwritten : p.Written) (hp : ix.root.join p = p) (hq : d.resolve p = .ok q)
    (hin : Path.below? ix.root q = some rest)
    (hfit : ∀ source, d.readText q = .ok source → Host.overNested? .loop source = none)
    (e : Embedder) (persist : Bool) :
    Unseen home root d (ix.indexFile e d p persist) := by
  obtain rfl := hrooted.eq_below hin
  obtain ⟨hclean, -⟩ := (kept_clean d).resolve hwritten.parts hq
  have hnames : ∀ name ∈ rest, IsName name := fun name hm => hclean.names name (List.mem_append_right _ hm)
  have hjoin : ix.root.join (Path.ofText (Path.relativeText rest)) = ix.below rest := hrooted.join_relative hnames
  have hagain : ix.relative d (Path.ofText (Path.relativeText rest)) = .ok (Path.relativeText rest) := by
    unfold relative
    rw [hjoin]
    simp only [resolve_idem hq, hin, Option.map_some, Option.getD_some]
  have hchecked : checkPath (ix.below rest) = .ok () := (checkPath_ok_iff _).mpr hclean.accepted
  unfold indexFile
  rw [relative_of_resolve hp hq hin]
  dsimp only
  rw [hjoin]
  split
  · exact removeFile_unseen h hix hagain persist
  · exact ⟨rfl, h, hix, nofun⟩
  · rename_i hread
    exact absurd hread (readSource_not_refused hchecked _)
  · rename_i source hread
    obtain ⟨hminds, -⟩ := update_minds e ix (Path.relativeText rest) source
    split
    · rename_i hu
      obtain ⟨reason, rfl⟩ := update_backend (hfit source (readText_of_readSource hread)) (congrArg Prod.snd hu)
      rw [hu] at hminds
      exact ⟨rfl, h, hix.minds hminds, nofun⟩
    · rename_i hu
      rw [hu] at hminds
      exact settle_unseen h (hix.minds hminds) _ _

end CodeAgent.SemanticIndex
