import CodeAgent.Proofs.Disk.Extend
import CodeAgent.Proofs.Graph.Build
import CodeAgent.Proofs.Source.Chunk

namespace CodeAgent

namespace Disk

variable {d : Disk} {p : Path}

/-- Fails for reasons that the system reports, if it fails. -/
def SystemOnly {α : Type} (r : Except DiskFault α) : Prop := ∀ fault, r = .error fault → fault.isSystem = true

theorem systemOnly_ok {α : Type} (a : α) : SystemOnly (.ok a) := nofun

theorem SystemOnly.bind {α β : Type} {r : Except DiskFault α} {f : α → Except DiskFault β} (h : SystemOnly r)
    (hf : ∀ a, r = .ok a → SystemOnly (f a)) : SystemOnly (r >>= f) := by
  cases r with
  | ok a => exact hf a rfl
  | error fault =>
    intro fault' he
    cases he
    exact h fault rfl

theorem SystemOnly.mapM {α β : Type} {f : α → Except DiskFault β} (h : ∀ a, SystemOnly (f a)) (as : List α) :
    SystemOnly (as.mapM f) := by
  induction as with
  | nil => exact systemOnly_ok []
  | cons a rest ih =>
    rw [List.mapM_cons]
    exact (h a).bind fun b _ => ih.bind fun bs _ => systemOnly_ok (b :: bs)

theorem isFile_systemOnly (d : Disk) (p : Path) : SystemOnly (d.isFile p) := by
  intro fault h
  unfold isFile ask at h
  split at h
  · cases h
  · rename_i hs
    split at h
    · cases h
    · rename_i habsent
      cases h
      rcases stat_error hs with hc | ⟨errno, rfl⟩
      · have hrefused := checkText_error hc
        cases fault <;> simp_all [DiskFault.refusesText, DiskFault.meansAbsent]
      · rfl

/-- What is a file has a path that can be resolved. -/
theorem resolve_of_isFile (h : d.Linkless) (hf : d.isFile p = .ok true) : ∃ q, d.resolve p = .ok q := by
  refine resolve_of_accepted h (accepted_of_checkPath ?_)
  unfold isFile ask at hf
  split at hf
  · rename_i e hs
    unfold stat at hs
    split at hs
    · cases hs
    · rename_i place hl
      exact (locate_iff.mp hl).1
  · split at hf <;> cases hf

end Disk

namespace Graph

open Disk

variable {d : Disk} {g : Graph} {p q : Path}

theorem firstFile?_systemOnly (h : d.Linkless) (ps : List Path) : SystemOnly (firstFile? d ps) := by
  induction ps with
  | nil => exact systemOnly_ok none
  | cons p rest ih =>
    rw [firstFile?]
    refine (isFile_systemOnly d p).bind fun there hf => ?_
    cases there with
    | true =>
      obtain ⟨q, hq⟩ := resolve_of_isFile h hf
      simp only [hq, ↓reduceIte, bind, Except.bind]
      exact systemOnly_ok (some q)
    | false => exact ih

theorem submodules_systemOnly (h : d.Linkless) (base : Path) (names : List Text) :
    SystemOnly (submodules d base names) := by
  induction names with
  | nil => exact systemOnly_ok []
  | cons name rest ih =>
    rw [submodules]
    exact (firstFile?_systemOnly h _).bind fun file _ => ih.bind fun later _ => systemOnly_ok (file.toList ++ later)

theorem importTargets_systemOnly (h : d.Linkless) (root importer : Path) (spec : Source.ImportSpec) :
    SystemOnly (importTargets d root importer spec) := by
  unfold importTargets
  dsimp only
  split
  · refine (submodules_systemOnly h _ _).bind fun files _ => ?_
    split
    · exact (firstFile?_systemOnly h _).bind fun file _ => systemOnly_ok file.toList
    · exact systemOnly_ok files
  · exact (firstFile?_systemOnly h _).bind fun own _ =>
      (submodules_systemOnly h _ _).bind fun files _ => systemOnly_ok (own.toList ++ files)

variable [Host]

/-- A file whose text fits is read whole, or has no statements. -/
theorem statements?_of_fits (hfits : ∀ t, d.readText p = .ok t → Source.Fits t) :
    ∃ file, statements? d p = .ok file := by
  unfold statements?
  cases hr : d.readText p with
  | error fault => exact ⟨none, rfl⟩
  | ok t =>
    dsimp only
    cases hp : Source.parse .thread t with
    | ok file => exact ⟨some file, rfl⟩
    | error fault =>
      cases fault with
      | overNested reason => exact absurd hp (Source.parse_not_overNested (hfits t hr .thread))
      | malformed => exact ⟨none, rfl⟩
      | nulCharacter => exact ⟨none, rfl⟩
      | notEncodable => exact ⟨none, rfl⟩

theorem buildNode_systemOnly (h : d.Linkless) (root : Path) (hfits : ∀ t, d.readText p = .ok t → Source.Fits t) :
    SystemOnly (buildNode d root p) := by
  obtain ⟨file, hfile⟩ := statements?_of_fits hfits
  rw [buildNode, hfile]
  cases file with
  | none => exact systemOnly_ok _
  | some file =>
    refine SystemOnly.bind ?_ fun imports _ => systemOnly_ok _
    exact (SystemOnly.mapM (importTargets_systemOnly h root p) _).bind fun targets _ => systemOnly_ok _

/-- Of a path that is resolved the graph takes note, unless the system fails or a text does not fit. -/
theorem updateFile_systemOnly (h : d.Linkless) (hq : g.resolve d p = .ok q) (hroot : d.resolve g.root = .ok g.root)
    (hfits : ∀ t, d.readText q = .ok t → Source.Fits t) : SystemOnly (updateFile d g p) := by
  intro fault hu
  cases hf : d.isFile q with
  | error fault' =>
    simp only [updateFile, hq, hf, bind, Except.bind] at hu
    cases hu
    exact isFile_systemOnly d q _ hf
  | ok there =>
    cases there with
    | false =>
      rw [updateFile_of_absent hq hf] at hu
      cases hu
    | true =>
      have he := isExcluded_of_resolve (resolve_idem hq) hroot
      by_cases hs : q.suffix ∈ extensions
      · cases hb : (Path.below? g.root q).all isBehindSkipped with
        | true =>
          rw [updateFile_of_other hq hf (Or.inr (he.trans (congrArg _ hb)))] at hu
          cases hu
        | false =>
          rw [updateFile_of_source hq hf hs (he.trans (congrArg _ hb))] at hu
          cases hn : buildNode d g.root q with
          | error fault' =>
            rw [hn] at hu
            cases hu
            exact buildNode_systemOnly h g.root hfits _ hn
          | ok built =>
            rw [hn] at hu
            cases hu
      · rw [updateFile_of_other hq hf (Or.inl hs)] at hu
        cases hu

end Graph
end CodeAgent
