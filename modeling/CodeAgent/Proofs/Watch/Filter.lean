import Mathlib
import CodeAgent.Watch.Filter
import CodeAgent.Proofs.Graph.Build

namespace CodeAgent.Watch
open Disk

variable {d : Disk} {p root : Path} {name : Text} {f : Filter}

/-- A filter does as its documentation says: it ignores the directories listed there, and rejects a path exactly when
one of the components is ignored or the last of them is the name of a file that is left behind. -/
structure Filter.Documented (f : Filter) : Prop where
  directories : f.directories = Filter.usual.directories
  passes (ignored : List Text) (path : Text) : f.passes ignored path = false ↔
    (∃ part ∈ components path, part ∈ ignored) ∨ isLeftBehind ((components path).getLastD []) = true

theorem Filter.documented_usual : Filter.usual.Documented where
  directories := rfl
  passes ignored path := by simp [Filter.usual, or_iff_not_imp_left]

/-- A name by which an editor marks a file of its own, although it ends like that of a module. -/
def IsTemporary (name : Text) : Prop := (".#" : Text) <+: name ∨ ("flycheck_" : Text) <+: name

instance (name : Text) : Decidable (IsTemporary name) := inferInstanceAs (Decidable (_ ∨ _))

theorem endsLike_tail (h : endsLike classes name = true) :
    ∃ before tail, name = before ++ tail ∧ List.Forall₂ (fun c accepts => accepts c = true) tail classes := by
  unfold endsLike at h
  obtain ⟨hlength, hall⟩ := Bool.and_eq_true_iff.mp h
  refine ⟨_, _, (List.take_append_drop _ name).symm, List.forall₂_iff_zip.mpr ⟨of_decide_eq_true hlength, ?_⟩⟩
  exact fun hm => List.all_eq_true.mp hall _ hm

/-- The name of a module is cut at its last dot. -/
theorem keeps_split (h : Graph.nodeRule.keeps name = true) : ∃ before after,
    name = before ++ CodePoint.ofChar '.' :: after ∧ CodePoint.ofChar '.' ∉ after ∧ Text.lower after = "py" := by
  have hlower : Text.lower (Path.splitExtension name).2 = (".py" : Text) := by
    simpa [Graph.nodeRule, ScanRule.keeps, Graph.extensions] using h
  unfold Path.splitExtension at hlower
  split at hlower
  · rename_i before after hcut
    split at hlower
    · cases hlower
    · obtain ⟨hname, hdot⟩ := Text.cutLast?_some hcut
      exact ⟨before, after, hname, hdot, List.tail_eq_of_cons_eq hlower⟩
  · cases hlower

theorem lower_py {t : Text} (h : Text.lower t = "py") :
    ∃ init c, t = init ++ [c] ∧ c.lower = CodePoint.ofChar 'y' := by
  rcases List.eq_nil_or_concat t with rfl | ⟨init, c, rfl⟩
  · cases h
  · refine ⟨init, c, by simp, ?_⟩
    have hlast : (Text.lower (init.concat c)).getLast? = some (CodePoint.ofChar 'y') := by
      rw [h]
      rfl
    rw [Text.lower, List.concat_eq_append, List.flatMap_append, List.flatMap_singleton] at hlast
    split at hlast
    · rw [List.getLast?_append_cons] at hlast
      cases hlast
    · simpa using hlast

theorem eq_of_literal {t tail : Text} (h : List.Forall₂ (fun c accepts => accepts c = true) tail (literal t)) :
    tail = t := by
  rw [literal, List.forall₂_map_right_iff] at h
  simpa using h

/-- What ends like a pattern ends with what each part of the pattern accepts. -/
theorem endsLike_append {classes' : List (CodePoint → Bool)} (h : endsLike (classes ++ classes') name = true) :
    ∃ start tail, name = start ++ tail ∧ List.Forall₂ (fun c accepts => accepts c = true) tail classes' := by
  obtain ⟨before, tail, rfl, htail⟩ := endsLike_tail h
  refine ⟨before ++ tail.take classes.length, tail.drop classes.length, ?_,
    List.forall₂_drop_append tail classes classes' htail⟩
  rw [List.append_assoc, List.take_append_drop]

/-- The name of a module ends with a y, or with what is one in lower case. -/
theorem keeps_last (h : Graph.nodeRule.keeps name = true) (start : Text) {c : CodePoint} (he : name = start ++ [c]) :
    c.lower = CodePoint.ofChar 'y' := by
  obtain ⟨before, after, rfl, -, hlower⟩ := keeps_split h
  obtain ⟨init, last, rfl, hy⟩ := lower_py hlower
  have hends : (before ++ CodePoint.ofChar '.' :: init) ++ [last] = start ++ [c] := by simpa using he
  obtain rfl := List.singleton_inj.mp (List.append_inj_right' hends rfl)
  exact hy

theorem keeps_not_literal (h : Graph.nodeRule.keeps name = true) (classes : List (CodePoint → Bool)) (t : Text)
    {c : CodePoint} (hc : c.lower ≠ CodePoint.ofChar 'y') : endsLike (classes ++ literal (t ++ [c])) name = false := by
  rw [Bool.eq_false_iff]
  intro hends
  obtain ⟨start, tail, hs, htail⟩ := endsLike_append hends
  rw [eq_of_literal htail, ← List.append_assoc] at hs
  exact hc (keeps_last h _ hs)

theorem keeps_not_compiled (h : Graph.nodeRule.keeps name = true) :
    endsLike (literal ".py" ++ [fun c => c.is 'c' || c.is 'o' || c.is 'd']) name = false := by
  rw [Bool.eq_false_iff]
  intro hends
  obtain ⟨start, tail, hs, htail⟩ := endsLike_append hends
  cases htail with
  | @cons c _ _ _ hc hnil =>
    cases hnil
    simp only [CodePoint.is, Bool.or_eq_true, decide_eq_true_eq] at hc
    rcases hc with (rfl | rfl) | rfl <;> cases keeps_last h _ hs

/-- The ending of a swap file begins at the last dot, and so is not that of a module. -/
theorem keeps_not_swap (h : Graph.nodeRule.keeps name = true) :
    endsLike (literal ".sw" ++ [anyPoint]) name = false := by
  rw [Bool.eq_false_iff]
  intro hends
  obtain ⟨start, tail, hs, htail⟩ := endsLike_tail hends
  have hsw := eq_of_literal (List.forall₂_take_append tail (literal ".sw") [anyPoint] htail)
  have hlength : (literal ".sw").length = 3 := rfl
  have hdrop := List.forall₂_drop_append tail (literal ".sw") [anyPoint] htail
  rw [hlength] at hsw hdrop
  have hjoin := List.take_append_drop 3 tail
  generalize tail.drop 3 = rest at hdrop hjoin
  cases hdrop with
  | @cons c _ _ _ _ hnil =>
    cases hnil
    rw [← hjoin, hsw] at hs
    by_cases hc : c = CodePoint.ofChar '.'
    · subst hc
      cases keeps_last h (start ++ ".sw") (by rw [hs, List.append_assoc])
    · obtain ⟨before, after, hname, hdot, hlower⟩ := keeps_split h
      have hnot : CodePoint.ofChar '.' ∉ CodePoint.ofChar 's' :: CodePoint.ofChar 'w' :: [c] := by
        simp only [List.mem_cons, List.not_mem_nil, or_false, not_or]
        exact ⟨by decide, by decide, fun he => hc he.symm⟩
      obtain ⟨-, hends⟩ := Text.append_sep_inj hdot hnot (hname.symm.trans hs)
      rw [hends] at hlower
      cases congrArg List.head? hlower

/-- Of the names that are left behind, a module has those of temporary files only. -/
theorem isLeftBehind_iff (h : Graph.nodeRule.keeps name = true) : isLeftBehind name = true ↔ IsTemporary name := by
  have hsaved : endsLike (literal ".___jb_" ++ [anyPoint, anyPoint, anyPoint] ++ literal "___") name = false :=
    keeps_not_literal h _ "__" (c := CodePoint.ofChar '_') (by decide)
  have hbackup : endsLike (literal "~") name = false :=
    keeps_not_literal h [] [] (c := CodePoint.ofChar '~') (by decide)
  have hending : endings name = [name] := by
    rw [endings, if_neg]
    intro hl
    obtain ⟨start, hs⟩ := List.getLast?_eq_some_iff.mp hl
    cases keeps_last h _ hs
  have hstore : name ≠ (".DS_Store" : Text) := by
    intro hs
    have hs : name = (".DS_Stor" : Text) ++ [CodePoint.ofChar 'e'] := hs
    cases keeps_last h _ hs
  have hnone : (ignoredEndings.any (endsLike · name)) = false := by
    rw [ignoredEndings]
    simp only [List.any_cons, List.any_nil, keeps_not_compiled h, hsaved, keeps_not_swap h, hbackup, Bool.or_false]
  simp [isLeftBehind, hending, hnone, hstore, IsTemporary]

theorem Filter.Documented.ignored (h : f.Documented) : ignoredDirectories f = ignoredDirectories .usual := by
  rw [ignoredDirectories, h.directories, ignoredDirectories]

theorem Filter.Documented.not_entered (h : f.Documented) :
    ∀ dir ∈ ignoredDirectories f, Graph.nodeRule.enters dir = false := by
  rw [h.ignored]
  decide

theorem Filter.Documented.not_kept (h : f.Documented) :
    ∀ dir ∈ ignoredDirectories f, Graph.nodeRule.keeps dir = false := by
  rw [h.ignored]
  decide

/-- A file that a scan yields is passed on unless its name is that of a temporary file, or its root stands in an
ignored directory. -/
theorem passes_source_iff (hf : f.Documented) (hroot : root.Written) (habsolute : root.isAbsolute = true)
    (hn : ∀ entry ∈ d.entries, ∀ name ∈ entry.1, IsName name) (hp : p ∈ d.sourceFiles Graph.nodeRule root) :
    passes f p.text = true ↔ (∀ dir ∈ root.parts, dir ∉ ignoredDirectories f) ∧ ¬ IsTemporary p.name := by
  obtain ⟨dirs, name, rfl, hdirs, hkeep, hparts⟩ := sourceFiles_below hn hp
  have hjoin : root.join ⟨[], dirs ++ [name]⟩ = ⟨root.root, root.parts ++ (dirs ++ [name])⟩ := rfl
  have hwritten : (root.join ⟨[], dirs ++ [name]⟩).Written := by
    refine ⟨hroot.root, fun part hm => ?_⟩
    rcases List.mem_append.mp hm with hm | hm
    · exact hroot.parts part hm
    · exact (hparts part hm).toIsPart
  have hname : (root.join ⟨[], dirs ++ [name]⟩).name = name := by
    rw [hjoin, Path.name, ← List.append_assoc]
    simp
  have hsplit := hwritten.splitOn_text habsolute (by simp [hjoin])
  have hclear : ∀ dir ∈ dirs ++ [name], dir ∉ ignoredDirectories f := by
    intro dir hm hi
    rcases List.mem_append.mp hm with hm | hm
    · exact Bool.false_ne_true ((hf.not_entered dir hi).symm.trans (hdirs dir hm))
    · obtain rfl := List.mem_singleton.mp hm
      exact Bool.false_ne_true ((hf.not_kept dir hi).symm.trans hkeep)
  have hlast : (root.join ⟨[], dirs ++ [name]⟩).parts.getLastD [] = name := hname
  rw [passes, ← Bool.not_eq_false, hf.passes, components, hsplit, hlast, hname, isLeftBehind_iff hkeep, not_or, hjoin]
  apply and_congr_left'
  push Not
  constructor
  · exact fun h dir hm => h dir (List.mem_append_left _ hm)
  · intro h dir hm
    rcases List.mem_append.mp hm with hm | hm
    · exact h dir hm
    · exact hclear dir hm

/-- Of the files that a scan of a workspace outside the ignored directories yields, a watcher keeps back those with
names of temporary files, and no others. -/
theorem passes_scanned_iff (hf : f.Documented) (given : Text) (habsolute : (Path.ofText given).isAbsolute = true)
    (hroot : ∀ dir ∈ (Path.ofText given).parts, dir ∉ ignoredDirectories f)
    (hn : ∀ entry ∈ d.entries, ∀ name ∈ entry.1, IsName name)
    (hp : p ∈ d.sourceFiles Graph.nodeRule (Path.ofText given)) : passes f p.text = true ↔ ¬ IsTemporary p.name := by
  rw [passes_source_iff hf (Path.written_ofText given) habsolute hn hp]
  exact and_iff_right hroot

def temporaries : Disk :=
  ⟨[(["w"], .directory), (["w", "pkg"], .directory), (["w", "pkg", "a.py"], .file []), (["w", ".#a.py"], .file []),
    (["w", "flycheck_a.py"], .file [])]⟩

theorem temporaries_scanned : temporaries.sourceFiles Graph.nodeRule (Path.ofText "/w") =
    [⟨"/", ["w", ".#a.py"]⟩, ⟨"/", ["w", "flycheck_a.py"]⟩, ⟨"/", ["w", "pkg", "a.py"]⟩] := by
  cbv

theorem passes_scanned_module : passes .usual "/w/pkg/a.py" = true ↔ ¬ IsTemporary "a.py" :=
  passes_scanned_iff (d := temporaries) (p := ⟨"/", ["w", "pkg", "a.py"]⟩) Filter.documented_usual "/w" (by decide)
      (by decide) (by decide)
    (by rw [temporaries_scanned]; decide)

/-- The temporary files are sources of the workspace, and changes to them are kept back. -/
theorem temporaries_kept_back : (Path.ofText "/w").isAbsolute = true ∧
    (⟨"/", ["w", ".#a.py"]⟩ : Path) ∈ temporaries.sourceFiles Graph.nodeRule (Path.ofText "/w") ∧
    (⟨"/", ["w", "flycheck_a.py"]⟩ : Path) ∈ temporaries.sourceFiles Graph.nodeRule (Path.ofText "/w") ∧
    passes .usual "/w/.#a.py" = false ∧ passes .usual "/w/flycheck_a.py" = false := by
  rw [temporaries_scanned]
  decide

end CodeAgent.Watch
