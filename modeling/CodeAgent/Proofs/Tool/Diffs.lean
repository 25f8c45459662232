import CodeAgent.Agent.Execute
import CodeAgent.Proofs.Edit.Markers

namespace CodeAgent

/-- A diff text that has no block, or a marker that opens and closes none. -/
def Blocks.Malformed (t : Text) : Prop := parse t = [] ∨ Stray t

theorem Blocks.malformed_iff (t : Text) :
    Malformed t ↔ ((parse t).isEmpty || (parse t).length ≠ attempts t) = true := by
  rw [Malformed, Bool.or_eq_true, List.isEmpty_iff, decide_eq_true_eq, Ne, length_eq_attempts_iff, not_not]

namespace Workspace

variable {s : Setting} {w : Workspace} {changes : List DiffChange}

def targets (s : Setting) (w : Workspace) (changes : List DiffChange) :
    Except DiskFault (List Transaction.FileChange) :=
  changes.mapM fun change => (w.resolve s change.path).map fun p => ⟨p, Blocks.parse change.diff⟩

/-- Reading the changes finds their targets, and the malformed ones among them. -/
theorem readChanges_cases (s : Setting) (w : Workspace) (changes : List DiffChange) :
    (∃ fault, w.readChanges s changes = .error fault ∧ w.targets s changes = .error fault) ∨
      ∃ targets malformed, w.readChanges s changes = .ok (targets, malformed) ∧ w.targets s changes = .ok targets ∧
        (malformed = [] ↔ ∀ change ∈ changes, ¬ Blocks.Malformed change.diff) := by
  induction changes with
  | nil => exact Or.inr ⟨[], [], rfl, rfl, by simp⟩
  | cons change rest ih =>
    rw [readChanges, targets, List.mapM_cons]
    cases hp : w.resolve s change.path with
    | error fault => exact Or.inl ⟨fault, rfl, rfl⟩
    | ok p =>
      rcases ih with ⟨fault, hread, htargets⟩ | ⟨later, malformed, hread, htargets, hmalformed⟩
      · rw [targets] at htargets
        exact Or.inl ⟨fault, by rw [hread]; rfl, by rw [htargets]; rfl⟩
      · rw [targets] at htargets
        refine Or.inr ⟨⟨p, Blocks.parse change.diff⟩ :: later, _, by rw [hread]; rfl, by rw [htargets]; rfl, ?_⟩
        rw [List.forall_mem_cons, ← hmalformed, Blocks.malformed_iff]
        split
        · rename_i hbad
          exact ⟨nofun, fun h => absurd hbad h.1⟩
        · rename_i hgood
          exact ⟨fun h => ⟨hgood, h⟩, And.right⟩

variable [Host]

/-- One transaction of all changes, whatever their diffs are like, once every path is found to mean something. The
workspace is told of the files that it has written. -/
def transact (s : Setting) (w : Workspace) (changes : List DiffChange) : Workspace × Except ToolFault Text :=
  match w.targets s changes with
  | .error fault => (w, .error (.disk fault))
  | .ok targets =>
    match Transaction.apply w.disk targets with
    | (disk, .error fault) => ({ w with disk }, .error (.ofTransaction fault))
    | (disk, .ok count) =>
      match refresh s { w with disk } (targets.map (·.path)).eraseDups with
      | (w, .ok _) => (w, .ok ("Successfully applied diffs to " ++ Text.ofNat count ++ " files."))
      | (w, .error fault) => (w, .error (.disk fault))

/-- As many blocks are read from a text as it attempts just if every marker delimits one of them, and then none
stands in a section. A change that is not so keeps every file from being touched; else all changes make one
transaction. -/
theorem diffs_guarded (s : Setting) (w : Workspace) :
    (∀ t, (Blocks.parse t).length ≤ Blocks.attempts t ∧
      ((Blocks.parse t).length = Blocks.attempts t ↔ Blocks.Delimited t)) ∧
    (∀ changes, (∃ change ∈ changes, Blocks.Malformed change.diff) →
      ∃ fault, w.applyDiffs s changes = (w, .error fault)) ∧
    ∀ changes, (∀ change ∈ changes, ¬ Blocks.Malformed change.diff) →
      w.applyDiffs s changes = w.transact s changes := by
  refine ⟨fun t => ⟨Blocks.length_parse_le t, ?_⟩, ?_, ?_⟩
  · rw [Blocks.length_eq_attempts_iff]
    exact ⟨Blocks.delimited_of_not_stray, fun h => Blocks.not_stray_iff.mpr ⟨h.opens, h.closes⟩⟩
  · intro changes ⟨change, hc, hbad⟩
    unfold applyDiffs
    rcases readChanges_cases s w changes with ⟨fault, hread, -⟩ | ⟨targets, malformed, hread, -, hmalformed⟩
    · exact ⟨_, by rw [hread]⟩
    · cases malformed with
      | nil => exact absurd hbad (hmalformed.mp rfl change hc)
      | cons m malformed => exact ⟨_, by rw [hread]⟩
  · intro changes hgood
    unfold applyDiffs transact
    rcases readChanges_cases s w changes with
      ⟨fault, hread, htargets⟩ | ⟨targets, malformed, hread, htargets, hmalformed⟩
    · rw [hread, htargets]
    · obtain rfl := hmalformed.mpr hgood
      rewrite [hread, htargets]
      rfl

def emptySetting : Setting where
  config := Config.default
  home := ⟨"/", []⟩
  directory := ⟨"/", []⟩
  shell := fun disk _ _ _ => ⟨disk, some 0, [], []⟩

def emptyWorkspace : Workspace where
  disk := Disk.empty
  root := ⟨"/", []⟩
  graph := { root := ⟨"/", []⟩ }

def swallowing : Text := "<<<< SEARCH\na\n>>>> REPLACE\n<<<< SEARCH\nb\n====\nc\n>>>> REPLACE"

theorem swallowing_refused : Blocks.parse swallowing = [⟨"a\n>>>> REPLACE\n<<<< SEARCH\nb", "c"⟩] ∧
    ∃ fault, emptyWorkspace.applyDiffs emptySetting [⟨"a", swallowing⟩] = (emptyWorkspace, .error fault) := by
  have hparse : Blocks.parse swallowing = [⟨"a\n>>>> REPLACE\n<<<< SEARCH\nb", "c"⟩] := by cbv
  have hattempts : Blocks.attempts swallowing = 2 := by cbv
  have hbad : Blocks.Malformed swallowing := by
    rw [Blocks.malformed_iff, hparse, hattempts]
    rfl
  exact ⟨hparse, (diffs_guarded emptySetting emptyWorkspace).2.1 _ ⟨_, List.mem_singleton_self _, hbad⟩⟩

end Workspace

end CodeAgent
