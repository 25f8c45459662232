import Mathlib
import CodeAgent.Agent.Execute
import CodeAgent.Agent.Reply
import CodeAgent.Host.Usual
import CodeAgent.Proofs.Disk.Extend

namespace CodeAgent

namespace Disk

variable {d d' d'' e : Disk} {p : Path} {x : Place} {t : Text} {bytes : Bytes} {fault : DiskFault}

/-- Every file holds what it held, and there is no new one. -/
def FilesKept (d d' : Disk) : Prop :=
  ∀ x bytes, d'.lookup? x = some (.file bytes) ↔ d.lookup? x = some (.file bytes)

theorem FilesKept.refl (d : Disk) : FilesKept d d := fun _ _ => Iff.rfl

theorem FilesKept.trans (h : FilesKept d d') (h' : FilesKept d' d'') : FilesKept d d'' :=
  fun x bytes => (h' x bytes).trans (h x bytes)

theorem FilesKept.iff_of_left (h : FilesKept d d') : FilesKept d d'' ↔ FilesKept d' d'' :=
  ⟨fun h' x bytes => (h' x bytes).trans (h x bytes).symm, h.trans⟩

/-- When one place got a file, the files are kept just if it held that file before. -/
theorem filesKept_iff (hx : d'.lookup? x = some (.file bytes))
    (hsame : ∀ y, y ≠ x → d'.lookup? y = d.lookup? y) :
    FilesKept d d' ↔ d.lookup? x = some (.file bytes) := by
  constructor
  · exact fun h => (h x bytes).mp hx
  · intro h y other
    by_cases hy : y = x
    · rw [hy, hx, h]
    · rw [hsame y hy]

theorem Fills.filesKept (h : Fills e d d') : FilesKept d d' := by
  intro x bytes
  rcases h.spread x with hsame | ⟨hnone, hdirectory, -⟩
  · rw [hsame]
  · simp [hnone, hdirectory]

theorem makeDirectory_filesKept (h : d.makeDirectory p = .ok d') : FilesKept d d' := by
  obtain ⟨x, -, hnone, hx, rfl⟩ := makeDirectory_ok h
  exact (fills_put hx hnone (lookup?_put_self d hx)).filesKept

theorem ensureDirectory_filesKept (h : d.ensureDirectory p = .ok d') : FilesKept d d' :=
  (ensureDirectory_fills h).filesKept

/-- Making directories keeps every file. -/
theorem ensureBelow_filesKept (root : Text) (names : List Text) (d : Disk) :
    FilesKept d (ensureBelow root names d).1 := by
  induction names generalizing d with
  | nil =>
    unfold ensureBelow
    split
    · rename_i he
      exact ensureDirectory_filesKept he
    · exact FilesKept.refl d
  | cons name outer ih =>
    unfold ensureBelow
    dsimp only
    split
    · rename_i hm
      exact makeDirectory_filesKept hm
    · have hbelow := ih d
      split
      · rename_i hb
        rw [hb] at hbelow
        exact hbelow
      · rename_i hb
        rw [hb] at hbelow
        split
        · rename_i he
          exact hbelow.trans (ensureDirectory_filesKept he)
        · exact hbelow
    · split
      · split <;> exact FilesKept.refl d
      · exact FilesKept.refl d

/-- Making directories makes nothing else, however far it comes. -/
theorem ensureDirectories_filesKept (d : Disk) (p : Path) : FilesKept d (d.ensureDirectories p).1 :=
  ensureBelow_filesKept p.root p.parts.reverse d

def bytesLeft (t : Text) : Bytes := (Utf8.encode t).toOption.getD []

theorem openForWriting_put (h : d.openForWriting p = .ok (x, d')) : d' = d.put x (.file []) ∧ x ≠ [] := by
  obtain ⟨-, hfree, rfl⟩ := openForWriting_iff.mp h
  refine ⟨rfl, ?_⟩
  rintro rfl
  exact hfree rfl

/-- Whether or not the text has bytes, writing it puts what it leaves into the file that was opened. -/
theorem writeText_opened (h : d.openForWriting p = .ok (x, d')) :
    (d.writeText p t).1.lookup? x = some (.file (bytesLeft t)) ∧
      (∀ y, y ≠ x → (d.writeText p t).1.lookup? y = d.lookup? y) ∧
      ((d.writeText p t).2 = .ok () ↔ ∃ bytes, Utf8.encode t = .ok bytes) := by
  obtain ⟨rfl, hx⟩ := openForWriting_put h
  unfold writeText bytesLeft
  rw [h]
  cases Utf8.encode t with
  | ok bytes =>
    refine ⟨lookup?_put_self _ hx, fun y hy => ?_, by simp⟩
    rw [lookup?_put_of_ne _ hy, lookup?_put_of_ne _ hy]
  | error fault =>
    exact ⟨lookup?_put_self _ hx, fun y hy => lookup?_put_of_ne _ hy, by simp⟩

end Disk

namespace FileTool

open Disk

/-- How a call comes to write: on the disk `e` it opens a file at a place, for a text. The path is the one that
its first parameter means. -/
inductive Opens (d : Disk) (p : Path) : Invocation → Disk → Place → Text → Prop where
  | writeFile {path content : Text} {e e' : Disk} {x : Place} (made : d.ensureDirectories p.parent = (e, .ok ()))
      (opened : e.openForWriting p = .ok (x, e')) : Opens d p (.writeFile path content) e x content
  | editFile {path t t' : Text} {edits : List Edit} {e' : Disk} {x : Place} (old : d.readText p = .ok t)
      (new : Edit.applyAll edits t = .ok t') (opened : d.openForWriting p = .ok (x, e')) :
      Opens d p (.editFile path edits) d x t'
  | replaceLines {path content t : Text} {first last : Nat} {e' : Disk} {x : Place} (order : first ≤ last)
      (old : d.readText p = .ok t) (opened : d.openForWriting p = .ok (x, e')) :
      Opens d p (.replaceLines path first last content) d x (Lines.replace first last content t)
  | insertCode {path content t : Text} {line : Nat} {e' : Disk} {x : Place} (old : d.readText p = .ok t)
      (opened : d.openForWriting p = .ok (x, e')) :
      Opens d p (.insertCode path line content) d x (Lines.insertAfter line content t)

def writer? : Invocation → Option (Text × (Disk → Path → Disk × Except ToolFault Text))
  | .writeFile path content => some (path, fun d p => write d p content path)
  | .editFile path edits => some (path, fun d p => edit d p edits path)
  | .replaceLines path first last content => some (path, fun d p => replaceLines d p first last content path)
  | .insertCode path line content => some (path, fun d p => insertCode d p line content path)
  | _ => none

variable {d d' e e' : Disk} {p : Path} {x x' : Place} {t t' path display answer : Text} {i : Invocation}

variable {tool : Disk → Path → Disk × Except ToolFault Text}

def failureMark (kind : ToolKind) : Text := "ERROR (" ++ kind.name ++ "): "

def Plain (answer : Text) : Prop := answer.head? ≠ some (CodePoint.ofChar 'E')

theorem plain_of_head {c : CodePoint} (hc : c ≠ 'E') : Plain (c :: answer) :=
  fun h => hc (Option.some.inj h)

theorem Plain.no_failure (h : Plain answer) (kind : ToolKind) : ¬ failureMark kind <+: answer := by
  rintro ⟨rest, rfl⟩
  exact h rfl

/-- A tool that does not come to write fails and keeps the files. -/
structure Refused (d : Disk) (r : Disk × Except ToolFault Text) : Prop where
  fails : ∃ fault, r.2 = .error fault ∧ ∀ f, fault ≠ .index (.backend f)
  kept : FilesKept d r.1

/-- A path is opened in one way. -/
theorem Opens.unique (h : Opens d p i e x t) (h' : Opens d p i e' x' t') : e = e' ∧ x = x' ∧ t = t' := by
  cases h with
  | writeFile made opened =>
    cases h' with
    | writeFile made' opened' =>
      rw [made] at made'
      obtain ⟨rfl, -⟩ := Prod.mk.inj made'
      rw [opened] at opened'
      cases opened'
      exact ⟨rfl, rfl, rfl⟩
  | editFile old new opened =>
    cases h' with
    | editFile old' new' opened' =>
      rw [old] at old'
      cases old'
      rw [new] at new'
      cases new'
      rw [opened] at opened'
      cases opened'
      exact ⟨rfl, rfl, rfl⟩
  | replaceLines order old opened =>
    cases h' with
    | replaceLines order' old' opened' =>
      rw [old] at old'
      cases old'
      rw [opened] at opened'
      cases opened'
      exact ⟨rfl, rfl, rfl⟩
  | insertCode old opened =>
    cases h' with
    | insertCode old' opened' =>
      rw [old] at old'
      cases old'
      rw [opened] at opened'
      cases opened'
      exact ⟨rfl, rfl, rfl⟩

theorem Opens.filesKept (h : Opens d p i e x t) : FilesKept d e := by
  cases h with
  | writeFile made opened =>
    have hkept := ensureDirectories_filesKept d p.parent
    rw [made] at hkept
    exact hkept
  | editFile => exact FilesKept.refl d
  | replaceLines => exact FilesKept.refl d
  | insertCode => exact FilesKept.refl d

theorem Opens.opened (h : Opens d p i e x t) : ∃ e', e.openForWriting p = .ok (x, e') := by
  cases h with
  | writeFile _ opened => exact ⟨_, opened⟩
  | editFile _ _ opened => exact ⟨_, opened⟩
  | replaceLines _ _ opened => exact ⟨_, opened⟩
  | insertCode _ opened => exact ⟨_, opened⟩

/-- What can be read as a text is there and is a file. -/
theorem requireFile_of_readText (h : d.readText p = .ok t) (display : Text) :
    requireFile d p display = .ok () := by
  have hstat : ∃ bytes, d.stat p = .ok (.file bytes) := by
    unfold readText readBytes at h
    split at h
    · cases h
    · rename_i bytes hb
      split at hb
      · rename_i hs
        exact ⟨_, hs⟩
      · cases hb
      · cases hb
  obtain ⟨bytes, hs⟩ := hstat
  simp only [requireFile, ofDisk, exists?, isDirectory, ask, hs]
  rfl

/-- A missing file is no fault of the index. -/
theorem requireFile_fault {fault : ToolFault} (h : requireFile d p display = .error fault) :
    ∀ f, fault ≠ .index (.backend f) := by
  unfold requireFile ofDisk at h
  rintro f rfl
  cases he : d.exists? p with
  | error f' =>
    rw [he] at h
    cases h
  | ok there =>
    cases hd : d.isDirectory p with
    | error f' =>
      rw [he, hd] at h
      cases there <;> cases h
    | ok directory =>
      rw [he, hd] at h
      cases there <;> cases directory <;> cases h

theorem store_refused {fault : DiskFault} (h : e.openForWriting p = .error fault) (hk : FilesKept d e) :
    Refused d (store e p t answer) := by
  have hstore : store e p t answer = (e, .error (.disk fault)) := by simp only [store, Disk.writeText, h]
  rw [hstore]
  exact ⟨⟨_, rfl, by simp⟩, hk⟩

/-- A change of a text writes once the new text is found and the file is open; else nothing is touched. -/
theorem change_cases (edit : Text → Except ToolFault Text) (d : Disk) (p : Path) (display answer : Text)
    (hedit : ∀ t fault, edit t = .error fault → ∀ f, fault ≠ .index (.backend f)) :
    (∃ t t' x e', d.readText p = .ok t ∧ edit t = .ok t' ∧ d.openForWriting p = .ok (x, e') ∧
      change d p display edit answer = store d p t' answer) ∨
    ((∀ t t' x e', d.readText p = .ok t → edit t = .ok t' → d.openForWriting p ≠ .ok (x, e')) ∧
      Refused d (change d p display edit answer)) := by
  cases old : d.readText p with
  | error fault =>
    refine Or.inr ⟨fun t t' x e' => nofun, ?_⟩
    unfold change
    split
    · rename_i hr
      exact ⟨⟨_, rfl, requireFile_fault hr⟩, FilesKept.refl d⟩
    · rw [old]
      exact ⟨⟨_, rfl, fun f => nofun⟩, FilesKept.refl d⟩
  | ok t =>
    have hthere := requireFile_of_readText old display
    cases new : edit t with
    | error fault =>
      have hchange : change d p display edit answer = (d, .error fault) := by simp only [change, hthere, old, new]
      refine Or.inr ⟨?_, ⟨fault, by rw [hchange], hedit t fault new⟩, by rw [hchange]; exact FilesKept.refl d⟩
      intro t₁ t' x e' ht hnew
      cases ht
      rw [new] at hnew
      cases hnew
    | ok t' =>
      have hchange : change d p display edit answer = store d p t' answer := by
        simp only [change, hthere, old, new]
      cases opened : d.openForWriting p with
      | ok found => exact Or.inl ⟨t, t', found.1, found.2, rfl, new, rfl, hchange⟩
      | error fault =>
        refine Or.inr ⟨fun _ _ _ _ _ _ => nofun, ?_⟩
        rw [hchange]
        exact store_refused opened (FilesKept.refl d)

/-- Writing a file writes once the directories are made and the file is open; else it makes directories at
most. -/
theorem write_cases (d : Disk) (p : Path) (content display : Text) :
    (∃ e x e' answer, d.ensureDirectories p.parent = (e, .ok ()) ∧ e.openForWriting p = .ok (x, e') ∧
      write d p content display = store e p content answer ∧ Plain answer) ∨
    ((∀ e x e', d.ensureDirectories p.parent = (e, .ok ()) → e.openForWriting p ≠ .ok (x, e')) ∧
      Refused d (write d p content display)) := by
  have hkept := ensureDirectories_filesKept d p.parent
  unfold write
  cases hmade : d.ensureDirectories p.parent with
  | mk e made =>
    rw [hmade] at hkept
    cases made with
    | error fault => exact Or.inr ⟨fun _ _ _ => nofun, ⟨_, rfl, fun f => nofun⟩, hkept⟩
    | ok made =>
      cases opened : e.openForWriting p with
      | ok found => exact Or.inl ⟨e, found.1, found.2, _, rfl, opened, rfl, plain_of_head (by decide)⟩
      | error fault =>
        refine Or.inr ⟨?_, store_refused opened hkept⟩
        rintro _ x e' ⟨⟩
        rw [opened]
        nofun

/-- A call comes to write, and then writes a text into the file that it opens, or it fails without touching a
file. -/
theorem writer_cases (h : writer? i = some (path, tool)) (d : Disk) (p : Path) :
    (∃ e x t answer, Opens d p i e x t ∧ tool d p = store e p t answer ∧ Plain answer) ∨
      (∀ e x t, ¬ Opens d p i e x t) ∧ Refused d (tool d p) := by
  cases i with
  | writeFile path content =>
    cases h
    rcases write_cases d p content path with ⟨e, x, e', answer, made, opened, hw, ha⟩ | ⟨hno, hr⟩
    · exact Or.inl ⟨e, x, content, answer, .writeFile made opened, hw, ha⟩
    · refine Or.inr ⟨?_, hr⟩
      rintro e x t (⟨made, opened⟩ | _)
      exact hno _ _ _ made opened
  | editFile path edits =>
    cases h
    have hedit : ∀ t fault, (Edit.applyAll edits t).mapError (ToolFault.edit path) = .error fault →
        ∀ f, fault ≠ .index (.backend f) := by
      rintro t fault he f rfl
      cases ha : Edit.applyAll edits t with
      | ok t' => rw [ha] at he; cases he
      | error fault => rw [ha] at he; cases he
    rcases change_cases _ d p path ("Applied " ++ Text.ofNat edits.length ++ " edit(s) to " ++ path) hedit
      with ⟨t, t', x, e', old, new, opened, hc⟩ | ⟨hno, hr⟩
    · refine Or.inl ⟨d, x, t', _, .editFile old ?_ opened, hc, plain_of_head (by decide)⟩
      cases ha : Edit.applyAll edits t with
      | ok t'' => rw [ha] at new; cases new; rfl
      | error fault => rw [ha] at new; cases new
    · refine Or.inr ⟨?_, hr⟩
      rintro e x t (_ | ⟨old, new, opened⟩)
      exact hno _ _ _ _ old (by rw [new]; rfl) opened
  | replaceLines path first last content =>
    cases h
    dsimp only
    unfold replaceLines
    cases hthere : requireFile d p path with
    | error fault =>
      refine Or.inr ⟨?_, ⟨fault, rfl, requireFile_fault hthere⟩, FilesKept.refl d⟩
      rintro e x t (_ | _ | ⟨order, old, opened⟩)
      rw [requireFile_of_readText old] at hthere
      cases hthere
    | ok there =>
      by_cases order : last < first
      · simp only [order, ↓reduceIte]
        refine Or.inr ⟨?_, ⟨_, rfl, fun f => nofun⟩, FilesKept.refl d⟩
        rintro e x t (_ | _ | ⟨order', -, -⟩)
        exact absurd order (Nat.not_lt.mpr order')
      · simp only [order, ↓reduceIte]
        rcases change_cases (fun t => .ok (Lines.replace first last content t)) d p path
          ("Replaced lines " ++ Text.ofNat first ++ "-" ++ Text.ofNat last ++ " in " ++ path) (fun t fault => nofun)
          with ⟨t, t', x, e', old, ⟨⟩, opened, hc⟩ | ⟨hno, hr⟩
        · exact Or.inl ⟨d, x, _, _, .replaceLines (Nat.not_lt.mp order) old opened, hc, plain_of_head (by decide)⟩
        · refine Or.inr ⟨?_, hr⟩
          rintro e x t (_ | _ | ⟨-, old, opened⟩)
          exact hno _ _ _ _ old rfl opened
  | insertCode path line content =>
    cases h
    rcases change_cases (fun t => .ok (Lines.insertAfter line content t)) d p path
      ("Inserted code after line " ++ Text.ofNat line ++ " in " ++ path) (fun t fault => nofun)
      with ⟨t, t', x, e', old, ⟨⟩, opened, hc⟩ | ⟨hno, hr⟩
    · exact Or.inl ⟨d, x, _, _, .insertCode old opened, hc, plain_of_head (by decide)⟩
    · refine Or.inr ⟨?_, hr⟩
      rintro e x t (_ | _ | _ | ⟨old, opened⟩)
      exact hno _ _ _ _ old rfl opened
  | _ => cases h

end FileTool

namespace Workspace

open Disk FileTool

variable {s : Setting} {w : Workspace} {p : Path} {path : Text} {i : Invocation}

theorem indexOne_disabled (h : w.index = none) (step : Disk → SemanticIndex → IndexStep IndexOutcome) :
    w.indexOne step = (w, .ok ()) := by
  simp only [indexOne, h]

theorem changeGraph_keeps (w : Workspace) (change : Disk → Graph → Except DiskFault Graph) :
    (w.changeGraph change).1.disk = w.disk ∧ (w.changeGraph change).1.index = w.index := by
  unfold changeGraph
  split <;> exact ⟨rfl, rfl⟩

theorem fileRemoved_keeps (h : w.index = none) (p : Path) :
    (w.fileRemoved p).1.disk = w.disk ∧ (w.fileRemoved p).1.index = none := by
  unfold fileRemoved
  rw [indexOne_disabled h]
  obtain ⟨hd, hi⟩ := changeGraph_keeps w fun d g => g.removeFile d p
  exact ⟨hd, hi.trans h⟩

theorem conclude_fault {fault : ToolFault} (h : ∀ f, fault ≠ .index (.backend f)) (kind : ToolKind) :
    w.conclude kind (.error fault) = (w, .ok (failureMark kind ++ fault.message)) := by
  unfold conclude
  split
  · rename_i he
    cases he
  · rename_i f he
    exact absurd (Except.error.inj he) (h f)
  · rename_i he
    cases he
    rfl

theorem conclude_disk (w : Workspace) (kind : ToolKind) (fault : DiskFault) :
    w.conclude kind (.error (.disk fault)) = (w, .ok (failureMark kind ++ fault.message)) :=
  rfl

theorem conclude_answer (w : Workspace) (kind : ToolKind) (answer : Text) :
    ∃ w', w.conclude kind (.ok answer) = (w', .ok answer) ∧ w'.disk = w.disk := by
  refine ⟨_, rfl, ?_⟩
  split <;> rfl

variable [Host]

theorem fileChanged_keeps (h : w.index = none) (s : Setting) (p : Path) :
    (w.fileChanged s p).1.disk = w.disk ∧ (w.fileChanged s p).1.index = none := by
  unfold fileChanged
  split
  · exact ⟨rfl, h⟩
  · exact ⟨rfl, h⟩
  · rw [indexOne_disabled h]
    obtain ⟨hd, hi⟩ := changeGraph_keeps w fun d g => g.updateFile d p
    exact ⟨hd, hi.trans h⟩

theorem refreshOne_keeps (h : w.index = none) (s : Setting) (p : Path) :
    (w.refreshOne s p).1.disk = w.disk ∧ (w.refreshOne s p).1.index = none := by
  unfold refreshOne
  split
  · exact ⟨rfl, h⟩
  · split
    · exact ⟨rfl, h⟩
    · split
      · exact ⟨rfl, h⟩
      · exact fileChanged_keeps h s p
      · exact fileRemoved_keeps h p

/-- Without an index, telling the workspace of files does not touch the disk. -/
theorem refresh_disk (h : w.index = none) (s : Setting) (ps : List Path) :
    (w.refresh s ps).1.disk = w.disk := by
  induction ps generalizing w with
  | nil => rfl
  | cons p rest ih =>
    obtain ⟨hd, hi⟩ := refreshOne_keeps h s p
    unfold refresh
    split
    · rename_i w' _ hr
      rw [hr] at hd hi
      exact (ih hi).trans hd
    · rename_i w' _ hr
      rw [hr] at hd
      exact hd

theorem perform_writer {tool : Disk → Path → Disk × Except ToolFault Text} (h : writer? i = some (path, tool))
    (s : Setting) (w : Workspace) : w.perform s i = w.onFile s path tool := by
  cases i <;> cases h <;> rfl

def told (s : Setting) (w : Workspace) (kind : ToolKind) (path : Text)
    (tool : Disk → Path → Disk × Except ToolFault Text) : Workspace × Except BackendFault Text :=
  (w.onFile s path tool).1.conclude kind (w.onFile s path tool).2

variable {tool : Disk → Path → Disk × Except ToolFault Text} {kind : ToolKind} {e e' : Disk} {x : Place}

variable {t answer : Text}

theorem told_unresolved {fault : DiskFault} (h : w.resolve s path = .error fault) :
    told s w kind path tool = (w, .ok (failureMark kind ++ fault.message)) := by
  have hrun : w.onFile s path tool = (w, .error (.disk fault)) := by simp only [onFile, h]
  rw [told, hrun]
  exact conclude_disk w kind fault

theorem told_refused (h : w.resolve s path = .ok p) (hr : Refused w.disk (tool w.disk p)) :
    ∃ w' message, told s w kind path tool = (w', .ok (failureMark kind ++ message)) ∧
      FilesKept w.disk w'.disk := by
  obtain ⟨fault, hfault, hobserved⟩ := hr.fails
  have htool : tool w.disk p = ((tool w.disk p).1, .error fault) := Prod.ext rfl hfault
  have hrun : w.onFile s path tool = ({ w with disk := (tool w.disk p).1 }, .error fault) := by
    simp only [onFile, h]
    rw [htool]
  rw [told, hrun]
  exact ⟨_, _, conclude_fault hobserved kind, hr.kept⟩

/-- A file was opened: the disk is as writing left it, and a failure is told unless the text has bytes and the
workspace could be told of the file. -/
theorem told_store (hx : w.index = none) (h : w.resolve s path = .ok p)
    (htool : tool w.disk p = store e p t answer) (opened : e.openForWriting p = .ok (x, e'))
    (ha : FileTool.Plain answer) :
    ∃ w' observation, told s w kind path tool = (w', .ok observation) ∧ w'.disk = (e.writeText p t).1 ∧
      (failureMark kind <+: observation ↔ ¬ ((∃ bytes, Utf8.encode t = .ok bytes) ∧
        (({ w with disk := (e.writeText p t).1 } : Workspace).refresh s [p]).2 = .ok ())) := by
  obtain ⟨-, -, hencoded⟩ := writeText_opened (t := t) opened
  rw [← hencoded]
  unfold told onFile
  rw [h]
  dsimp only
  rw [htool, store]
  cases hw : e.writeText p t with
  | mk d written =>
    cases written with
    | error fault =>
      refine ⟨_, _, conclude_disk _ kind fault, rfl, ?_⟩
      simp
    | ok written =>
      have hdisk := refresh_disk (w := { w with disk := d }) hx s [p]
      dsimp only
      cases hr : ({ w with disk := d } : Workspace).refresh s [p] with
      | mk w' refreshed =>
        rw [hr] at hdisk
        cases refreshed with
        | error fault =>
          refine ⟨_, _, conclude_disk w' kind fault, hdisk, ?_⟩
          simp
        | ok refreshed =>
          obtain ⟨w'', hc, hd⟩ := conclude_answer w' kind answer
          refine ⟨w'', answer, hc, hd.trans hdisk, ?_⟩
          simpa using ha.no_failure kind

end Workspace

namespace Bench

open Disk FileTool

variable {s : Setting} {b : Bench} {path : Text} {i : Invocation} {iteration : Option Nat}

section
variable [Host]

theorem execute_writer {tool : Disk → Path → Disk × Except ToolFault Text} (h : writer? i = some (path, tool)) :
    b.execute s (.valid i) iteration = .done (b.perform s i).1 (b.perform s i).2 := by
  cases i <;> cases h <;> rfl

/-- The files are as before whenever a failure is told, just if the call does not come to write, or writing
leaves what the file held, or nothing fails after the file was opened: the text has bytes and the workspace can
be told of the file. -/
theorem told_failure_keeps_files_iff {tool : Disk → Path → Disk × Except ToolFault Text}
    (hi : writer? i = some (path, tool)) (hx : b.workspace.index = none) :
    ∃ b' observation, b.execute s (.valid i) iteration = .done b' (.ok observation) ∧
      ((failureMark i.kind <+: observation → FilesKept b.workspace.disk b'.workspace.disk) ↔
        ∀ p e x t, b.workspace.resolve s path = .ok p → Opens b.workspace.disk p i e x t →
          b.workspace.disk.lookup? x = some (.file (bytesLeft t)) ∨
          (∃ bytes, Utf8.encode t = .ok bytes) ∧
            (({ b.workspace with disk := (e.writeText p t).1 } : Workspace).refresh s [p]).2 = .ok ()) := by
  have hrun : b.execute s (.valid i) iteration =
      .done { b with workspace := (Workspace.told s b.workspace i.kind path tool).1 }
        (Workspace.told s b.workspace i.kind path tool).2 := by
    rw [execute_writer hi, perform, Workspace.perform_writer hi]
    rfl
  rw [hrun]
  cases hp : b.workspace.resolve s path with
  | error fault =>
    rw [Workspace.told_unresolved hp]
    exact ⟨_, _, rfl, fun _ p e x t => nofun, fun _ _ => FilesKept.refl _⟩
  | ok p =>
    rcases writer_cases hi b.workspace.disk p with ⟨e, x, t, answer, hopens, htool, hplain⟩ | ⟨hno, hr⟩
    · obtain ⟨e', opened⟩ := hopens.opened
      obtain ⟨hleft, hsame, -⟩ := writeText_opened (t := t) opened
      obtain ⟨w', observation, htold, hdisk, hfailure⟩ := Workspace.told_store hx hp htool opened hplain
      rw [htold]
      refine ⟨_, observation, rfl, ?_⟩
      have hkept : FilesKept b.workspace.disk w'.disk ↔
          b.workspace.disk.lookup? x = some (.file (bytesLeft t)) := by
        rw [hopens.filesKept.iff_of_left, hdisk, filesKept_iff hleft hsame]
        exact hopens.filesKept x (bytesLeft t)
      dsimp only
      rw [hfailure, hkept]
      constructor
      · rintro h q e₁ x₁ t₁ ⟨⟩ hopens'
        obtain ⟨rfl, rfl, rfl⟩ := hopens.unique hopens'
        exact (Classical.em _).symm.imp_left h
      · exact fun h hfails => (h p e x t rfl hopens).resolve_right hfails
    · obtain ⟨w', message, htold, hkept⟩ := Workspace.told_refused hp hr
      rw [htold]
      refine ⟨_, _, rfl, ?_, fun _ _ => hkept⟩
      rintro - q e x t ⟨⟩ hopens
      exact absurd hopens (hno e x t)

def oneFile : Disk := ⟨[(["w"], .directory), (["w", "a"], .file [120])]⟩

def bare : Setting where
  config := Config.default
  home := ⟨[Path.slash], []⟩
  directory := ⟨[Path.slash], []⟩
  shell := fun disk _ _ _ => ⟨disk, some 0, [], []⟩

def onOneFile : Bench :=
  ⟨{ disk := oneFile, root := ⟨[Path.slash], ["w"]⟩, graph := ⟨⟨[Path.slash], ["w"]⟩, [], []⟩ }, {}⟩

end

attribute [local instance] Host.usual

/-- A text that is not found is searched before the file is opened. -/
theorem missing_text_keeps_files :
    ∃ b' observation, onOneFile.execute bare (.valid (.editFile "a" [⟨"y", "z"⟩])) none = .done b' (.ok observation) ∧
      (failureMark .editFile <+: observation → FilesKept oneFile b'.workspace.disk) := by
  obtain ⟨b', observation, hrun, hkept⟩ :=
    @told_failure_keeps_files_iff bare onOneFile "a" (.editFile "a" [⟨"y", "z"⟩]) none _ _ rfl rfl
  refine ⟨b', observation, hrun, hkept.mpr ?_⟩
  rintro p e x t hp (_ | ⟨old, new, opened⟩)
  have hpath : onOneFile.workspace.resolve bare "a" = .ok ⟨[Path.slash], ["w", "a"]⟩ := by cbv
  rw [hpath] at hp
  cases hp
  have hread : oneFile.readText ⟨[Path.slash], ["w", "a"]⟩ = .ok "x" := by cbv
  change oneFile.readText _ = _ at old
  rw [hread] at old
  cases old
  cases new

/-- A lone surrogate is found only once the file is open: the file is emptied, and the model is told that the
call has failed. -/
theorem surrogate_empties_file :
    Reply.toolCall? "\x7b\"tool\": \"write_file\", \"path\": \"a\", \"content\": \"\\ud800\"\x7d" =
      .ok (some (.valid (.writeFile "a" [CodePoint.ofNat 0xd800]))) ∧
    onOneFile.workspace.index = none ∧
    ∃ b' observation, onOneFile.execute bare (.valid (.writeFile "a" [CodePoint.ofNat 0xd800])) none =
        .done b' (.ok observation) ∧
      failureMark .writeFile <+: observation ∧ ¬ FilesKept onOneFile.workspace.disk b'.workspace.disk := by
  refine ⟨by cbv, rfl, ?_⟩
  have hpath : onOneFile.workspace.resolve bare "a" = .ok ⟨[Path.slash], ["w", "a"]⟩ := by cbv
  have hwrite : FileTool.write oneFile ⟨[Path.slash], ["w", "a"]⟩ [CodePoint.ofNat 0xd800] "a" =
      (⟨[(["w"], .directory), (["w", "a"], .file [])]⟩,
          .error (.disk (.unwritable ⟨0, [CodePoint.ofNat 0xd800]⟩))) := by
    cbv
  have hrun : onOneFile.workspace.onFile bare "a" (fun d p => FileTool.write d p [CodePoint.ofNat 0xd800] "a") =
      ({ onOneFile.workspace with disk := ⟨[(["w"], .directory), (["w", "a"], .file [])]⟩ },
        .error (.disk (.unwritable ⟨0, [CodePoint.ofNat 0xd800]⟩))) := by
    unfold Workspace.onFile
    rw [hpath]
    dsimp only
    rw [show onOneFile.workspace.disk = oneFile from rfl, hwrite]
  rw [execute_writer rfl, perform, Workspace.perform_writer rfl, hrun]
  dsimp only
  rw [Workspace.conclude_disk]
  refine ⟨_, _, rfl, List.prefix_append _ _, fun h => ?_⟩
  have hsame := (h ["w", "a"] [120]).mpr rfl
  cases hsame

end Bench

end CodeAgent
