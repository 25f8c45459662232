import CodeAgent.Proofs.Edit.InTurn
import CodeAgent.Proofs.Tool.Write

namespace CodeAgent

namespace Disk

variable {d : Disk} {p : Path} {bytes : Bytes} {t : Text}

/-- One file holds a new text, and whatever else there was is as it was. -/
structure Rewritten (d : Disk) (p : Path) (t : Text) (d' : Disk) : Prop where
  holds : ∃ bytes, Utf8.encode t = .ok bytes ∧ d'.readBytes p = .ok bytes
  elsewhere : ∀ x, d.locate true p = .ok x → ∀ y, y ≠ x → d'.lookup? y = d.lookup? y

/-- Bytes that are read stand in a file to which the path leads. -/
theorem located_of_readBytes (h : d.readBytes p = .ok bytes) :
    ∃ x, d.locate true p = .ok x ∧ d.lookup? x = some (.file bytes) := by
  have hstat := Transaction.readBytes_ok_iff.mp h
  unfold stat at hstat
  cases hl : d.locate true p with
  | error fault =>
    rw [hl] at hstat
    cases hstat
  | ok x =>
    rw [hl] at hstat
    cases he : d.lookup? x with
    | none => simp [he] at hstat
    | some entry =>
      simp only [he, Except.ok.injEq] at hstat
      exact ⟨x, rfl, by rw [he, hstat]⟩

theorem readText_of_decode (file : d.readBytes p = .ok bytes) (text : Utf8.decode bytes = .ok t) :
    d.readText p = .ok (Text.normalizeNewlines t) := by
  simp only [readText, file, text]

theorem normalized_encodable (text : Utf8.decode bytes = .ok t) : Utf8.Encodable (Text.normalizeNewlines t) :=
  Transaction.normalizeNewlines_encodable (Utf8.decode_ok text).2

/-- Where there is a file, its directory is there. -/
theorem ensureDirectories_of_readBytes (h : d.readBytes p = .ok bytes) :
    d.ensureDirectories p.parent = (d, .ok ()) := by
  obtain ⟨x, hl, hx⟩ := located_of_readBytes h
  obtain ⟨root, parts⟩ := p
  have hparts : parts ≠ [] := by
    rintro rfl
    cases (locate_iff.mp hl).2.2
    cases hx
  have hlast := List.dropLast_append_getLast hparts
  apply ensureBelow_of_isDirectory
  rw [List.reverse_reverse]
  apply isDirectory_parent
  rw [← hlast] at hl
  exact hl

/-- A file that is there takes every text that has bytes. -/
theorem writeText_rewritten (h : d.readBytes p = .ok bytes) (ht : Utf8.Encodable t) :
    ∃ d', d.writeText p t = (d', .ok ()) ∧ Rewritten d p t d' := by
  obtain ⟨x, hl, hx⟩ := located_of_readBytes h
  obtain ⟨written, hencode⟩ := (encode_ok_iff t).mpr ht
  obtain ⟨d', hwrite, hextends, hself, hother⟩ := writeText_located hl (by simp [hx]) hencode
  refine ⟨d', hwrite, ⟨written, hencode, ?_⟩, ?_⟩
  · apply Transaction.readBytes_ok_iff.mpr
    simp only [stat, locate_extends hextends hl, hself]
  · intro x' hl' y hy
    rw [hl] at hl'
    cases hl'
    exact hother y hy

end Disk

variable {d d' : Disk} {p : Path} {bytes : Bytes} {t final display answer : Text} {edits : List Edit}

namespace Transaction

theorem backUp_one (edits : List Edit) (h : d.readText p = .ok t) : backUp d [] [⟨p, edits⟩] = .ok [(p, some t)] := by
  simp [backUp, Table.get?, snapshot, h, Table.set]

/-- A transaction on one file writes what its blocks make of it. -/
theorem apply_one_ok (file : d.readBytes p = .ok bytes) (text : Utf8.decode bytes = .ok t)
    (blocks : Edit.applyBlocks 1 edits (Text.normalizeNewlines t) = .ok final)
    (written : d.writeText p final = (d', .ok ())) : apply d [⟨p, edits⟩] = (d', .ok 1) := by
  have hbackups := backUp_one edits (Disk.readText_of_decode file text)
  have hworking : resolve [(p, some (Text.normalizeNewlines t))] [] [⟨p, edits⟩] = .ok [(p, final)] := by
    simp [resolve, current, Table.get?, blocks, Table.set]
  have hwrite := writeFile_unrefused (Disk.ensureDirectories_of_readBytes file) written
  simp [apply, applyOn, hbackups, hworking, writeAll, hwrite]

theorem apply_one_error {number : Nat} (file : d.readBytes p = .ok bytes) (text : Utf8.decode bytes = .ok t)
    (blocks : Edit.applyBlocks 1 edits (Text.normalizeNewlines t) = .error number) :
    ∃ cause, apply d [⟨p, edits⟩] = (d, .error (.early cause)) := by
  have hbackups := backUp_one edits (Disk.readText_of_decode file text)
  obtain ⟨cause, hworking⟩ :
      ∃ cause, resolve [(p, some (Text.normalizeNewlines t))] [] [⟨p, edits⟩] = .error (.early cause) := by
    simp [resolve, current, Table.get?, blocks]
  exact ⟨cause, by simp [apply, applyOn, hbackups, hworking]⟩

end Transaction

namespace FileTool
open Disk

/-- A text that was changed is written, by the tool as by a bare write. -/
theorem change_ok (edit : Text → Except ToolFault Text) (file : d.readBytes p = .ok bytes)
    (text : Utf8.decode bytes = .ok t) (new : edit (Text.normalizeNewlines t) = .ok final)
    (encodable : Utf8.Encodable final) (display answer : Text) :
    ∃ d', d.writeText p final = (d', .ok ()) ∧ change d p display edit answer = (d', .ok answer) ∧
      Rewritten d p final d' := by
  obtain ⟨d', hwrite, hrewritten⟩ := writeText_rewritten file encodable
  have hread := readText_of_decode file text
  refine ⟨d', hwrite, ?_, hrewritten⟩
  simp only [change, requireFile_of_readText hread, hread, new, store, hwrite]

theorem change_refused {edit : Text → Except ToolFault Text} {fault : ToolFault} (file : d.readBytes p = .ok bytes)
    (text : Utf8.decode bytes = .ok t) (new : edit (Text.normalizeNewlines t) = .error fault) :
    change d p display edit answer = (d, .error fault) := by
  have hread := readText_of_decode file text
  simp only [change, requireFile_of_readText hread, hread, new]

theorem edit_ok (file : d.readBytes p = .ok bytes) (text : Utf8.decode bytes = .ok t)
    (made : Edit.applyAll edits (Text.normalizeNewlines t) = .ok final) (encodable : Utf8.Encodable final)
    (display : Text) :
    ∃ d' answer, d.writeText p final = (d', .ok ()) ∧ edit d p edits display = (d', .ok answer) ∧
      Rewritten d p final d' := by
  obtain ⟨d', hwrite, hchange, hrewritten⟩ := change_ok
    (fun t => (Edit.applyAll edits t).mapError (.edit display)) file text (by rw [made]; rfl) encodable display
    ("Applied " ++ Text.ofNat edits.length ++ " edit(s) to " ++ display)
  exact ⟨d', _, hwrite, hchange, hrewritten⟩

theorem edit_refused {fault : Edit.Fault} (file : d.readBytes p = .ok bytes) (text : Utf8.decode bytes = .ok t)
    (stopped : Edit.applyAll edits (Text.normalizeNewlines t) = .error fault) (display : Text) :
    edit d p edits display = (d, .error (.edit display fault)) :=
  change_refused file text (by rw [stopped]; rfl)

/-- Editing a file fails just if its edits are blocked, and then nothing is written; else the file holds what its
edits in turn make of its text. A transaction with these blocks agrees, unless a search text is empty. -/
theorem edit_in_turn (file : d.readBytes p = .ok bytes) (text : Utf8.decode bytes = .ok t)
    (encodable : ∀ e ∈ edits, Utf8.Encodable e.replacement) (display : Text) :
    ((∃ d' fault, edit d p edits display = (d', .error (.edit display fault))) ↔
      Edit.Blocked edits (Text.normalizeNewlines t)) ∧
    (Edit.Blocked edits (Text.normalizeNewlines t) → (edit d p edits display).1 = d) ∧
    (¬ Edit.Blocked edits (Text.normalizeNewlines t) → ∃ final d' answer,
      Edit.InTurn edits (Text.normalizeNewlines t) final ∧ edit d p edits display = (d', .ok answer) ∧
        Rewritten d p final d') ∧
    ((∀ e ∈ edits, e.search ≠ []) →
      (∃ d' answer, edit d p edits display = (d', .ok answer) ∧ Transaction.apply d [⟨p, edits⟩] = (d', .ok 1)) ∨
      ∃ fault cause, edit d p edits display = (d, .error (.edit display fault)) ∧
        Transaction.apply d [⟨p, edits⟩] = (d, .error (.early cause))) := by
  rcases Edit.applyAll_cases edits (Text.normalizeNewlines t) with
    ⟨final, hall, hturn, hfree⟩ | ⟨⟨fault, hall⟩, hblocked⟩
  · obtain ⟨d', answer, hwrite, hedit, hrewritten⟩ :=
      edit_ok file text hall (hturn.encodable (normalized_encodable text) encodable) display
    refine ⟨?_, fun h => absurd h hfree, fun _ => ⟨final, d', answer, hturn, hedit, hrewritten⟩, ?_⟩
    · rw [hedit]
      simp [hfree]
    · intro hs
      have hblocks := Edit.applyBlocks_of_applyAll_ok hs hall 1
      exact Or.inl ⟨d', answer, hedit, Transaction.apply_one_ok file text hblocks hwrite⟩
  · have hedit := edit_refused file text hall display
    refine ⟨⟨fun _ => hblocked, fun _ => ⟨d, fault, hedit⟩⟩, fun _ => by rw [hedit], fun h => absurd hblocked h, ?_⟩
    intro hs
    obtain ⟨number, hblocks⟩ := Edit.applyBlocks_of_applyAll_error hs hall 1
    obtain ⟨cause, hcause⟩ := Transaction.apply_one_error file text hblocks
    exact Or.inr ⟨fault, cause, hedit, hcause⟩

def twoLines : Disk := ⟨[(["a"], .file [120, 13, 10, 121])]⟩

theorem twoLines_file : twoLines.readBytes (Transaction.topLevel "a") = .ok [120, 13, 10, 121] := by cbv

theorem twoLines_text : Utf8.decode [120, 13, 10, 121] = .ok (Text.ofString "x\r\ny") := by cbv

def chainedEdits : List Edit := [⟨"x\n", "z"⟩, ⟨"zy", "w"⟩]

theorem chained_edits_made : ∃ final d' answer, Edit.InTurn chainedEdits (Text.normalizeNewlines "x\r\ny") final ∧
    edit twoLines (Transaction.topLevel "a") chainedEdits "a" = (d', .ok answer) ∧
      Rewritten twoLines (Transaction.topLevel "a") final d' := by
  have hencodable : ∀ e ∈ chainedEdits, Utf8.Encodable e.replacement := by
    unfold Utf8.Encodable
    decide
  have hmade := edit_in_turn twoLines_file twoLines_text hencodable "a"
  have hok : (edit twoLines (Transaction.topLevel "a") chainedEdits "a").2 = .ok "Applied 2 edit(s) to a" := by cbv
  apply hmade.2.2.1
  intro hblocked
  obtain ⟨d', fault, hedit⟩ := hmade.1.mpr hblocked
  rw [hedit] at hok
  cases hok

end FileTool
end CodeAgent
