import CodeAgent.Proofs.Tool.Rewrite

namespace CodeAgent

namespace Lines
open Text

variable {t content shown : Text} {before after first last line : Nat} {L M : List Text}

/-- What is shown of lines: each behind its number, counted from one. -/
def Shows (shown : Text) (L : List Text) : Prop :=
  lines shown = L.mapIdx fun i l => ofNat (i + 1) ++ ": " ++ l

/-- What is shown tells the lines. -/
theorem Shows.unique (h : Shows shown L) (h' : Shows shown M) : L = M := by
  have hsame := h.symm.trans h'
  have hlength : L.length = M.length := by simpa using congrArg List.length hsame
  apply List.ext_getElem hlength
  intro i hi hi'
  have hline := List.getElem_of_eq hsame (by simpa using hi)
  simpa using hline

theorem numberFrom_eq (n : Nat) (ls : List Text) :
    numberFrom n ls = ls.mapIdx fun i l => ofNat (i + n) ++ ": " ++ l := by
  induction ls generalizing n with
  | nil => rfl
  | cons l ls ih =>
    rw [numberFrom, ih, List.mapIdx_cons]
    simp [Nat.add_assoc, Nat.add_comm 1 n]

theorem newline_not_mem_numberFrom {ls : List Text} (h : ∀ l ∈ ls, newline ∉ l) (n : Nat) :
    ∀ l ∈ numberFrom n ls, newline ∉ l := by
  induction ls generalizing n with
  | nil => simp [numberFrom]
  | cons l ls ih =>
    obtain ⟨hl, hls⟩ := List.forall_mem_cons.mp h
    rw [numberFrom, List.forall_mem_cons]
    refine ⟨?_, ih hls (n + 1)⟩
    have hnumber : newline ∉ ofNat n := not_mem_ofNat (by decide) n
    have hcolon : newline ∉ (": " : Text) := by decide
    simp [hl, hnumber, hcolon]

theorem numbered_shows (t : Text) : Shows (numbered t) (lines t) := by
  have hlines : ∀ l ∈ numberFrom 1 (lines t), newline ∉ l :=
    newline_not_mem_numberFrom (fun l hl => not_mem_of_mem_splitOn hl) 1
  have hne : numberFrom 1 (lines t) ≠ [] := by
    rw [numberFrom_eq]
    simpa [lines] using splitOn_ne_nil newline t
  rw [Shows, numbered, lines_unlines hlines hne, numberFrom_eq]

def splice (before after : Nat) (content t : Text) : Text :=
  unlines ((lines t).take before ++ [content] ++ (lines t).drop after)

theorem replace_eq_splice (hfirst : 1 ≤ first) (hlast : first ≤ last) (content t : Text) :
    replace first last content t = splice (first - 1) last content t := by
  rw [replace, Nat.max_eq_right (by omega)]
  rfl

/-- The lines of the content come in whole, and no other line is touched. -/
theorem lines_splice (before after : Nat) (content t : Text) :
    lines (splice before after content t) = (lines t).take before ++ lines content ++ (lines t).drop after := by
  have hline : ∀ l ∈ lines t, newline ∉ l := fun l hl => not_mem_of_mem_splitOn hl
  rw [splice, lines_unlines_flatMap (by simp), List.flatMap_append, List.flatMap_append, List.flatMap_singleton,
    flatMap_lines_of_no_newline fun l hl => hline l (List.mem_of_mem_take hl),
    flatMap_lines_of_no_newline fun l hl => hline l (List.mem_of_mem_drop hl)]

theorem mem_splice {c : CodePoint} (h : c ∈ splice before after content t) : c = newline ∨ c ∈ content ∨ c ∈ t := by
  rcases mem_joinWith h with hc | ⟨part, hpart, hc⟩
  · exact Or.inl (List.mem_singleton.mp hc)
  · simp only [List.mem_append, List.mem_singleton] at hpart
    rcases hpart with (hpart | rfl) | hpart
    · exact Or.inr (Or.inr (subset_of_mem_splitOn (List.mem_of_mem_take hpart) hc))
    · exact Or.inr (Or.inl hc)
    · exact Or.inr (Or.inr (subset_of_mem_splitOn (List.mem_of_mem_drop hpart) hc))

/-- Lines that are there, put in their own place, change nothing. -/
theorem splice_own (hbefore : before < after) (hafter : after ≤ (lines t).length) :
    splice before after (unlines (((lines t).take after).drop before)) t = t := by
  have hlines := lines_splice before after (unlines (((lines t).take after).drop before)) t
  have hmiddle : ((lines t).take after).drop before ≠ [] := by
    rw [← List.length_pos_iff, List.length_drop, List.length_take]
    omega
  have hfront : (lines t).take before = ((lines t).take after).take before := by
    rw [List.take_take, Nat.min_eq_left hbefore.le]
  have hline : ∀ l ∈ ((lines t).take after).drop before, newline ∉ l := fun l hl =>
    not_mem_of_mem_splitOn (List.mem_of_mem_take (List.mem_of_mem_drop hl))
  rw [lines_unlines hline hmiddle, hfront, List.take_append_drop, List.take_append_drop] at hlines
  rw [← unlines_lines (splice _ _ _ t), hlines, unlines_lines]

end Lines

variable {d d' : Disk} {p : Path} {bytes : Bytes} {t content display answer : Text} {first last : Nat}

/-- A text without carriage returns is read back from the file that holds it. -/
theorem Disk.Rewritten.read (h : d.Rewritten p t d') (hr : CodePoint.ofChar '\r' ∉ t) :
    ∃ bytes, d'.readBytes p = .ok bytes ∧ Utf8.decode bytes = .ok t ∧ Text.normalizeNewlines t = t := by
  obtain ⟨bytes, hencode, hread⟩ := h.holds
  have hencodable := (Disk.encode_ok_iff t).mp ⟨bytes, hencode⟩
  refine ⟨bytes, hread, by rw [Utf8.encode_ok hencode, Utf8.decode_encode hencodable], ?_⟩
  apply Utf8.normalizeNewlines_id
  intro c hc hv
  have hreturn : c = CodePoint.ofChar '\r' := by
    rw [CodePoint.mk.injEq]
    exact hv
  exact hr (hreturn ▸ hc)

namespace FileTool
open Disk

/-- Reading the file shows these lines, unless it looks binary. -/
def Displays (d : Disk) (p : Path) (display : Text) (L : List Text) : Prop :=
  ∃ bytes, d.readBytes p = .ok bytes ∧
    (looksBinary bytes = false → ∃ shown, show_ d p display = .ok shown ∧ Lines.Shows shown L)

theorem displays_of_decode (file : d.readBytes p = .ok bytes) (text : Utf8.decode bytes = .ok t) (display : Text) :
    Displays d p display (Text.lines (Text.normalizeNewlines t)) := by
  refine ⟨bytes, file, fun hplain => ⟨_, ?_, Lines.numbered_shows _⟩⟩
  have hthere := requireFile_of_readText (readText_of_decode file text) display
  have hlossy : d.readTextLossy p = .ok (Text.normalizeNewlines t) := by
    rw [readTextLossy, file, Except.map, Utf8.decodeLossy_of_decode text]
  simp [show_, hthere, ofDisk, file, hlossy, hplain, Except.mapError, bind, Except.bind, pure, Except.pure]

/-- What a line of a file holds can be written, and is no carriage return. -/
theorem normalized_char {c : CodePoint} (text : Utf8.decode bytes = .ok t)
    (h : c = Text.newline ∨ c ∈ Text.normalizeNewlines t) : c.isSurrogate = false ∧ c ≠ CodePoint.ofChar '\r' := by
  rcases h with rfl | hc
  · decide
  · refine ⟨normalized_encodable text c hc, ?_⟩
    rintro rfl
    exact Utf8.normalizeNewlines_no_return t _ hc rfl

/-- A content that is put between lines comes in, and the lines around it are shown as they were. -/
theorem change_splice (file : d.readBytes p = .ok bytes) (text : Utf8.decode bytes = .ok t)
    (plain : ∀ c ∈ content, c.isSurrogate = false ∧ c ≠ CodePoint.ofChar '\r') (before after : Nat)
    (display answer : Text) :
    ∃ d', change d p display (fun t => .ok (Lines.splice before after content t)) answer = (d', .ok answer) ∧
      d'.readText p = .ok (Lines.splice before after content (Text.normalizeNewlines t)) ∧
      Displays d' p display ((Text.lines (Text.normalizeNewlines t)).take before ++ Text.lines content ++
        (Text.lines (Text.normalizeNewlines t)).drop after) := by
  have hplain : ∀ c ∈ Lines.splice before after content (Text.normalizeNewlines t),
      c.isSurrogate = false ∧ c ≠ CodePoint.ofChar '\r' := by
    intro c hc
    rcases Lines.mem_splice hc with hc | hc | hc
    · exact normalized_char text (Or.inl hc)
    · exact plain c hc
    · exact normalized_char text (Or.inr hc)
  obtain ⟨d', -, hchange, hrewritten⟩ := change_ok (fun t => .ok (Lines.splice before after content t)) file text rfl
    (fun c hc => (hplain c hc).1) display answer
  obtain ⟨written, hread, hdecode, hsame⟩ := hrewritten.read fun hm => (hplain _ hm).2 rfl
  have hshown := displays_of_decode hread hdecode display
  have htext := readText_of_decode hread hdecode
  rw [hsame] at hshown htext
  rw [Lines.lines_splice] at hshown
  exact ⟨d', hchange, htext, hshown⟩

theorem replaceLines_eq_change (there : requireFile d p display = .ok ()) (hfirst : 1 ≤ first) (hlast : first ≤ last)
    (content : Text) :
    ∃ answer, replaceLines d p first last content display =
      change d p display (fun t => .ok (Lines.splice (first - 1) last content t)) answer := by
  refine ⟨"Replaced lines " ++ Text.ofNat first ++ "-" ++ Text.ofNat last ++ " in " ++ display, ?_⟩
  simp only [replaceLines, there, Nat.not_lt.mpr hlast, ↓reduceIte, Lines.replace_eq_splice hfirst hlast]

theorem insertCode_eq_change (d : Disk) (p : Path) (line : Nat) (content display : Text) :
    ∃ answer, insertCode d p line content display =
      change d p display (fun t => .ok (Lines.splice line line content t)) answer := ⟨_, rfl⟩

/-- Edits that name lines mean the lines that reading the file has shown: what is shown next are those lines with
the content in place of the named ones, or behind the named one. Lines put in their own place change nothing. -/
theorem line_edits_follow_numbers (file : d.readBytes p = .ok bytes) (text : Utf8.decode bytes = .ok t)
    (plain : looksBinary bytes = false) (display : Text) :
    ∃ shown L, show_ d p display = .ok shown ∧ Lines.Shows shown L ∧ Text.unlines L = Text.normalizeNewlines t ∧
      (∀ first last content, 1 ≤ first → first ≤ last → CodePoint.ofChar '\r' ∉ content → Utf8.Encodable content →
        ∃ d' answer, replaceLines d p first last content display = (d', .ok answer) ∧
          Displays d' p display (L.take (first - 1) ++ Text.lines content ++ L.drop last)) ∧
      (∀ line content, CodePoint.ofChar '\r' ∉ content → Utf8.Encodable content →
        ∃ d' answer, insertCode d p line content display = (d', .ok answer) ∧
          Displays d' p display (L.take line ++ Text.lines content ++ L.drop line)) ∧
      (∀ first last, 1 ≤ first → first ≤ last → last ≤ L.length →
        ∃ d' answer, replaceLines d p first last (Text.unlines ((L.take last).drop (first - 1))) display =
          (d', .ok answer) ∧ d'.readText p = d.readText p) := by
  have hread := readText_of_decode file text
  have hthere := requireFile_of_readText hread display
  obtain ⟨_, hbytes, hshow⟩ := displays_of_decode file text display
  rw [file] at hbytes
  cases hbytes
  obtain ⟨shown, hshown, hlines⟩ := hshow plain
  refine ⟨shown, _, hshown, hlines, Text.unlines_lines _, ?_, ?_, ?_⟩
  · intro first last content hfirst hlast hr hc
    obtain ⟨answer, hreplace⟩ := replaceLines_eq_change hthere hfirst hlast content
    obtain ⟨d', hchange, -, hd'⟩ := change_splice file text (fun c hm => ⟨hc c hm, fun he => hr (he ▸ hm)⟩)
      (first - 1) last display answer
    exact ⟨d', answer, hreplace.trans hchange, hd'⟩
  · intro line content hr hc
    obtain ⟨answer, hinsert⟩ := insertCode_eq_change d p line content display
    obtain ⟨d', hchange, -, hd'⟩ := change_splice file text (fun c hm => ⟨hc c hm, fun he => hr (he ▸ hm)⟩)
      line line display answer
    exact ⟨d', answer, hinsert.trans hchange, hd'⟩
  · intro first last hfirst hlast hlength
    have hown : ∀ c ∈ Text.unlines (((Text.lines (Text.normalizeNewlines t)).take last).drop (first - 1)),
        c.isSurrogate = false ∧ c ≠ CodePoint.ofChar '\r' := by
      intro c hc
      apply normalized_char text
      rcases Text.mem_joinWith hc with hc | ⟨line, hline, hc⟩
      · exact Or.inl (List.mem_singleton.mp hc)
      · exact Or.inr (Text.subset_of_mem_splitOn (List.mem_of_mem_take (List.mem_of_mem_drop hline)) hc)
    obtain ⟨answer, hreplace⟩ := replaceLines_eq_change hthere hfirst hlast _
    obtain ⟨d', hchange, hd', -⟩ := change_splice file text hown (first - 1) last display answer
    refine ⟨d', answer, hreplace.trans hchange, ?_⟩
    rw [hd', hread, Lines.splice_own (by omega) hlength]

/-- The lines past the end are passed over, and the content brings two. -/
theorem second_line_replaced : ∃ d' answer,
    replaceLines twoLines (Transaction.topLevel "a") 2 9 "u\nv" "a" = (d', .ok answer) ∧
      Displays d' (Transaction.topLevel "a") "a" ["x", "u", "v"] := by
  obtain ⟨shown, L, hshown, hlines, -, hreplace, -, -⟩ :=
    line_edits_follow_numbers twoLines_file twoLines_text (by decide) "a"
  have hfile : show_ twoLines (Transaction.topLevel "a") "a" = .ok "1: x\n2: y" := by cbv
  rw [hfile] at hshown
  cases hshown
  have htwo : Lines.Shows "1: x\n2: y" [Text.ofString "x", "y"] := by
    unfold Lines.Shows
    cbv
  obtain rfl := hlines.unique htwo
  exact hreplace 2 9 "u\nv" (by decide) (by decide) (by decide) (by unfold Utf8.Encodable; decide)

end FileTool
end CodeAgent
