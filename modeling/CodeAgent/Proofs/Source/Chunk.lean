import CodeAgent.Proofs.Source.Lexer
import CodeAgent.Proofs.Source.Statement
import CodeAgent.Proofs.Text.Lines

namespace CodeAgent.Source

theorem ofChar_of_char? {c : CodePoint} {ch : Char} (h : c.char? = some ch) : CodePoint.ofChar ch = c := by
  unfold CodePoint.char? at h
  split at h
  · rename_i hv
    cases h
    have hn : (Char.ofNatAux c.val hv).toNat = c.val := rfl
    obtain ⟨val, hlt⟩ := c
    simp only [CodePoint.ofChar, hn]
  · cases h

theorem map_ofChar_of_toChars? {t : Text} {cs : List Char} (h : Text.toChars? t = some cs) :
    cs.map CodePoint.ofChar = t := by
  induction t generalizing cs with
  | nil =>
    cases h
    rfl
  | cons c r ih =>
    rw [Text.toChars?, List.mapM_cons] at h
    obtain ⟨ch, hc, hrest⟩ := Option.bind_eq_some_iff.mp h
    obtain ⟨chs, hr, hcs⟩ := Option.bind_eq_some_iff.mp hrest
    cases hcs
    rw [List.map_cons, ofChar_of_char? hc, ih hr]

/-- The tokens of a file stand on its lines. -/
theorem countLines_le {source : Text} {cs : List Char} (hr : ∀ c ∈ source, c.val ≠ 13)
    (h : Text.toChars? source = some cs) :
    Lexer.countLines (Lexer.normalize cs) ≤ (Text.lines source).length := by
  have hmap := map_ofChar_of_toChars? h
  subst hmap
  have hreturn : '\r' ∉ cs := fun hm => hr _ (List.mem_map_of_mem hm) rfl
  have hcount : List.count Text.newline (cs.map CodePoint.ofChar) = Lexer.countLines cs := by
    rw [List.count_eq_length_filter, List.filter_map, List.length_map, Lexer.countLines]
    congr 2
    funext c
    rw [Bool.eq_iff_iff, Function.comp_apply, beq_iff_eq, decide_eq_true_eq]
    exact ⟨Text.ofChar_injective, congrArg CodePoint.ofChar⟩
  rw [Text.lines, Text.length_splitOn, hcount]
  exact Lexer.normalize_countLines hreturn

/-- A chunk of a file: its id says where it starts, and how many lines its text has says where it ends. -/
structure Chunk.Coherent (path : Text) (c : Chunk) : Prop where
  id : c.id = chunkId path c.startLine
  path : c.path = path
  hash : c.hash = hashText c.text
  last : c.endLine = c.startLine - 1 + (Text.lines c.text).length

/-- The chunk of a definition within its file agrees with its lines. -/
theorem Definition.Within.coherent {path source : Text} {d : Definition}
    (h : d.Within (Text.lines source).length) : (d.chunk path (Text.lines source)).Coherent path := by
  refine ⟨rfl, rfl, rfl, ?_⟩
  have hlength : (((Text.lines source).take d.endLine).drop (d.startLine - 1)).length =
      d.endLine - (d.startLine - 1) := by
    rw [List.length_drop, List.length_take, Nat.min_eq_left h.last]
  have hpos : d.startLine - 1 < d.endLine := by
    have hordered := h.ordered
    have hfirst := h.first
    omega
  have hlines : Text.lines (d.chunk path (Text.lines source)).text =
      ((Text.lines source).take d.endLine).drop (d.startLine - 1) := by
    refine Text.lines_unlines ?_ ?_
    · intro l hl
      exact Text.not_mem_of_mem_splitOn (List.mem_of_mem_take (List.mem_of_mem_drop hl))
    · rw [← List.length_pos_iff, hlength]
      omega
  rw [hlines, hlength]
  change d.endLine = d.startLine - 1 + (d.endLine - (d.startLine - 1))
  omega

theorem wholeChunk_coherent (path source : Text) : (wholeChunk path source).Coherent path :=
  ⟨rfl, rfl, rfl, by simp [wholeChunk]⟩

theorem firstOfEach_sublist (cs : List Chunk) : (firstOfEach cs).Sublist cs := by
  induction cs with
  | nil => exact List.Sublist.slnil
  | cons c rest ih => exact (List.filter_sublist.trans ih).cons_cons c

theorem nodup_firstOfEach (cs : List Chunk) : ((firstOfEach cs).map (·.id)).Nodup := by
  induction cs with
  | nil => exact List.nodup_nil
  | cons c rest ih =>
    rw [firstOfEach, List.map_cons, List.nodup_cons]
    refine ⟨?_, ih.sublist (List.filter_sublist.map _)⟩
    intro hm
    obtain ⟨d, hd, he⟩ := List.mem_map.mp hm
    exact of_decide_eq_true (List.mem_filter.mp hd).2 he

theorem path_of_mem_chunks {path source : Text} {file : List Stmt} {c : Chunk} (h : c ∈ chunks path source file) :
    c.path = path := by
  unfold chunks at h
  split at h
  · split at h
    · cases h
    · rw [List.mem_singleton.mp h]
      rfl
  · obtain ⟨d, -, rfl⟩ := List.mem_map.mp ((firstOfEach_sublist _).subset h)
    rfl

/-- A file has one chunk for an id. -/
theorem nodup_chunks (path source : Text) (file : List Stmt) :
    ((chunks path source file).map (·.id)).Nodup := by
  unfold chunks
  split
  · split
    · exact List.nodup_nil
    · exact List.nodup_cons.mpr ⟨List.not_mem_nil, List.nodup_nil⟩
  · exact nodup_firstOfEach _

theorem chunkId_inj {path path' : Text} {line line' : Nat} (h : chunkId path line = chunkId path' line') :
    path = path' ∧ line = line' := by
  have hcolon (n : Nat) : CodePoint.ofChar ':' ∉ Text.ofNat n := Text.not_mem_ofNat (by decide) n
  have hsplit (p : Text) (n : Nat) : chunkId p n = p ++ CodePoint.ofChar ':' :: Text.ofNat n := by
    rw [chunkId, List.append_assoc]
    rfl
  rw [hsplit, hsplit] at h
  obtain ⟨hp, hl⟩ := Text.append_sep_inj (hcolon line) (hcolon line') h
  exact ⟨hp, Text.ofNat_injective hl⟩

def Chunk.unlabelled (c : Chunk) : Chunk := { c with kind := [], name := [] }

/-- Chunks with one id and one text differ in kind and name at most. -/
theorem Chunk.Coherent.unlabelled_eq {path path' : Text} {c c' : Chunk} (h : c.Coherent path)
    (h' : c'.Coherent path') (hid : c.id = c'.id) (ht : c.text = c'.text) : c.unlabelled = c'.unlabelled := by
  obtain ⟨id, path₁, kind, name, text, startLine, endLine, hash⟩ := c
  obtain ⟨id', path₂, kind', name', text', startLine', endLine', hash'⟩ := c'
  obtain ⟨h1, h2, h3, h4⟩ := h
  obtain ⟨h1', h2', h3', h4'⟩ := h'
  dsimp only at *
  subst hid ht h2 h2' h3 h3'
  obtain ⟨rfl, rfl⟩ := chunkId_inj (h1.symm.trans h1')
  rw [h4, h4']
  rfl

variable [Host]

/-- A file that is read is made of the tokens of its text. -/
theorem parse_tokens {stack : Stack} {source : Text} {file : List Stmt} (h : parse stack source = .ok file) :
    ∃ cs tokens, Text.toChars? source = some cs ∧ Lexer.tokens? cs = some tokens ∧ fileOf tokens = some file := by
  unfold parse at h
  split at h
  · cases h
  rename_i cs hcs
  split at h
  · cases h
  split at h
  · cases h
  split at h
  · rename_i hp
    cases h
    obtain ⟨tokens, ht, hfile⟩ := Option.bind_eq_some_iff.mp hp
    split at hfile
    · exact ⟨cs, tokens, hcs, ht, hfile⟩
    · cases hfile
  · cases h

/-- A text that cannot be parsed. It is read to where that is found. -/
def Unparsed (stack : Stack) (source : Text) : Prop :=
  ∃ fault, parse stack source = .error fault ∧ ∀ reason, fault ≠ .overNested reason

theorem parse_not_overNested {stack : Stack} {source reason : Text} (h : Host.overNested? stack source = none) :
    parse stack source ≠ .error (.overNested reason) := by
  unfold parse
  split
  · nofun
  split
  · nofun
  rw [h]
  dsimp only
  split <;> nofun

def Fits (source : Text) : Prop := ∀ stack, Host.overNested? stack source = none

/-- A text is a file with the definitions that are computed of it, if these are in order. -/
theorem parse_defining {stack : Stack} {source : Text} {ds : List Definition}
    (h : (parse stack source).toOption.map (·.flatMap Stmt.definitions) = some ds)
    (hsorted : ds.Pairwise fun a b => a.startLine ≤ b.startLine) :
    ∃ file, parse stack source = .ok file ∧ definitions file = ds := by
  obtain ⟨file, hfile, rfl⟩ := Option.map_eq_some_iff.mp h
  refine ⟨file, ?_, List.mergeSort_of_pairwise (hsorted.imp decide_eq_true)⟩
  cases hp : parse stack source with
  | error fault => simp [hp, Except.toOption] at hfile
  | ok file' => simpa [hp, Except.toOption] using hfile

theorem parse_within {stack : Stack} {source : Text} {file : List Stmt} (hr : ∀ c ∈ source, c.val ≠ 13)
    (h : parse stack source = .ok file) :
    ∀ d ∈ definitions file, d.Within (Text.lines source).length := by
  obtain ⟨cs, tokens, hcs, ht, hfile⟩ := parse_tokens h
  have hordered := (Lexer.tokens_ordered ht).mono (countLines_le hr hcs)
  exact definitions_within ((Stmt.kept_within _).fileOf hordered hfile)

theorem chunks_coherent {stack : Stack} {path source : Text} {file : List Stmt} (hr : ∀ c ∈ source, c.val ≠ 13)
    (h : parse stack source = .ok file) : ∀ c ∈ chunks path source file, c.Coherent path := by
  have hwithin := parse_within hr h
  intro c hc
  unfold chunks at hc
  split at hc
  · split at hc
    · cases hc
    · rw [List.mem_singleton] at hc
      exact hc ▸ wholeChunk_coherent path source
  · obtain ⟨d, hd, rfl⟩ := List.mem_map.mp ((firstOfEach_sublist _).subset hc)
    exact (hwithin d hd).coherent

end CodeAgent.Source
