import CodeAgent.Host.Usual
import CodeAgent.Proofs.Index.Confined

namespace CodeAgent.SemanticIndex
open Source Disk

variable {e : Embedder} {ix ix' : SemanticIndex} {d : Disk} {s : Store} {p : Path} {name source given : Text}
variable {file : List Stmt} {c : Chunk} {r : StoredChunk} {persist : Bool} {step : IndexStep IndexOutcome}

def sentTexts (ix ix' : SemanticIndex) : List Text := (ix'.asked.drop ix.asked.length).flatten

/-- A text was sent that is the text of a chunk that the store had of the file. -/
def Resends (ix ix' : SemanticIndex) (name : Text) : Prop :=
  ∃ t ∈ sentTexts ix ix', ∃ r ∈ ix.store.recordsFor name, r.chunk.text = t

/-- The text of a file that is parsed and chunked: it was read, and the store does not have its digest. -/
structure Renews [Host] (d : Disk) (ix : SemanticIndex) (name source : Text) (file : List Stmt) : Prop where
  read : readSource d (ix.root.join (Path.ofText name)) = .text source
  new : ix.store.hash? name ≠ some (hashText source)
  parsed : parse .loop source = .ok file

/-- A chunk of the file with a text of this digest starts on the line of this chunk. -/
def Stays (s : Store) (name : Text) (c : Chunk) : Prop :=
  ∃ r ∈ s.recordsFor name, r.chunk.startLine = c.startLine ∧ hashText r.chunk.text = hashText c.text

theorem sentTexts_self (h : ix'.asked = ix.asked) : sentTexts ix ix' = [] := by
  unfold sentTexts
  rw [h, List.drop_length]
  rfl

theorem sentTexts_sending (ix : SemanticIndex) (name source : Text) (file : List Stmt) :
    sentTexts ix (ix.sending name source file) = (fresh ix.store name source file).map (·.text) := by
  unfold sentTexts sending
  rw [List.drop_left, flatten_batches]

theorem removeFile_asked (d : Disk) (ix : SemanticIndex) (p : Path) (persist : Bool) :
    (ix.removeFile d p persist).index.asked = ix.asked := by
  unfold removeFile removeNamed
  split
  · rfl
  · dsimp only
    rw [settle_index]
    rfl

/-- Of a text that is parsed and chunked the fresh chunks are sent. -/
theorem Updated.sent [Host] {result : Except IndexFault IndexOutcome} (h : Updated e ix name source ix' result)
    (hnew : ix.store.hash? name ≠ some (hashText source)) (hp : parse .loop source = .ok file) :
    sentTexts ix ix' = (fresh ix.store name source file).map (·.text) := by
  cases h with
  | unchanged known => exact absurd known hnew
  | malformed _ unparsed =>
    obtain ⟨fault, hfault, -⟩ := unparsed
    rw [hp] at hfault
    cases hfault
  | gaveUp _ reason nested =>
    rw [hp] at nested
    cases nested
  | refused _ _ parsed =>
    rw [hp] at parsed
    cases parsed
    exact sentTexts_sending ix name source file
  | brought _ _ parsed =>
    rw [hp] at parsed
    cases parsed
    exact sentTexts_sending ix name source file

theorem Updated.sent_cases [Host] {result : Except IndexFault IndexOutcome} (h : Updated e ix name source ix' result) :
    sentTexts ix ix' = [] ∨ ix.store.hash? name ≠ some (hashText source) ∧ ∃ file, parse .loop source = .ok file := by
  cases h with
  | unchanged => exact Or.inl (sentTexts_self rfl)
  | malformed => exact Or.inl (sentTexts_self rfl)
  | gaveUp => exact Or.inl (sentTexts_self rfl)
  | refused new file parsed => exact Or.inr ⟨new, file, parsed⟩
  | brought new file parsed => exact Or.inr ⟨new, file, parsed⟩

/-- Where a file is renewed exactly its fresh texts are sent. -/
theorem Filed.sent [Host] (h : Filed e d ix name persist step) (hr : Renews d ix name source file) :
    sentTexts ix step.index = (fresh ix.store name source file).map (·.text) := by
  obtain ⟨hread, hnew, hp⟩ := hr
  cases h with
  | removed gone =>
    rw [hread] at gone
    cases gone
  | unreadable closed =>
    rw [hread] at closed
    cases closed
  | refused fault closed =>
    rw [hread] at closed
    cases closed
  | failed source' read ix' fault hupdate =>
    rw [hread] at read
    cases read
    exact hupdate.sent hnew hp
  | settled source' read ix' outcome hupdate =>
    rw [hread] at read
    cases read
    rw [settle_index]
    exact hupdate.sent hnew hp

/-- Nothing is sent, or the file is renewed. -/
theorem Filed.sent_cases [Host] (h : Filed e d ix name persist step) :
    sentTexts ix step.index = [] ∨ ∃ source file, Renews d ix name source file := by
  cases h with
  | removed => exact Or.inl (sentTexts_self (removeFile_asked d ix _ persist))
  | unreadable => exact Or.inl (sentTexts_self rfl)
  | refused => exact Or.inl (sentTexts_self rfl)
  | failed source read ix' fault hupdate =>
    refine hupdate.sent_cases.imp_right fun h => ?_
    obtain ⟨hnew, file, hp⟩ := h
    exact ⟨source, file, read, hnew, hp⟩
  | settled source read ix' outcome hupdate =>
    rw [settle_index]
    refine hupdate.sent_cases.imp_right fun h => ?_
    obtain ⟨hnew, file, hp⟩ := h
    exact ⟨source, file, read, hnew, hp⟩

/-- Id and hash say no more than line and digest. -/
theorem mem_fresh_iff (hs : s.Keyed) :
    c ∈ fresh s name source file ↔ c ∈ chunks name source file ∧ ¬ Stays s name c := by
  unfold fresh Stays
  rw [mem_freshChunks, and_congr_right_iff]
  intro hc
  obtain ⟨hid, hhash⟩ := keyed_of_mem_chunks hc
  rw [not_iff_not]
  constructor
  · intro h
    obtain ⟨r, hr, hsameId, hsameHash⟩ := h
    obtain ⟨hstored, -⟩ := Store.mem_recordsFor.mp hr
    refine ⟨r, hr, ?_, ?_⟩
    · rw [hs.id r hstored, hid] at hsameId
      exact (chunkId_inj hsameId).2
    · rw [← hs.hash r hstored, hsameHash, hhash]
  · intro h
    obtain ⟨r, hr, hline, hdigest⟩ := h
    obtain ⟨hstored, hpath⟩ := Store.mem_recordsFor.mp hr
    refine ⟨r, hr, ?_, ?_⟩
    · rw [hs.id r hstored, hid, hpath, hline]
    · rw [hs.hash r hstored, hdigest, hhash]

/-- The text of a chunk that does not stay is sent, whether it is stored on another line or not. -/
theorem resends_of_moved [Host] (h : ix.Reachable) (e : Embedder) (hn : ix.relative d p = .ok name) (persist : Bool)
    (hr : Renews d ix name source file) (hc : c ∈ chunks name source file) (hrecord : r ∈ ix.store.recordsFor name)
    (htext : r.chunk.text = c.text) (hmoved : ¬ Stays ix.store name c) :
    Resends ix (ix.indexFile e d p persist).index name := by
  refine ⟨c.text, ?_, r, hrecord, htext⟩
  rw [(filed e hn persist).sent hr]
  exact List.mem_map_of_mem ((mem_fresh_iff h.orderly.keyed).mpr ⟨hc, hmoved⟩)

/-- Indexing a file sends no text again just if every chunk with a text that is stored for the file stays on a line
where a stored chunk with the digest of the text starts. -/
theorem sends_anew_iff [Host] (h : ix.Reachable) (e : Embedder) (hn : ix.relative d (Path.ofText given) = .ok name)
    (persist : Bool) :
    ¬ Resends ix (ix.indexFile e d (Path.ofText given) persist).index name ↔
      ∀ source file, Renews d ix name source file → ∀ c ∈ chunks name source file,
        (∃ r ∈ ix.store.recordsFor name, r.chunk.text = c.text) → Stays ix.store name c := by
  constructor
  · intro hanew source file hr c hc hheld
    obtain ⟨r, hrecord, htext⟩ := hheld
    by_contra hmoved
    exact hanew (resends_of_moved h e hn persist hr hc hrecord htext hmoved)
  · intro hstays hresends
    have hfiled := filed e hn persist
    obtain ⟨t, ht, r, hrecord, rfl⟩ := hresends
    obtain hnone | ⟨source, file, hr⟩ := hfiled.sent_cases
    · rw [hnone] at ht
      cases ht
    · rw [hfiled.sent hr] at ht
      obtain ⟨c, hc, htext⟩ := List.mem_map.mp ht
      obtain ⟨hchunk, hmoved⟩ := (mem_fresh_iff h.orderly.keyed).mp hc
      exact hmoved (hstays source file hr c hchunk ⟨r, hrecord, htext.symm⟩)

attribute [local instance] Host.usual

/-- Of the renamed class only the class itself is sent: the text of its method is stored, and stays on its line. -/
theorem renamed_sends_anew :
    (newIndex.after blank renamedVisits).Reachable ∧
    (newIndex.after blank renamedVisits).relative renamedDisk (Path.ofText "a.py") = .ok "a.py" ∧
    ¬ Resends (newIndex.after blank renamedVisits)
      ((newIndex.after blank renamedVisits).indexFile blank renamedDisk (Path.ofText "a.py") false).index "a.py" := by
  have hnamed := renamed_named
  refine ⟨renamed_reachable, hnamed, (sends_anew_iff renamed_reachable blank hnamed false).mpr ?_⟩
  intro source file hr c hc hheld
  obtain ⟨file', hp, hdefinitions⟩ := parse_classText "B" mem_classNames.2
  obtain rfl := classText_of_readText mem_classNames.2 (readText_of_readSource hr.read)
  rw [hr.parsed] at hp
  cases hp
  rw [chunks_classText mem_classNames.2 hdefinitions] at hc
  unfold Stays
  rw [renamed_held] at hheld ⊢
  rcases List.mem_cons.mp hc with rfl | hc
  · have hothers : classText "A" ≠ classText "B" ∧ methodText ≠ classText "B" := by decide
    obtain ⟨r, hrecord, htext⟩ := hheld
    simp only [classChunks, List.map_cons, List.map_nil, List.mem_cons, List.not_mem_nil, or_false] at hrecord
    rcases hrecord with rfl | rfl
    · exact absurd htext hothers.1
    · exact absurd htext hothers.2
  · obtain rfl := List.mem_singleton.mp hc
    exact ⟨⟨_, []⟩, List.mem_map_of_mem (List.mem_cons_of_mem _ List.mem_cons_self), rfl, rfl⟩

def functionText : Text := "def f():0"

def functionAfter (lines : Nat) : Text := List.replicate lines Text.newline ++ functionText

def functionChunk (lines : Nat) : Chunk :=
  ⟨chunkId "a.py" (lines + 1), "a.py", "function", "f", functionText, lines + 1, lines + 1, hashText functionText⟩

theorem parse_functionAfter : ∀ lines ∈ [0, 1], ∃ file, parse .loop (functionAfter lines) = .ok file ∧
    definitions file = [⟨.function, "f", lines + 1, lines + 1⟩] := by
  have hparse : ∀ lines ∈ [0, 1], (parse .loop (functionAfter lines)).toOption.map (·.flatMap Stmt.definitions) =
      some [⟨.function, "f", lines + 1, lines + 1⟩] := by
    decide +kernel
  exact fun lines hlines => parse_defining (hparse lines hlines) (by simp)

theorem chunks_functionAfter {lines : Nat} {file : List Stmt} (hlines : lines ∈ [0, 1])
    (h : definitions file = [⟨.function, "f", lines + 1, lines + 1⟩]) :
    chunks "a.py" (functionAfter lines) file = [functionChunk lines] := by
  have htext : ∀ lines ∈ [0, 1],
      Text.unlines (((Text.lines (functionAfter lines)).take (lines + 1)).drop lines) = functionText := by
    decide
  unfold chunks
  rw [h]
  simp only [List.map_cons, List.map_nil, firstOfEach, List.filter_nil, Definition.chunk, Nat.add_sub_cancel,
    htext lines hlines]
  rfl

theorem functionAfter_stands {lines : Nat} {file : List Stmt} (hlines : lines ∈ [0, 1])
    (hp : parse .loop (functionAfter lines) = .ok file) :
    Version.Stands (oneModule (functionAfter lines)) newIndex (Path.ofText "a.py")
      ⟨"a.py", functionAfter lines, file⟩ := by
  have hfound : ∀ lines ∈ [0, 1],
      newIndex.relative (oneModule (functionAfter lines)) (Path.ofText "a.py") = .ok "a.py" ∧
      (oneModule (functionAfter lines)).readText ⟨"/", ["w", "a.py"]⟩ = .ok (functionAfter lines) := by
    intro lines hlines
    rcases List.mem_cons.mp hlines with rfl | hlines
    · exact ⟨by cbv, by cbv⟩
    · obtain rfl := List.mem_singleton.mp hlines
      exact ⟨by cbv, by cbv⟩
  obtain ⟨hnamed, hread⟩ := hfound lines hlines
  exact ⟨hnamed, readSource_of_readText hread, hp⟩

def movedVisits : List Visit := [⟨oneModule (functionAfter 0), .indexFile "a.py" false⟩]

def movedDisk : Disk := oneModule (functionAfter 1)

/-- Before the move the store has one record of the function. -/
theorem moved_before :
    (newIndex.after blank movedVisits).root = newIndex.root ∧
    (newIndex.after blank movedVisits).store.hash? "a.py" = some (hashText (functionAfter 0)) ∧
    (newIndex.after blank movedVisits).store.recordsFor "a.py" = [⟨functionChunk 0, []⟩] := by
  obtain ⟨file, hp, hdefinitions⟩ := parse_functionAfter 0 (by decide)
  obtain ⟨ix, outcome, hrun, -, -, hroot, -, hstore⟩ :=
    indexFile_answers blank_answers (functionAfter_stands (by decide) hp)
  have hafter : newIndex.after blank movedVisits = ix := congrArg IndexStep.index hrun
  have hbrought : ix.store = replaced (fun _ => []) {} "a.py" (functionAfter 0) [functionChunk 0] := by
    rw [hstore, ← chunks_functionAfter (by decide) hdefinitions]
    change brought (fun _ => []) {} "a.py" (functionAfter 0) file = _
    exact if_neg (by simp [Store.hash?, Table.get?])
  rw [hafter, hbrought]
  refine ⟨hroot, (hash?_replaced _).trans (if_pos rfl), ?_⟩
  simp [replaced, replaceChunks, freshChunks, vanishedIds, holds, functionChunk, Store.recordsFor, Store.upsert,
    Store.upsertOne, Store.delete, Store.setHash]

/-- A function that only moved down a line is sent to the embedding service again. -/
theorem moved_function_sent_again :
    (newIndex.after blank movedVisits).Reachable ∧ OneEach blank ∧
    (newIndex.after blank movedVisits).relative movedDisk (Path.ofText "a.py") = .ok "a.py" ∧
    Resends (newIndex.after blank movedVisits)
      ((newIndex.after blank movedVisits).indexFile blank movedDisk (Path.ofText "a.py") false).index "a.py" := by
  obtain ⟨file, hp, hdefinitions⟩ := parse_functionAfter 1 (by decide)
  obtain ⟨hroot, hhash, hrecords⟩ := moved_before
  have hreachable := newIndex_reachable.after blank movedVisits
  have hstands : Version.Stands movedDisk newIndex (Path.ofText "a.py") ⟨"a.py", functionAfter 1, file⟩ :=
    functionAfter_stands (by decide) hp
  obtain ⟨hnamed, hread, -⟩ := hstands.congr hroot
  dsimp only at hnamed hread
  have hrenews : Renews movedDisk (newIndex.after blank movedVisits) "a.py" (functionAfter 1) file := by
    refine ⟨hread, ?_, hp⟩
    have hne : hashText (functionAfter 0) ≠ hashText (functionAfter 1) := by decide +kernel
    rw [hhash]
    exact fun he => hne (Option.some.inj he)
  refine ⟨hreachable, blank_oneEach, hnamed, ?_⟩
  have hchunk : functionChunk 1 ∈ chunks "a.py" (functionAfter 1) file := by
    rw [chunks_functionAfter (by decide) hdefinitions]
    exact List.mem_cons_self
  have hrecord : ⟨functionChunk 0, []⟩ ∈ (newIndex.after blank movedVisits).store.recordsFor "a.py" := by
    rw [hrecords]
    exact List.mem_cons_self
  apply resends_of_moved hreachable blank hnamed false hrenews hchunk hrecord rfl
  intro hstays
  obtain ⟨r, hr, hline, -⟩ := hstays
  rw [hrecords] at hr
  obtain rfl := List.mem_singleton.mp hr
  cases hline

end CodeAgent.SemanticIndex
