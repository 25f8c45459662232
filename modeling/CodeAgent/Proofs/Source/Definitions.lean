import CodeAgent.Host.Usual
import CodeAgent.Proofs.Source.Chunk

namespace CodeAgent.Source

variable {className name path source : Text} {kind : DefinitionKind} {l : Lines} {body body' file : List Stmt}
variable {d : Definition} {c : Chunk} {cs : List Chunk} {n : Nat}

/-- What a class defines inside: its methods, the classes in it, and what those define inside. -/
inductive Inside : Text → List Stmt → DefinitionKind → Text → Lines → Prop where
  | method {className name : Text} {body inner : List Stmt} {l : Lines} (here : Stmt.function name l inner ∈ body) :
      Inside className body .method (className ++ "." ++ name) l
  | nested {className name : Text} {body inner : List Stmt} {l : Lines} (here : Stmt.classDef name l inner ∈ body) :
      Inside className body .classDef name l
  | deeper {className inClass name : Text} {body inner : List Stmt} {outer l : Lines} {kind : DefinitionKind}
      (here : Stmt.classDef inClass outer inner ∈ body) (inside : Inside inClass inner kind name l) :
      Inside className body kind name l

/-- What a file defines: the functions, the names bound to a lambda and the classes at its top level, and what the
classes define inside. -/
inductive Defines (file : List Stmt) : DefinitionKind → Text → Lines → Prop where
  | function {name : Text} {body : List Stmt} {l : Lines} (here : Stmt.function name l body ∈ file) :
      Defines file .function name l
  | binding {names : List Text} {name : Text} {l : Lines} (here : Stmt.bindLambda names l ∈ file)
      (bound : name ∈ names) : Defines file .constant name l
  | classDef {name : Text} {body : List Stmt} {l : Lines} (here : Stmt.classDef name l body ∈ file) :
      Defines file .classDef name l
  | member {className name : Text} {body : List Stmt} {outer l : Lines} {kind : DefinitionKind}
      (here : Stmt.classDef className outer body ∈ file) (inside : Inside className body kind name l) :
      Defines file kind name l

theorem Inside.mono (h : Inside className body kind name l) (hs : body ⊆ body') :
    Inside className body' kind name l := by
  cases h with
  | method here => exact .method (hs here)
  | nested here => exact .nested (hs here)
  | deeper here inside => exact .deeper (hs here) inside

theorem classMembers_eq_flatMap (className : Text) (body : List Stmt) :
    classMembers className body = body.flatMap (member className) := by
  induction body with
  | nil => rfl
  | cons s rest ih => rw [classMembers, ih, List.flatMap_cons]

mutual
theorem inside_of_mem (className : Text) : (body : List Stmt) → d ∈ classMembers className body →
    ∃ kind name l, Inside className body kind name l ∧ d = .ofLines kind name l
  | [], h => by simp [classMembers] at h
  | s :: rest, h => by
    rw [classMembers, List.mem_append] at h
    rcases h with h | h
    · obtain ⟨kind, name, l, hinside, hd⟩ := inside_of_mem_member className s h
      exact ⟨kind, name, l, hinside.mono (by simp), hd⟩
    · obtain ⟨kind, name, l, hinside, hd⟩ := inside_of_mem className rest h
      exact ⟨kind, name, l, hinside.mono (List.subset_cons_self s rest), hd⟩

/-- What is found in a class stands inside it. -/
theorem inside_of_mem_member (className : Text) : (s : Stmt) → d ∈ member className s →
    ∃ kind name l, Inside className [s] kind name l ∧ d = .ofLines kind name l
  | .function name l inner, h => by
    rw [member, List.mem_singleton] at h
    exact ⟨_, _, l, .method List.mem_cons_self, h⟩
  | .classDef name l inner, h => by
    rw [member, List.mem_cons] at h
    rcases h with h | h
    · exact ⟨_, _, l, .nested List.mem_cons_self, h⟩
    · obtain ⟨kind, inName, l', hinside, hd⟩ := inside_of_mem name inner h
      exact ⟨kind, inName, l', .deeper List.mem_cons_self hinside, hd⟩
  | .importModules _, h => by simp [member] at h
  | .importFrom _ _ _, h => by simp [member] at h
  | .bindLambda _ _, h => by simp [member] at h
  | .block _, h => by simp [member] at h
  | .plain, h => by simp [member] at h
end

theorem Inside.mem_classMembers (h : Inside className body kind name l) :
    .ofLines kind name l ∈ classMembers className body := by
  induction h with
  | method here =>
    rw [classMembers_eq_flatMap]
    exact List.mem_flatMap_of_mem here (by simp [member])
  | nested here =>
    rw [classMembers_eq_flatMap]
    exact List.mem_flatMap_of_mem here (by simp [member])
  | deeper here inside ih =>
    rw [classMembers_eq_flatMap]
    apply List.mem_flatMap_of_mem here
    rw [member]
    exact List.mem_cons_of_mem _ ih

/-- What is found in a statement is defined by the file. -/
theorem defines_of_mem {s : Stmt} (hs : s ∈ file) (h : d ∈ s.definitions) :
    ∃ kind name l, Defines file kind name l ∧ d = .ofLines kind name l := by
  cases s with
  | function name l body =>
    rw [Stmt.definitions, List.mem_singleton] at h
    exact ⟨_, _, l, .function hs, h⟩
  | classDef name l body =>
    rw [Stmt.definitions, List.mem_cons] at h
    rcases h with h | h
    · exact ⟨_, _, l, .classDef hs, h⟩
    · obtain ⟨kind, inName, l', hinside, hd⟩ := inside_of_mem name body h
      exact ⟨kind, inName, l', .member hs hinside, hd⟩
  | bindLambda names l =>
    obtain ⟨name, hbound, hd⟩ := List.mem_map.mp h
    exact ⟨_, name, l, .binding hs hbound, hd.symm⟩
  | importModules _ => simp [Stmt.definitions] at h
  | importFrom _ _ _ => simp [Stmt.definitions] at h
  | block _ => simp [Stmt.definitions] at h
  | plain => simp [Stmt.definitions] at h

/-- What is found in a file is what the file defines. -/
theorem mem_definitions_iff :
    d ∈ definitions file ↔ ∃ kind name l, Defines file kind name l ∧ d = .ofLines kind name l := by
  rw [definitions, List.mem_mergeSort, List.mem_flatMap]
  constructor
  · intro ⟨s, hs, hd⟩
    exact defines_of_mem hs hd
  · intro ⟨kind, name, l, h, hd⟩
    subst hd
    cases h with
    | function here => exact ⟨_, here, by simp [Stmt.definitions]⟩
    | binding here bound => exact ⟨_, here, List.mem_map_of_mem bound⟩
    | classDef here => exact ⟨_, here, by simp [Stmt.definitions]⟩
    | member here inside => exact ⟨_, here, List.mem_cons_of_mem _ inside.mem_classMembers⟩

theorem definitions_sorted (file : List Stmt) : (definitions file).Pairwise fun a b => a.startLine ≤ b.startLine := by
  have hsorted : (definitions file).Pairwise fun a b => decide (a.startLine ≤ b.startLine) = true :=
    List.pairwise_mergeSort (fun a b c hab hbc => by simp only [decide_eq_true_eq] at *; omega)
      (fun a b => by simp only [Bool.or_eq_true, decide_eq_true_eq]; omega) _
  exact hsorted.imp of_decide_eq_true

/-- Of the chunks with one id, one is kept. -/
theorem exists_mem_firstOfEach (h : c ∈ cs) : ∃ c' ∈ firstOfEach cs, c'.id = c.id := by
  induction cs with
  | nil => cases h
  | cons first rest ih =>
    rw [firstOfEach]
    by_cases hid : c.id = first.id
    · exact ⟨first, List.mem_cons_self, hid.symm⟩
    · have hrest : c ∈ rest := (List.mem_cons.mp h).resolve_left fun he => hid (by rw [he])
      obtain ⟨c', hc', he⟩ := ih hrest
      refine ⟨c', List.mem_cons_of_mem _ (List.mem_filter.mpr ⟨hc', ?_⟩), he⟩
      simpa [he] using hid

/-- The lines of a definition, its decorators included, are lines of a text of `n` lines. -/
structure Lines.Placed (n : Nat) (l : Lines) : Prop where
  decorators : ∀ k ∈ l.decorators, 1 ≤ k
  first : 1 ≤ l.first
  ordered : l.first ≤ l.last
  last : l.last ≤ n

instance (n : Nat) (l : Lines) : Decidable (l.Placed n) :=
  decidable_of_iff ((∀ k ∈ l.decorators, 1 ≤ k) ∧ 1 ≤ l.first ∧ l.first ≤ l.last ∧ l.last ≤ n)
    ⟨fun h => ⟨h.1, h.2.1, h.2.2.1, h.2.2.2⟩, fun h => ⟨h.decorators, h.first, h.ordered, h.last⟩⟩

theorem Lines.Placed.one_le_start (h : l.Placed n) : 1 ≤ l.start := by
  have go (ks : List Nat) (k : Nat) (hk : 1 ≤ k) (hks : ∀ j ∈ ks, 1 ≤ j) : 1 ≤ ks.foldl min k := by
    induction ks generalizing k with
    | nil => exact hk
    | cons j ks ih =>
      obtain ⟨hj, hks⟩ := List.forall_mem_cons.mp hks
      exact ih (min k j) (Nat.le_min.mpr ⟨hk, hj⟩) hks
  exact go l.decorators l.first h.first h.decorators

theorem Lines.Placed.start_le_last (h : l.Placed n) : l.start ≤ l.last := (start_le_first l).trans h.ordered

/-- The lines of the definitions that a statement makes, also those in a class. -/
inductive Stmt.Bears : Stmt → Lines → Prop where
  | bindLambda {names : List Text} {l : Lines} (bound : names ≠ []) : Bears (.bindLambda names l) l
  | function {name : Text} {body : List Stmt} {l : Lines} : Bears (.function name l body) l
  | classDef {name : Text} {body : List Stmt} {l : Lines} : Bears (.classDef name l body) l
  | inClass {name : Text} {body : List Stmt} {outer l : Lines} {s : Stmt} (here : s ∈ body) (inside : s.Bears l) :
      Bears (.classDef name outer body) l

theorem Inside.bears (h : Inside className body kind name l) : ∃ s ∈ body, s.Bears l := by
  induction h with
  | method here => exact ⟨_, here, .function⟩
  | nested here => exact ⟨_, here, .classDef⟩
  | deeper here _ ih =>
    obtain ⟨s, hs, h⟩ := ih
    exact ⟨_, here, .inClass hs h⟩

theorem Defines.bears (h : Defines file kind name l) : ∃ s ∈ file, s.Bears l := by
  cases h with
  | function here => exact ⟨_, here, .function⟩
  | binding here bound => exact ⟨_, here, .bindLambda (List.ne_nil_of_mem bound)⟩
  | classDef here => exact ⟨_, here, .classDef⟩
  | member here inside =>
    obtain ⟨s, hs, h⟩ := inside.bears
    exact ⟨_, here, .inClass hs h⟩

/-- That definitions are on the lines of a text is kept from the parts of a statement to the whole. -/
theorem kept_on [Host] (n : Nat) : Stmt.Kept n fun s => ∀ l, s.Bears l → l.On n where
  plain := nofun
  block _ := nofun
  importModules _ := nofun
  importFrom _ _ _ _ := nofun
  bindLambda hl l h := by
    cases h with
    | bindLambda bound => exact hl bound
  function _ _ _ hl _ l h := by
    cases h with
    | function => exact hl
  classDef _ _ _ hl hbody l h := by
    cases h with
    | classDef => exact hl
    | inClass here inside => exact hbody _ here l inside

theorem Lines.On.placed (h : l.On n) (hstart : 1 ≤ l.start) : l.Placed n where
  decorators k hk := by
    have go (ks : List Nat) (j : Nat) (hk : k ∈ ks) : ks.foldl min j ≤ k := by
      induction ks generalizing j with
      | nil => cases hk
      | cons i ks ih =>
        rcases List.mem_cons.mp hk with rfl | hk
        · exact Nat.le_trans (start_le_first ⟨min j k, ks, 0⟩) (Nat.min_le_right j k)
        · exact ih (min j i) hk
    exact Nat.le_trans hstart (go l.decorators l.first hk)
  first := Nat.le_trans hstart (start_le_first l)
  ordered := h.ordered
  last := h.last

/-- In a file that was parsed every definition is placed that starts on a line. -/
theorem placed_of_parse [Host] {stack : Stack} (hr : ∀ c ∈ source, c.val ≠ 13) (h : parse stack source = .ok file)
    (hstart : ∀ d ∈ definitions file, 1 ≤ d.startLine) :
    ∀ kind name l, Defines file kind name l → l.Placed (Text.lines source).length := by
  intro kind name l hdefines
  obtain ⟨cs, tokens, hcs, ht, hfile⟩ := parse_tokens h
  have hordered := (Lexer.tokens_ordered ht).mono (countLines_le hr hcs)
  obtain ⟨s, hs, hbears⟩ := hdefines.bears
  have hon := (kept_on _).fileOf hordered hfile s hs l hbears
  exact hon.placed (hstart _ (mem_definitions_iff.mpr ⟨kind, name, l, hdefines, rfl⟩))

/-- A chunk holds the lines from its first to its last, and the digest of their text. -/
structure Chunk.Cut (path source : Text) (c : Chunk) : Prop where
  id : c.id = chunkId path c.startLine
  first : 1 ≤ c.startLine
  ordered : c.startLine ≤ c.endLine
  last : c.endLine ≤ (Text.lines source).length
  text : c.text = Text.unlines (((Text.lines source).take c.endLine).drop (c.startLine - 1))
  hash : c.hash = hashText c.text

theorem Lines.Placed.cut (h : l.Placed (Text.lines source).length) (kind : DefinitionKind) (name path : Text) :
    ((Definition.ofLines kind name l).chunk path (Text.lines source)).Cut path source :=
  ⟨rfl, h.one_le_start, h.start_le_last, h.last, rfl, rfl⟩

theorem wholeChunk_cut (path source : Text) : (wholeChunk path source).Cut path source := by
  have hpos : 1 ≤ (Text.lines source).length := List.length_pos_iff.mpr (Text.splitOn_ne_nil _ source)
  refine ⟨rfl, Nat.le_refl 1, hpos, Nat.le_refl _, ?_, rfl⟩
  simp [wholeChunk, Text.unlines_lines]

/-- Chunks that follow each other by their lines follow strictly once each id has one. -/
theorem firstOfEach_increasing (hcut : ∀ c ∈ cs, c.Cut path source)
    (hsorted : cs.Pairwise fun c c' => c.startLine ≤ c'.startLine) :
    (firstOfEach cs).Pairwise fun c c' => c.startLine < c'.startLine := by
  have hsub := firstOfEach_sublist cs
  have hdistinct : (firstOfEach cs).Pairwise fun c c' => c.id ≠ c'.id := List.pairwise_map.mp (nodup_firstOfEach cs)
  apply ((hsorted.sublist hsub).and hdistinct).imp_of_mem
  intro c c' hc hc' ⟨hle, hne⟩
  refine Nat.lt_of_le_of_ne hle fun he => hne ?_
  rw [(hcut c (hsub.subset hc)).id, (hcut c' (hsub.subset hc')).id, he]

def DefinesNothing (file : List Stmt) : Prop := ∀ kind name l, ¬ Defines file kind name l

theorem definesNothing_iff : DefinesNothing file ↔ definitions file = [] := by
  rw [List.eq_nil_iff_forall_not_mem]
  constructor
  · intro h d hd
    obtain ⟨kind, name, l, hdefines, -⟩ := mem_definitions_iff.mp hd
    exact h kind name l hdefines
  · intro h kind name l hdefines
    exact h _ (mem_definitions_iff.mpr ⟨kind, name, l, hdefines, rfl⟩)

/-- Chunks that tell of every definition: they follow each other with an id each, every one is a definition of the
file, and where a definition starts there is one. A file that defines nothing is one chunk unless it is blank. -/
structure Chunked (path source : Text) (file : List Stmt) (cs : List Chunk) : Prop where
  cut : ∀ c ∈ cs, c.Cut path source
  distinct : (cs.map (·.id)).Nodup
  increasing : cs.Pairwise fun c c' => c.startLine < c'.startLine
  sound : ¬ DefinesNothing file → ∀ c ∈ cs, ∃ kind name l, Defines file kind name l ∧
    c.kind = kind.name ∧ c.name = name ∧ c.startLine = l.start ∧ c.endLine = l.last
  complete : ∀ kind name l, Defines file kind name l → ∃ c ∈ cs, c.startLine = l.start
  whole : DefinesNothing file → Text.isBlank source = false →
    ∃ c, cs = [c] ∧ c.startLine = 1 ∧ c.endLine = (Text.lines source).length ∧ c.text = source
  blank : DefinesNothing file → Text.isBlank source = true → cs = []

theorem chunks_of_nothing (h : DefinesNothing file) :
    chunks path source file = if Text.isBlank source then [] else [wholeChunk path source] := by
  rw [chunks, definesNothing_iff.mp h]

theorem chunks_of_definitions (h : ¬ DefinesNothing file) :
    chunks path source file = firstOfEach ((definitions file).map (Definition.chunk path (Text.lines source))) := by
  rw [definesNothing_iff] at h
  unfold chunks
  split
  · rename_i hnone
    exact absurd hnone h
  · rfl

theorem chunked_blank (h : DefinesNothing file) (blank : Text.isBlank source = true) (path : Text) :
    Chunked path source file [] where
  cut := by simp
  distinct := by simp
  increasing := by simp
  sound hsome := absurd h hsome
  complete kind name l hdefines := absurd hdefines (h kind name l)
  whole _ hwritten := by
    rw [blank] at hwritten
    cases hwritten
  blank _ _ := rfl

theorem chunked_whole (h : DefinesNothing file) (written : Text.isBlank source = false) (path : Text) :
    Chunked path source file [wholeChunk path source] where
  cut c hc := by
    rw [List.mem_singleton.mp hc]
    exact wholeChunk_cut path source
  distinct := by simp
  increasing := by simp
  sound hsome := absurd h hsome
  complete kind name l hdefines := absurd hdefines (h kind name l)
  whole _ _ := ⟨wholeChunk path source, rfl, rfl, rfl, rfl⟩
  blank _ hblank := by
    rw [written] at hblank
    cases hblank

/-- A file that defines something is chunked by its definitions. -/
theorem chunked_definitions (h : ¬ DefinesNothing file)
    (positions : ∀ kind name l, Defines file kind name l → l.Placed (Text.lines source).length) (path : Text) :
    Chunked path source file (firstOfEach ((definitions file).map (Definition.chunk path (Text.lines source)))) := by
  have hsub := firstOfEach_sublist ((definitions file).map (Definition.chunk path (Text.lines source)))
  have hcut : ∀ c ∈ (definitions file).map (Definition.chunk path (Text.lines source)), c.Cut path source := by
    intro c hc
    obtain ⟨d, hd, rfl⟩ := List.mem_map.mp hc
    obtain ⟨kind, name, l, hdefines, rfl⟩ := mem_definitions_iff.mp hd
    exact (positions kind name l hdefines).cut kind name path
  refine ⟨fun c hc => hcut c (hsub.subset hc), nodup_firstOfEach _, ?_, ?_, ?_, fun hnone => absurd hnone h,
    fun hnone => absurd hnone h⟩
  · exact firstOfEach_increasing hcut (List.pairwise_map.mpr (definitions_sorted file))
  · intro _ c hc
    obtain ⟨d, hd, rfl⟩ := List.mem_map.mp (hsub.subset hc)
    obtain ⟨kind, name, l, hdefines, rfl⟩ := mem_definitions_iff.mp hd
    exact ⟨kind, name, l, hdefines, rfl, rfl, rfl, rfl⟩
  · intro kind name l hdefines
    have hd := mem_definitions_iff.mpr ⟨kind, name, l, hdefines, rfl⟩
    obtain ⟨c, hc, hid⟩ :=
      exists_mem_firstOfEach (List.mem_map_of_mem (f := Definition.chunk path (Text.lines source)) hd)
    rw [(hcut c (hsub.subset hc)).id] at hid
    exact ⟨c, hc, (chunkId_inj hid).2⟩

/-- The chunks of a file neither lose a definition nor tell of one twice. -/
theorem chunks_chunked (positions : ∀ kind name l, Defines file kind name l → l.Placed (Text.lines source).length)
    (path : Text) : Chunked path source file (chunks path source file) := by
  by_cases hnothing : DefinesNothing file
  · rw [chunks_of_nothing hnothing]
    split
    · rename_i hblank
      exact chunked_blank hnothing hblank path
    · rename_i hwritten
      exact chunked_whole hnothing (Bool.not_eq_true _ ▸ hwritten) path
  · rw [chunks_of_definitions hnothing]
    exact chunked_definitions hnothing positions path

attribute [local instance] Host.usual

/-- A class with a decorated method and a class inside, and two names for one lambda. -/
def nestedSource : Text :=
  "class A:\n    @d\n    def f(self): pass\n    class B:\n        def g(self): pass\nh = k = lambda: 0\n"

theorem parse_nestedSource : ∃ file, parse .loop nestedSource = .ok file ∧ definitions file =
    [⟨.classDef, "A", 1, 5⟩, ⟨.method, "A.f", 2, 3⟩, ⟨.classDef, "B", 4, 5⟩, ⟨.method, "B.g", 5, 5⟩,
      ⟨.constant, "h", 6, 6⟩, ⟨.constant, "k", 6, 6⟩] :=
  parse_defining (by decide +kernel) (by decide)

/-- The chunk of the method starts at its decorator, and one of the two names is kept. -/
theorem nested_file_chunked : ∃ file, parse .loop nestedSource = .ok file ∧
    (∀ kind name l, Defines file kind name l → l.Placed (Text.lines nestedSource).length) ∧
    Chunked "a.py" nestedSource file (chunks "a.py" nestedSource file) ∧
    (chunks "a.py" nestedSource file).map (·.startLine) = [1, 2, 4, 5, 6] := by
  obtain ⟨file, hparse, hdefinitions⟩ := parse_nestedSource
  have hplaced := placed_of_parse (by decide) hparse (by rw [hdefinitions]; decide)
  refine ⟨file, hparse, hplaced, chunks_chunked hplaced "a.py", ?_⟩
  unfold chunks
  rw [hdefinitions]
  decide +kernel

end CodeAgent.Source
