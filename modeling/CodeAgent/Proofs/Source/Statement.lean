import CodeAgent.Source.Definitions
import CodeAgent.Proofs.Source.Reader

namespace CodeAgent.Source

/-- Lines of a text of `n` lines. -/
structure Lines.On (n : Nat) (l : Lines) : Prop where
  ordered : l.first ≤ l.last
  first : 1 ≤ l.last
  last : l.last ≤ n

/-- Lines of a text of `n` lines. -/
structure Definition.Within (n : Nat) (d : Definition) : Prop where
  ordered : d.startLine ≤ d.endLine
  first : 1 ≤ d.endLine
  last : d.endLine ≤ n

/-- Every definition that a statement makes, at the top of a file or in a class, lies in a text of `n` lines. -/
structure Stmt.Within (n : Nat) (s : Stmt) : Prop where
  top : ∀ d ∈ s.definitions, d.Within n
  inClass : ∀ className, ∀ d ∈ member className s, d.Within n

/-- Decorators move the start of a definition to the front only. -/
theorem start_le_first (l : Lines) : l.start ≤ l.first := by
  have go (ks : List Nat) (k : Nat) : ks.foldl min k ≤ k := by
    induction ks generalizing k with
    | nil => exact Nat.le_refl k
    | cons k' ks ih => exact Nat.le_trans (ih (min k k')) (Nat.min_le_left k k')
  exact go l.decorators l.first

theorem Lines.On.within {n : Nat} {l : Lines} (h : l.On n) (kind : DefinitionKind) (name : Text) :
    (Definition.ofLines kind name l).Within n :=
  ⟨Nat.le_trans (start_le_first l) h.ordered, h.first, h.last⟩

/-- The definitions of a file, too. -/
theorem definitions_within {n : Nat} {file : List Stmt} (h : ∀ s ∈ file, s.Within n) :
    ∀ d ∈ definitions file, d.Within n := by
  intro d hd
  obtain ⟨s, hs, hd⟩ := List.mem_flatMap.mp (List.mem_mergeSort.mp hd)
  exact (h s hs).top d hd

variable [Host]

def IsIdentifier (t : Text) : Prop := ∃ cs, Identifier.isValid cs = true ∧ t = Identifier.text cs

/-- A property of statements that a statement has if its parts have it, its lines are lines of a text of `n` lines and
the names that it imports are identifiers. -/
structure Stmt.Kept (n : Nat) (P : Stmt → Prop) : Prop where
  plain : P .plain
  block : ∀ {parts}, (∀ s ∈ parts, P s) → P (.block parts)
  importModules : ∀ modules, P (.importModules modules)
  importFrom : ∀ module level {names}, (∀ name ∈ names, IsIdentifier name) → P (.importFrom module level names)
  bindLambda : ∀ {names l}, (names ≠ [] → l.On n) → P (.bindLambda names l)
  function : ∀ name {l body}, l.On n → (∀ s ∈ body, P s) → P (.function name l body)
  classDef : ∀ name {l body}, l.On n → (∀ s ∈ body, P s) → P (.classDef name l body)

namespace Stmt

variable {n : Nat}

omit [Host] in
theorem within_classMembers {body : List Stmt} (h : ∀ s ∈ body, s.Within n) (className : Text) :
    ∀ d ∈ classMembers className body, d.Within n := by
  induction body with
  | nil => simp [classMembers]
  | cons s rest ih =>
    obtain ⟨hs, hrest⟩ := List.forall_mem_cons.mp h
    intro d hd
    rw [classMembers, List.mem_append] at hd
    rcases hd with hd | hd
    · exact hs.inClass className d hd
    · exact ih hrest d hd

/-- To stand within a number of lines is kept from the parts of a statement to the whole. -/
theorem kept_within (n : Nat) : Stmt.Kept n (Stmt.Within n) where
  plain := ⟨by simp [definitions], by simp [member]⟩
  block _ := ⟨by simp [definitions], by simp [member]⟩
  importModules _ := ⟨by simp [definitions], by simp [member]⟩
  importFrom _ _ _ _ := ⟨by simp [definitions], by simp [member]⟩
  bindLambda h := by
    refine ⟨?_, by simp [member]⟩
    intro d hd
    obtain ⟨name, hm, rfl⟩ := List.mem_map.mp hd
    exact (h (List.ne_nil_of_mem hm)).within _ name
  function name _ _ hl _ := by
    refine ⟨?_, fun className => ?_⟩ <;>
    · intro d hd
      simp only [definitions, member, List.mem_singleton] at hd
      subst hd
      exact hl.within _ _
  classDef name _ _ hl h := by
    refine ⟨?_, fun className => ?_⟩ <;>
    · intro d hd
      simp only [definitions, member, List.mem_cons] at hd
      rcases hd with rfl | hd
      · exact hl.within _ _
      · exact within_classMembers h name d hd

end Stmt

namespace Statement

open Reader Cursor Stmt

variable {I : Cursor → Prop} [Stable I] {n : Nat} {e : Level} {body : Reader (List Stmt)}

omit [Host] in
/-- A value that is bound to a name was read behind a target and its equals sign. -/
theorem boundNames_past {k fuel : Nat} {c c' : Cursor} {names : List Text} (hc : From n k c)
    (h : (boundNames e fuel).read c = some (names, c')) (hn : names ≠ []) : Past n k c' := by
  cases fuel with
  | zero =>
    cases h
    exact absurd rfl hn
  | succ m =>
    unfold boundNames at h
    obtain ⟨target, d, ht, h⟩ := read_bind h
    cases target with
    | none =>
      cases h
      exact absurd rfl hn
    | some t =>
      refine Stable.keep (Reader.forward _ h) ?_
      obtain ⟨_, d', _, ht⟩ := read_bind (read_optional ht)
      obtain ⟨_, d'', hm, ht⟩ := read_bind ht
      cases ht
      exact mark_past (Stable.keep (Reader.forward _ ‹_›) hc) hm

theorem importedName_identifier : Yields (Ordered n) importedName IsIdentifier := by
  unfold importedName
  exact yields_name.bind fun t ht => yields_bind fun _ => yields_pure ht

variable {P : Stmt → Prop} (hP : Stmt.Kept n P)
include hP

theorem annotated_keeps : Yields I (annotated e) P := by
  unfold annotated
  refine yields_bind fun target => ?_
  split
  · exact yields_fail
  refine yields_bind fun _ => yields_bind fun _ => yields_bind fun more => ?_
  split
  · exact yields_bind fun _ => yields_pure hP.plain
  · exact yields_pure hP.plain

theorem update_keeps : Yields I (update e) P := by
  unfold update
  refine yields_bind fun target => ?_
  split
  · exact yields_fail
  refine yields_bind fun next => ?_
  split
  · split
    · exact yields_bind fun _ => yields_bind fun _ => yields_pure hP.plain
    · exact yields_fail
  · exact yields_fail

theorem importModules_keeps : Yields I importModules P := by
  unfold importModules
  exact yields_bind fun _ => yields_bind fun modules => yields_pure (hP.importModules modules)

/-- An import from a module reads tokens in order. -/
theorem importFrom_keeps : Yields (Ordered n) importFrom P := by
  unfold importFrom
  refine yields_bind fun _ => yields_bind fun _ => yields_bind fun level => yields_bind fun bare => ?_
  extract_lets named
  have hnamed (module : Text) : Yields (Ordered n) (named module) P := by
    refine yields_bind fun _ => yields_bind fun all => ?_
    split
    · exact yields_pure (hP.importFrom module level (by simp))
    refine yields_bind fun grouped => ?_
    split
    · refine (yields_commaList importedName_identifier).bind fun names hnames => ?_
      exact yields_bind fun _ => yields_pure (hP.importFrom module level hnames)
    refine (yields_separated importedName_identifier).bind fun names hnames => yields_bind fun more => ?_
    split
    · exact yields_fail
    · exact yields_pure (hP.importFrom module level hnames)
  split <;> exact yields_bind fun module => hnamed module

theorem deletion_keeps : Yields I (deletion e) P := by
  unfold deletion
  refine yields_bind fun _ => yields_bind fun _ => yields_bind fun ended => ?_
  split
  · exact yields_pure hP.plain
  · exact yields_fail

/-- A binding reads tokens in order, and its lines are theirs. -/
theorem binding_keeps : Yields (Ordered n) (binding e) P := by
  unfold binding
  refine yields_line fun k => yields_bind fun fuel => ?_
  intro c c' s hc hr
  obtain ⟨names, d, hb, hr⟩ := read_bind hr
  have hpast : names ≠ [] → Past n k d := boundNames_past hc hb
  obtain ⟨value, d', hv, hr⟩ := read_bind hr
  obtain ⟨l, _, hl, hr⟩ := read_bind hr
  cases hl
  have hlines : names ≠ [] → Lines.On n ⟨k, [], d'.lastLine⟩ := by
    intro hn
    have hd : Past n k d' := Stable.keep (Reader.forward _ hv) (hpast hn)
    exact ⟨hd.since.2, hd.since.1, hd.last⟩
  obtain ⟨again, d'', _, hr⟩ := read_bind hr
  split at hr
  · cases hr
  · split at hr
    · cases hr
      exact hP.bindLambda hlines
    · cases hr
      exact hP.plain

theorem expressionStatement_keeps : Yields (Ordered n) (expressionStatement e) P := by
  unfold expressionStatement
  refine yields_bind fun bound => ?_
  split
  · exact binding_keeps hP
  · refine yields_either (annotated_keeps hP) (yields_either (update_keeps hP) ?_)
    exact yields_bind fun _ => yields_pure hP.plain

/-- A statement that begins with a keyword reads tokens in order. -/
theorem keyworded_keeps (w : String) : Yields (Ordered n) (keyworded e w) P := by
  have hplain {J : Cursor → Prop} : Yields J (pure Stmt.plain) P := yields_pure hP.plain
  unfold keyworded
  split
  · exact yields_bind fun _ => hplain
  split
  · refine yields_bind fun _ => yields_bind fun ended => ?_
    split
    · exact hplain
    · exact yields_bind fun _ => hplain
  split
  · exact importModules_keeps hP
  split
  · exact importFrom_keeps hP
  split
  · refine yields_bind fun _ => yields_bind fun ended => ?_
    split
    · exact hplain
    refine yields_bind fun _ => yields_bind fun cause => ?_
    split
    · exact yields_bind fun _ => hplain
    · exact hplain
  split
  · exact deletion_keeps hP
  split
  · refine yields_bind fun _ => yields_bind fun _ => yields_bind fun message => ?_
    split
    · exact yields_bind fun _ => hplain
    · exact hplain
  split
  · exact yields_bind fun _ => yields_bind fun _ => hplain
  · exact expressionStatement_keeps hP

theorem simple_keeps : Yields (Ordered n) (simple e) P := by
  unfold simple
  refine yields_bind fun next => ?_
  split
  · exact keyworded_keeps hP _
  · exact expressionStatement_keeps hP

theorem simpleLine_keeps : Yields (Ordered n) (simpleLine e) fun parts => ∀ s ∈ parts, P s := by
  unfold simpleLine
  refine (simple_keeps hP).bind fun first hf => ?_
  refine (yields_repeatWhile (yields_bind fun _ => simple_keeps hP)).bind fun rest hr => ?_
  exact yields_bind fun _ => yields_bind fun _ => yields_pure (List.forall_mem_cons.mpr ⟨hf, hr⟩)

theorem blockOf_keeps {statements : Reader (List Stmt)}
    (h : Yields (Ordered n) statements fun parts => ∀ s ∈ parts, P s) :
    Yields (Ordered n) (blockOf e statements) fun parts => ∀ s ∈ parts, P s := by
  unfold blockOf
  refine yields_bind fun indented => ?_
  split
  · exact yields_bind fun _ => h.bind fun parts hp => yields_bind fun _ => yields_pure hp
  · exact simpleLine_keeps hP

omit [Host] in
omit hP in
theorem elseBlock_all (hbody : Yields I body fun parts => ∀ s ∈ parts, P s) :
    Yields I (elseBlock body) fun parts => ∀ s ∈ parts, P s := by
  unfold elseBlock
  refine yields_bind fun otherwise => ?_
  split
  · exact yields_bind fun _ => hbody
  · exact yields_pure (by simp)

section
variable (hbody : Yields I body fun parts => ∀ s ∈ parts, P s)
include hbody

theorem ifFrom_keeps (fuel : Nat) : Yields I (ifFrom e body fuel) P := by
  induction fuel with
  | zero => exact yields_fail
  | succ m ih =>
    unfold ifFrom
    refine yields_bind fun _ => yields_bind fun _ => hbody.bind fun yes hyes => yields_bind fun more => ?_
    split
    · refine ih.bind fun other hother => yields_pure (hP.block ?_)
      exact List.forall_mem_append.mpr ⟨hyes, List.forall_mem_singleton.mpr hother⟩
    · refine (elseBlock_all hbody).bind fun no hno => yields_pure (hP.block ?_)
      exact List.forall_mem_append.mpr ⟨hyes, hno⟩

theorem whileLoop_keeps : Yields I (whileLoop e body) P := by
  unfold whileLoop
  refine yields_bind fun _ => yields_bind fun _ => yields_bind fun _ => hbody.bind fun inside hinside => ?_
  refine (elseBlock_all hbody).bind fun after hafter => yields_pure (hP.block ?_)
  exact List.forall_mem_append.mpr ⟨hinside, hafter⟩

theorem forLoop_keeps : Yields I (forLoop e body) P := by
  unfold forLoop
  refine yields_bind fun _ => yields_bind fun _ => yields_bind fun _ => yields_bind fun _ => yields_bind fun _ => ?_
  refine hbody.bind fun inside hinside => (elseBlock_all hbody).bind fun after hafter => yields_pure (hP.block ?_)
  exact List.forall_mem_append.mpr ⟨hinside, hafter⟩

theorem withBlock_keeps : Yields I (withBlock e body) P := by
  unfold withBlock
  refine yields_bind fun _ => yields_bind fun _ => hbody.bind fun inside hinside => ?_
  exact yields_pure (hP.block hinside)

theorem clause_keeps : Yields I (do mark ":"; let inside ← body; pure (Stmt.block inside)) P :=
  yields_bind fun _ => hbody.bind fun _ hinside => yields_pure (hP.block hinside)

theorem handler_keeps (star : Bool) : Yields I (handler e body star) P := by
  unfold handler
  refine yields_bind fun _ => yields_bind fun starred => ?_
  split
  · exact yields_fail
  · refine yields_bind fun plain => ?_
    split
    · exact clause_keeps hP hbody
    · exact yields_bind fun _ => yields_bind fun _ => clause_keeps hP hbody

/-- A block with handlers keeps what its blocks keep. -/
theorem tryBlock_keeps : Yields I (tryBlock e body) P := by
  unfold tryBlock
  refine yields_bind fun _ => yields_bind fun _ => hbody.bind fun inside hinside => yields_bind fun star => ?_
  refine (yields_repeatWhile (handler_keeps hP hbody star)).bind fun handlers hhandlers => ?_
  extract_lets rest
  have hnone : Yields I (pure [] : Reader (List Stmt)) fun parts => ∀ s ∈ parts, P s := yields_pure (by simp)
  have hrest (otherwise : List Stmt) (hother : ∀ s ∈ otherwise, P s) : Yields I (rest otherwise) P := by
    refine yields_bind fun closing => ?_
    extract_lets last
    have hlast (finally_ : Option (List Stmt)) (hfinally : ∀ s ∈ finally_.getD [], P s) :
        Yields I (last finally_) P := by
      unfold last
      split
      · exact yields_fail
      · refine yields_pure (hP.block ?_)
        simp only [List.forall_mem_append]
        exact ⟨⟨⟨hinside, hhandlers⟩, hother⟩, hfinally⟩
    split
    · refine yields_bind fun _ => hbody.bind fun ending hending => ?_
      exact (yields_pure (P := fun f => f = some ending) rfl).bind fun _ hf => hlast _ (hf ▸ hending)
    · exact (yields_pure (P := fun f => f = none) rfl).bind fun _ hf => hlast _ (by simp [hf])
  split
  · exact hnone.bind hrest
  · exact (elseBlock_all hbody).bind hrest

theorem caseClause_keeps (depth : Nat) : Yields I (caseClause e body depth) P := by
  unfold caseClause
  refine yields_bind fun _ => yields_bind fun _ => yields_bind fun guarded => ?_
  split
  · exact yields_bind fun _ => clause_keeps hP hbody
  · exact clause_keeps hP hbody

theorem matchBlock_keeps (depth : Nat) : Yields I (matchBlock e body depth) P := by
  unfold matchBlock
  refine yields_bind fun _ => yields_bind fun subject => ?_
  split
  · exact yields_fail
  · refine yields_bind fun _ => yields_bind fun _ => yields_bind fun _ => ?_
    refine (caseClause_keeps hP hbody depth).bind fun first hfirst => ?_
    refine (yields_repeatWhile (caseClause_keeps hP hbody depth)).bind fun rest hrest => ?_
    exact yields_bind fun _ => yields_pure (hP.block (List.forall_mem_cons.mpr ⟨hfirst, hrest⟩))

end

section
variable (hbody : Yields (Ordered n) body fun parts => ∀ s ∈ parts, P s)
include hbody

omit [Host] in
omit hP in
/-- A definition ends behind its own keyword. -/
theorem suite_keeps {make : List Stmt → Nat → Stmt}
    (hmake : ∀ last inside, 1 ≤ last → k ≤ last → last ≤ n → (∀ s ∈ inside, P s) → P (make inside last)) :
    Yields (Past n k) (do mark ":"; let inside ← body; pure (make inside (← lastLine))) P := by
  refine yields_bind fun _ => ?_
  refine (hbody.mono (fun _ h => h.toOrdered) fun _ h => h).bind fun inside hinside => ?_
  exact yields_lastLine fun last h1 hk hn => yields_pure (hmake last inside h1 hk hn hinside)

theorem functionDef_keeps (decorators : List Nat) (k : Nat) :
    Yields (From n k) (functionDef e body decorators k) P := by
  unfold functionDef
  refine yields_mark ?_
  refine yields_bind fun name => yields_bind fun _ => yields_bind fun _ => yields_bind fun _ =>
    yields_bind fun annotated => ?_
  extract_lets rest
  have hrest : Yields (Past n k) (rest ()) P :=
    suite_keeps hbody fun _ _ h1 hk hn hinside => hP.function name ⟨hk, h1, hn⟩ hinside
  split
  · exact yields_bind fun _ => hrest
  · exact hrest

theorem classDefinition_keeps (decorators : List Nat) (k : Nat) :
    Yields (From n k) (classDefinition e body decorators k) P := by
  unfold classDefinition
  refine yields_mark ?_
  refine yields_bind fun name => yields_bind fun based => ?_
  extract_lets rest
  have hrest : Yields (Past n k) (rest ()) P :=
    suite_keeps hbody fun _ _ h1 hk hn hinside => hP.classDef name ⟨hk, h1, hn⟩ hinside
  split
  · exact yields_bind fun _ => yields_bind fun _ => hrest
  · exact hrest

/-- An asynchronous statement keeps what its block keeps. -/
theorem asyncStatement_keeps (decorators : List Nat) :
    Yields (Ordered n) (asyncStatement e body decorators) P := by
  unfold asyncStatement
  refine yields_line fun k => yields_bind fun _ => yields_bind fun next => ?_
  have hinner : Yields (From n k) body fun parts => ∀ s ∈ parts, P s :=
    hbody.mono (fun _ h => h.toOrdered) fun _ h => h
  split
  · exact functionDef_keeps hP hbody decorators k
  · split
    · exact forLoop_keeps hP hinner
    · exact yields_fail
  · split
    · exact withBlock_keeps hP hinner
    · exact yields_fail
  · exact yields_fail

theorem decorated_keeps : Yields (Ordered n) (decorated e body) P := by
  unfold decorated
  refine yields_bind fun decorators => yields_line fun k => yields_bind fun next => ?_
  split
  · exact functionDef_keeps hP hbody decorators k
  · exact classDefinition_keeps hP hbody decorators k
  · exact (asyncStatement_keeps hP hbody decorators).mono (fun _ h => h.toOrdered) fun _ h => h
  · exact yields_fail

/-- A statement at any depth keeps what its parts keep. -/
theorem item_keeps (depth : Nat) : Yields (Ordered n) (item e body depth) fun parts => ∀ s ∈ parts, P s := by
  have hone {p : Reader Stmt} (h : Yields (Ordered n) p P) :
      Yields (Ordered n) (do pure [← p]) fun parts => ∀ s ∈ parts, P s :=
    h.bind fun s hs => yields_pure (List.forall_mem_singleton.mpr hs)
  unfold item
  refine yields_bind fun next => ?_
  split
  · split
    · exact hone (yields_bind fun _ => yields_bind fun _ => ifFrom_keeps hP hbody _)
    split
    · exact hone (whileLoop_keeps hP hbody)
    split
    · exact hone (forLoop_keeps hP hbody)
    split
    · exact hone (withBlock_keeps hP hbody)
    split
    · exact hone (tryBlock_keeps hP hbody)
    split
    · exact hone (decorated_keeps hP hbody)
    split
    · exact hone (asyncStatement_keeps hP hbody [])
    · exact simpleLine_keeps hP
  · exact yields_either (hone (matchBlock_keeps hP hbody depth)) (simpleLine_keeps hP)
  · exact simpleLine_keeps hP

end

omit [Host] in
omit hP in
theorem several_all {statement : Reader (List Stmt)}
    (h : Yields (Ordered n) statement fun parts => ∀ s ∈ parts, P s) :
    Yields (Ordered n) (several statement) fun parts => ∀ s ∈ parts, P s := by
  unfold several
  refine h.bind fun first hf => (yields_repeatWhile h).bind fun rest hr => yields_pure ?_
  intro s hs
  rcases List.mem_append.mp hs with hs | hs
  · exact hf s hs
  · obtain ⟨parts, hp, hs⟩ := List.mem_flatten.mp hs
    exact hr parts hp s hs

theorem ofDepth_keeps (nesting depth : Nat) :
    Yields (Ordered n) (ofDepth e nesting depth) fun parts => ∀ s ∈ parts, P s := by
  induction depth with
  | zero => exact yields_fail
  | succ m ih => exact several_all (item_keeps hP (blockOf_keeps hP ih) nesting)

end Statement

open Reader Cursor in

/-- What is kept holds of the statements of a file whose tokens are cut from a text. -/
theorem Stmt.Kept.fileOf {n : Nat} {P : Stmt → Prop} {tokens : List Token} {file : List Stmt} (hP : Stmt.Kept n P)
    (ht : Ordered n ⟨tokens, 0⟩) (h : fileOf tokens = some file) : ∀ s ∈ file, P s := by
  unfold Source.fileOf at h
  obtain ⟨⟨_, c⟩, hr, rfl⟩ := Option.map_eq_some_iff.mp h
  obtain ⟨empty, d, he, hr⟩ := read_bind hr
  have hd : Ordered n d := Stable.keep (Reader.forward _ he) ht
  split at hr
  · cases hr
    exact fun s hs => nomatch hs
  · refine Yields.bind (R := fun parts => ∀ s ∈ parts, P s) (Statement.ofDepth_keeps hP _ _)
      (fun body hb => ?_) hd hr
    exact yields_bind fun _ => yields_pure hb

end CodeAgent.Source
