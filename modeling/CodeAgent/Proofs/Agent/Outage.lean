import CodeAgent.Host.Usual
import CodeAgent.Proofs.Command.Gate
import CodeAgent.Proofs.Tool.Contained
import CodeAgent.Proofs.Workspace.Discreet
import CodeAgent.Workspace.Report

namespace CodeAgent

open Disk

def Approval.resumed : Approval → Approval
  | .settled _ verdict => .finished verdict
  | a => a

namespace Gate

variable {g : Gate} {n k : Nat} {c : Text}

theorem resumed_resumed (a : Approval) : a.resumed.resumed = a.resumed := by cases a <;> rfl

/-- When a request resumes the others stay as they are. -/
theorem getElem?_resume (g : Gate) (k n : Nat) :
    (g.resume k).requests[n]? = if k = n then (g.requests[n]?).map Approval.resumed else g.requests[n]? := by
  unfold resume
  split
  · rename_i command verdict hk
    rw [List.getElem?_set]
    split
    · rename_i he
      subst he
      rw [hk, if_pos (List.getElem?_eq_some_iff.mp hk).1]
      rfl
    · rfl
  · rename_i hk
    split
    · rename_i he
      subst he
      cases hn : g.requests[k]? with
      | none => rfl
      | some a =>
        cases a with
        | settled command verdict => exact absurd hn (hk command verdict)
        | _ => rfl
    · rfl

theorem getElem?_foldl_resume (ks : List Nat) (g : Gate) (n : Nat) :
    (ks.foldl resume g).requests[n]? = if n ∈ ks then (g.requests[n]?).map Approval.resumed else g.requests[n]? := by
  induction ks generalizing g with
  | nil => rfl
  | cons k ks ih =>
    rw [List.foldl_cons, ih, getElem?_resume]
    by_cases hk : k = n
    · subst hk
      simp [Function.comp_def, resumed_resumed]
    · simp [hk, Ne.symm hk]

theorem getElem?_resumeAll (g : Gate) (n : Nat) :
    g.resumeAll.requests[n]? = (g.requests[n]?).map Approval.resumed := by
  rw [resumeAll, getElem?_foldl_resume]
  split
  · rfl
  · rename_i hn
    rw [List.mem_range, not_lt] at hn
    rw [List.getElem?_eq_none hn]
    rfl

/-- A request waits in the slot, or there is an answer to it at once. -/
theorem request_cases (g : Gate) (c : Text) :
    (g.request c).requests[g.requests.length]? = some (.finished (.decided true)) ∨
      (∃ other, (g.request c).requests[g.requests.length]? = some (.busy other)) ∨
      (g.request c).slot = some g.requests.length ∧
        (g.request c).requests[g.requests.length]? = some (.waiting c) := by
  unfold request
  split
  · exact Or.inl List.getElem?_concat_length
  · split
    · exact Or.inr (Or.inl ⟨_, List.getElem?_concat_length⟩)
    · exact Or.inr (Or.inr ⟨rfl, List.getElem?_concat_length⟩)

/-- What waits in the slot has its answer once a decision was delivered and everyone has resumed. -/
theorem decided_resumed (hs : g.slot = some n) (hn : g.requests[n]? = some (.waiting c)) (approved : Bool) :
    (g.resolve approved).1.resumeAll.requests[n]? = some (.finished (.decided approved)) := by
  rw [getElem?_resumeAll, resolve_waits hs hn]
  dsimp only
  rw [List.getElem?_set_self (List.getElem?_eq_some_iff.mp hn).1]
  rfl

end Gate

namespace Bench

def unindexed (b : Bench) : Bench := { b with workspace := b.workspace.unindexed }

section

variable [Host]

def answer (s : Setting) (b : Bench) (decisions : List Bool) (call : ToolCall) :
    Course.Outcome (Except BackendFault Text) :=
  (b.execute s call none).drive (fun _ _ => .ok []) [] decisions

/-- Answers calls in turn. For each there is what the model is told of it, unless a provider has failed or the call
was cancelled. -/
def serve (s : Setting) : Bench → List Bool → List ToolCall → Bench × List (Option (Except BackendFault Text))
  | b, _, [] => (b, [])
  | b, decisions, call :: rest =>
    let outcome := b.answer s decisions call
    let (b, told) := serve s outcome.bench outcome.decisions rest
    (b, outcome.value :: told)

def Discreet (s : Setting) (e : Option Embedder) : Bench → List Bool → List ToolCall → Prop
  | _, _, [] => True
  | b, decisions, call :: rest =>
    (∀ i, call = .valid i → b.workspace.Discreet s i) ∧
      let outcome := b.answer (s.serving e) decisions call
      Discreet s e outcome.bench outcome.decisions rest

/-- What an answered call leaves beside: the same, and an observation. -/
structure Beside (home root : Path) (o o' : Course.Outcome (Except BackendFault Text)) : Prop where
  secluded : o.bench.workspace.Secluded home root
  bench : o'.bench = o.bench.unindexed
  decisions : o'.decisions = o.decisions
  value : o'.value = o.value
  answered : ∃ t, o.value = some (.ok t)

variable {s : Setting} {e : Option Embedder} {b : Bench} {home root : Path} {call : ToolCall} {decisions : List Bool}
variable {calls : List ToolCall}

omit [Host] in
/-- A conclusion is what a call leaves beside. -/
theorem beside_conclude {r r' : Workspace × Except ToolFault Text}
    (h : Workspace.Alike (Workspace.Secluded home root) r r')
    (hc : Contained r.2) (kind : ToolKind) (gate : Gate) (steps : List Step) (decisions : List Bool) :
    Beside home root
      { bench := ⟨(r.1.conclude kind r.2).1, gate⟩, steps, decisions, value := some (r.1.conclude kind r.2).2 }
      { bench := ⟨(r'.1.conclude kind r'.2).1, gate⟩, steps, decisions,
          value := some (r'.1.conclude kind r'.2).2 } := by
  obtain @⟨w, hsecluded, result⟩ := h
  cases result with
  | ok answer =>
    dsimp only
    rw [Workspace.conclude, Workspace.conclude]
    split
    · exact ⟨hsecluded.dirty, rfl, rfl, rfl, answer, rfl⟩
    · exact ⟨hsecluded, rfl, rfl, rfl, answer, rfl⟩
  | error fault =>
    have hother : ∀ f, fault ≠ .index (.backend f) := fun f he => hc f (congrArg Except.error he)
    dsimp only
    rw [Workspace.conclude_fault hother, Workspace.conclude_fault hother]
    exact ⟨hsecluded, rfl, rfl, rfl, _, rfl⟩

omit [Host] in
/-- Once the request for a command is settled, the command is run or told as denied or as refused. -/
theorem beside_afterVerdict {c : Text} {verdict : Option Approval} (hg : Workspace.Grounds s root)
    (h : b.workspace.Secluded s.home root) (hb : s.Blind c)
    (hv : (∃ approved, verdict = some (.finished (.decided approved))) ∨ ∃ other, verdict = some (.busy other)) :
    Beside s.home root ((b.afterVerdict (s.serving e) c none verdict).drive (fun _ _ => .ok []) [] decisions)
      ((b.unindexed.afterVerdict s c none verdict).drive (fun _ _ => .ok []) [] decisions) := by
  rcases hv with ⟨_ | _, rfl⟩ | ⟨other, rfl⟩
  · exact beside_conclude (.mk h _) (contained_ok _) .runCommand b.gate [] decisions
  · have hran := Workspace.runCommand_alike (e := e) hg h hb
    have hcontained : Contained (b.workspace.runCommand (s.serving e) c).2 := contained_mapError _
    have hconcluded : Workspace.Alike (Workspace.Secluded s.home root)
        ((b.workspace.runCommand (s.serving e) c).1,
          (b.workspace.runCommand (s.serving e) c).2.map CommandResult.render)
        ((b.workspace.unindexed.runCommand s c).1,
          (b.workspace.unindexed.runCommand s c).2.map CommandResult.render) := by
      generalize b.workspace.runCommand (s.serving e) c = r, b.workspace.unindexed.runCommand s c = r' at hran
      cases hran with
      | mk hsecluded result => exact .mk hsecluded _
    exact beside_conclude hconcluded (hcontained.map _) .runCommand b.gate [executingStep c none] decisions
  · exact beside_conclude (.mk h (.error (.busy other))) nofun .runCommand b.gate [] decisions

/-- A command that cannot see the own directories is answered the same beside. -/
theorem beside_command {c : Text} (hg : Workspace.Grounds s root) (h : b.workspace.Secluded s.home root)
    (hb : s.Blind c) : Beside s.home root (b.answer (s.serving e) decisions (.valid (.runCommand c)))
      (b.unindexed.answer s decisions (.valid (.runCommand c))) := by
  have htell {o o' : Course.Outcome (Except BackendFault Text)} (ho : Beside s.home root o o') (step : Step) :
      Beside s.home root { o with steps := step :: o.steps } { o' with steps := step :: o'.steps } :=
    ⟨ho.secluded, ho.bench, ho.decisions, ho.value, ho.answered⟩
  rw [answer, answer, execute, execute, command, command]
  refine htell ?_ (askingStep c none)
  rw [show b.unindexed.gate = b.gate from rfl]
  rcases b.gate.request_cases c with hr | ⟨other, hr⟩ | ⟨hs, hr⟩
  · simp only [hr]
    exact beside_afterVerdict (b := { b with gate := b.gate.request c }) hg h hb (Or.inl ⟨_, rfl⟩)
  · simp only [hr]
    exact beside_afterVerdict (b := { b with gate := b.gate.request c }) hg h hb (Or.inr ⟨_, rfl⟩)
  · have hdecided := Gate.decided_resumed hs hr (decisions.headD false)
    simp only [hr, Course.drive, hdecided]
    exact beside_afterVerdict (b := { b with gate := ((b.gate.request c).resolve (decisions.headD false)).1.resumeAll })
      hg h hb (Or.inl ⟨_, rfl⟩)

/-- The step lemma of a run: a discreet call is answered the same beside. -/
theorem answer_beside (hc : Source.Composes) (hg : Workspace.Grounds s root) (h : b.workspace.Secluded s.home root)
    (hd : ∀ i, call = .valid i → b.workspace.Discreet s i) :
    Beside s.home root (b.answer (s.serving e) decisions call) (b.unindexed.answer s decisions call) := by
  cases call with
  | invalid c => exact ⟨h, rfl, rfl, rfl, _, rfl⟩
  | valid i =>
    have hi := hd i rfl
    have hkind : i.kind ≠ .semanticSearch := by
      cases i with
      | semanticSearch query limit? => exact hi.abstains.elim
      | _ => nofun
    have hperformed := beside_conclude (Workspace.perform_alike (e := e) hc hg h hi) (Workspace.perform_contained hkind)
      i.kind b.gate [] decisions
    cases i with
    | runCommand c => exact beside_command hg h hi.abstains
    | _ => exact hperformed

/-- The run lemma: calls that are discreet in turn are answered the same beside. -/
theorem serve_beside (hc : Source.Composes) (hg : Workspace.Grounds s root) (h : b.workspace.Secluded s.home root)
    (hd : b.Discreet s e decisions calls) :
    (b.serve (s.serving e) decisions calls).1.workspace.Secluded s.home root ∧
      b.unindexed.serve s decisions calls =
        ((b.serve (s.serving e) decisions calls).1.unindexed, (b.serve (s.serving e) decisions calls).2) ∧
      ∀ told ∈ (b.serve (s.serving e) decisions calls).2, ∃ t, told = some (.ok t) := by
  induction calls generalizing b decisions with
  | nil => exact ⟨h, rfl, by simp [serve]⟩
  | cons call rest ih =>
    obtain ⟨hcall, hrest⟩ := hd
    have hstep : Beside s.home root (b.answer (s.serving e) decisions call) (b.unindexed.answer s decisions call) :=
      answer_beside hc hg h hcall
    obtain ⟨hsecluded, hsame, htold⟩ := ih hstep.secluded hrest
    refine ⟨hsecluded, ?_, List.forall_mem_cons.mpr ⟨hstep.answered, htold⟩⟩
    rw [serve, serve]
    dsimp only
    rw [hstep.bench, hstep.decisions, hstep.value, hsame]

omit [Host] in
theorem manifest_of_unindexed {w w' : Workspace} (hg : Workspace.Grounds s root) (h : w.Secluded home root)
    (h' : w'.Secluded home root) (hsame : w.unindexed = w'.unindexed) (e e' : Option Embedder) :
    (w.manifest (s.serving e)).2 = (w'.manifest (s.serving e')).2 := by
  have hlisted {w : Workspace} (h : w.Secluded home root) (most : Int) :
      Workspace.filesListed w.disk w.root most = Workspace.filesListed w.unindexed.disk w.unindexed.root most := by
    have hrule : ({} : ScanRule).hidden = false := rfl
    have hfiles := sourceFiles_outside h.reserved hrule (h.rooted ▸ hg.outside : Outside w.root.parts)
    rw [Workspace.filesListed, Workspace.filesListed, show w.unindexed.disk = w.disk.outside from rfl,
      show w.unindexed.root = w.root from rfl, hfiles]
  have hlisting : w.listing = w'.listing := (congrArg Workspace.listing hsame :)
  rw [Workspace.manifest, Workspace.manifest, hlisting, hlisted h, hlisted h', hsame]
  cases w'.listing with
  | some t => rfl
  | none => rfl

/-- Two runs of the same calls with the same decisions, whatever the embedding services answer and whether there is an
index at all: the model is told the same, every call is answered, and outside the own directories the files are the
same, as are the graph and the list of files. -/
theorem outage_unseen {e₁ e₂ : Option Embedder} {b₁ b₂ : Bench} (hc : Source.Composes)
    (hg : Workspace.Grounds s root) (h₁ : b₁.workspace.Secluded s.home root) (h₂ : b₂.workspace.Secluded s.home root)
    (hsame : b₁.unindexed = b₂.unindexed) (hd₁ : b₁.Discreet s e₁ decisions calls)
    (hd₂ : b₂.Discreet s e₂ decisions calls) :
    let r₁ := b₁.serve (s.serving e₁) decisions calls
    let r₂ := b₂.serve (s.serving e₂) decisions calls
    r₁.2 = r₂.2 ∧ (∀ told ∈ r₁.2, ∃ t, told = some (.ok t)) ∧
      r₁.1.workspace.disk.outside = r₂.1.workspace.disk.outside ∧ r₁.1.workspace.graph = r₂.1.workspace.graph ∧
      (r₁.1.workspace.manifest (s.serving e₁)).2 = (r₂.1.workspace.manifest (s.serving e₂)).2 := by
  obtain ⟨hkept₁, hrun₁, hanswered⟩ := serve_beside hc hg h₁ hd₁
  obtain ⟨hkept₂, hrun₂, -⟩ := serve_beside hc hg h₂ hd₂
  rw [hsame, hrun₂] at hrun₁
  obtain ⟨hbench, htold⟩ := Prod.mk.inj hrun₁
  have hworkspace := (congrArg Bench.workspace hbench).symm
  have hdisk := congrArg Workspace.disk hworkspace
  have hgraph := congrArg Workspace.graph hworkspace
  exact ⟨htold.symm, hanswered, hdisk, hgraph, manifest_of_unindexed hg hkept₁ hkept₂ hworkspace e₁ e₂⟩

def freshHome : Path := ⟨"/", ["h"]⟩

def project : Path := ⟨"/", ["w"]⟩

def freshDisk : Disk := ⟨[(["h"], .directory), (["w"], .directory), (["w", "a.py"], .file [])]⟩

def freshSetting : Setting where
  config := Config.default
  home := freshHome
  directory := project
  shell := fun disk _ _ _ => ⟨disk, some 0, [], []⟩

def projectIndex : SemanticIndex :=
  { root := project, file := ⟨"/", ["h", ".codewright", "index", "w-d1bb8ca35467", "chunks.json"]⟩ }

def onProject (index : Option SemanticIndex) : Bench :=
  ⟨{ disk := freshDisk, root := project, graph := { root := project }, index }, {}⟩

end

attribute [local instance] Host.usual

def broken : Embedder := fun _ _ => .error { reason := "connection refused" }

theorem placed_project : projectIndex.Placed freshHome project := ⟨by decide +kernel, rfl⟩

theorem grounds_project : Workspace.Grounds freshSetting project where
  home := ⟨Or.inr (Or.inl rfl), by decide⟩
  notUp := by decide
  directory := by decide
  absolute := rfl
  clean := by decide
  outside := by decide

theorem reserved_fresh : freshDisk.Reserved freshHome where
  distinct := by decide
  own x e hm := by
    have hall : ∀ entry ∈ freshDisk.entries, Outside entry.1 := by decide
    exact absurd (List.mem_append_right x List.mem_cons_self) (hall _ hm)
  links x target hm := by simp [freshDisk] at hm
  home x hx := by
    have hall : ∀ x ∈ freshHome.parts.inits, freshDisk.lookup? x = some .directory := by decide
    exact hall x ((List.mem_inits x _).mpr hx)

theorem secluded_project {index : Option SemanticIndex} (h : ∀ ix, index = some ix → ix = projectIndex) :
    (onProject index).workspace.Secluded freshHome project :=
  ⟨reserved_fresh, rfl, rfl, ⟨nofun, nofun⟩, fun ix hi => h ix hi ▸ placed_project⟩

theorem resolve_module (index : Option SemanticIndex) :
    (onProject index).workspace.resolve freshSetting "a.py" = .ok ⟨"/", ["w", "a.py"]⟩ := by cbv

theorem blind_fresh (command : Text) : freshSetting.Blind command := fun _ _ _ hd _ => ⟨hd, rfl⟩

def twoCalls : List ToolCall := [.valid (.writeFile "a.py" "x = 1\n"), .valid (.runCommand "ls")]

/-- Both calls keep away from the own directories. -/
theorem discreet_project {index : Option SemanticIndex} (h : ∀ ix, index = some ix → ix = projectIndex)
    (e : Option Embedder) : (onProject index).Discreet freshSetting e [true] twoCalls := by
  have hwrites : (onProject index).workspace.effect freshSetting (.writeFile "a.py" "x = 1\n") =
      ⟨[(["h"], .directory), (["w"], .directory), (["w", "a.py"], .file [120, 32, 61, 32, 49, 10])]⟩ := by
    refine (Workspace.onFile_disk rfl (resolve_module none)).trans ?_
    cbv
  refine ⟨?_, ?_, trivial⟩
  · rintro i ⟨⟩
    refine ⟨fun p hp => ?_, fun _ ix hi => ?_, fun _ _ _ _ _ _ _ _ _ _ => rfl⟩
    · rw [resolve_module] at hp
      cases hp
      decide
    · rw [h ix hi, hwrites]
      cbv
  · rintro i ⟨⟩
    exact ⟨blind_fresh _, fun ht => absurd rfl ht, fun _ _ hm => absurd hm List.not_mem_nil⟩

/-- Beside an index whose service is out of order, a module is written and a command run as if there were no index. -/
theorem outage_unseen_project :
    let r₁ := (onProject (some projectIndex)).serve (freshSetting.serving (some broken)) [true] twoCalls
    let r₂ := (onProject none).serve (freshSetting.serving none) [true] twoCalls
    r₁.2 = r₂.2 ∧ (∀ told ∈ r₁.2, ∃ t, told = some (.ok t)) ∧
      r₁.1.workspace.disk.outside = r₂.1.workspace.disk.outside ∧ r₁.1.workspace.graph = r₂.1.workspace.graph ∧
      (r₁.1.workspace.manifest (freshSetting.serving (some broken))).2 =
        (r₂.1.workspace.manifest (freshSetting.serving none)).2 :=
  outage_unseen Source.composes_usual grounds_project (secluded_project fun _ h => (Option.some.inj h).symm)
    (secluded_project fun _ h => by cases h) rfl (discreet_project (fun _ h => (Option.some.inj h).symm) _)
    (discreet_project (fun _ h => by cases h) _)

def listedAfterDeletion : List ToolCall := [.valid (.deleteFile "a.py"), .valid (.listDirectory "~/.codewright")]

/-- A listing of the own directory tells whether a store was saved. -/
theorem store_listed :
    projectIndex.Placed freshHome project ∧
    Store.Savable ((onProject (some projectIndex)).workspace.effect freshSetting (.deleteFile "a.py"))
      projectIndex.file ∧
    ((onProject (some projectIndex)).serve (freshSetting.serving (some broken)) [] listedAfterDeletion).2 ≠
      ((onProject none).serve (freshSetting.serving none) [] listedAfterDeletion).2 := by
  refine ⟨placed_project, ?_, ?_⟩
  · have hdeleted : (onProject (some projectIndex)).workspace.effect freshSetting (.deleteFile "a.py") =
        freshDisk.erase ["w", "a.py"] := by cbv
    have hsaved : (Store.save {} (freshDisk.erase ["w", "a.py"]) projectIndex.file).2 = .ok () := by cbv
    have hreserved : (freshDisk.erase ["w", "a.py"]).Reserved freshHome := reserved_fresh.erase (by decide)
    rw [placed_project.file] at hsaved ⊢
    rw [hdeleted]
    exact Store.savable_of_save hreserved (by decide) hsaved
  · have hindexed : ((onProject (some projectIndex)).serve (freshSetting.serving (some broken)) []
        listedAfterDeletion).2 = [some (.ok "Deleted: a.py"), some (.ok "DIR  index")] := by cbv
    have hplain : ((onProject none).serve (freshSetting.serving none) [] listedAfterDeletion).2 =
        [some (.ok "Deleted: a.py"),
          some (.ok "ERROR (list_directory): Directory not found: ~/.codewright")] := by cbv
    rw [hindexed, hplain]
    intro h
    simp only [List.cons.injEq, Option.some.injEq, Except.ok.injEq, true_and, and_true] at h
    exact absurd h (by decide)

end Bench
end CodeAgent
