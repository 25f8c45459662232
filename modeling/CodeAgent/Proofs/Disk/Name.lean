import CodeAgent.Proofs.Disk.Walk
import CodeAgent.Proofs.Text.Lines
import Mathlib.Data.List.TakeDrop
import Mathlib.Data.List.TakeWhile

namespace CodeAgent

namespace Path

/-- A component as it stands in a written path. -/
structure IsPart (part : Text) : Prop where
  nonempty : part ≠ []
  notDot : part ≠ ("." : Text)
  noSlash : slash ∉ part

instance (part : Text) : Decidable (IsPart part) :=
  decidable_of_iff (part ≠ [] ∧ part ≠ ("." : Text) ∧ slash ∉ part)
    ⟨fun h => ⟨h.1, h.2.1, h.2.2⟩, fun h => ⟨h.nonempty, h.notDot, h.noSlash⟩⟩

theorem mem_ofText {t part : Text} (h : part ∈ (ofText t).parts) : IsPart part := by
  obtain ⟨hm, hk⟩ := List.mem_filter.mp h
  rw [keeps, Bool.and_eq_true, decide_eq_true_eq, decide_eq_true_eq] at hk
  exact ⟨hk.1, hk.2, Text.not_mem_of_mem_splitOn hm⟩

def IsRoot (root : Text) : Prop := root = [] ∨ root = [slash] ∨ root = [slash, slash]

theorem ofText_root (t : Text) : IsRoot (ofText t).root := by
  unfold ofText rootOf IsRoot
  dsimp only
  split <;> simp

/-- A path that was written down. -/
structure Written (p : Path) : Prop where
  root : IsRoot p.root
  parts : ∀ part ∈ p.parts, IsPart part

theorem written_ofText (t : Text) : (ofText t).Written := ⟨ofText_root t, fun _ h => mem_ofText h⟩

theorem filter_keeps {parts : List Text} (h : ∀ part ∈ parts, IsPart part) : parts.filter keeps = parts := by
  rw [List.filter_eq_self]
  intro part hp
  obtain ⟨h1, h2, -⟩ := h part hp
  simp [keeps, h1, h2]

theorem filter_splitOn_slash (t : Text) :
    (Text.splitOn slash (slash :: t)).filter keeps = (Text.splitOn slash t).filter keeps := by
  rw [Text.splitOn, if_pos rfl, List.filter_cons_of_neg (by simp [keeps])]

/-- Slashes in front are the root, and only they. -/
theorem ofText_append {root t : Text} (hr : IsRoot root) (ht : t.head? ≠ some slash) :
    ofText (root ++ t) = ⟨root, (Text.splitOn slash t).filter keeps⟩ := by
  have hnone : t.takeWhile (· = slash) = [] := by
    cases t with
    | nil => rfl
    | cons c r =>
      have hc : c ≠ slash := fun he => ht (congrArg some he)
      simp [hc]
  unfold ofText rootOf
  rcases hr with rfl | rfl | rfl
  · simp [hnone]
  · simp [hnone, filter_splitOn_slash]
  · simp [hnone, filter_splitOn_slash]

/-- Joined components start with no slash. -/
theorem head?_joinWith {parts : List Text} (h : ∀ part ∈ parts, IsPart part) :
    (Text.joinWith [slash] parts).head? ≠ some slash := by
  cases parts with
  | nil => simp [Text.joinWith]
  | cons part rest =>
    obtain ⟨hne, -, hslash⟩ := h part List.mem_cons_self
    cases part with
    | nil => exact absurd rfl hne
    | cons c r =>
      have hc : c ≠ slash := fun he => hslash (he ▸ List.mem_cons_self)
      cases rest with
      | nil => simpa [Text.joinWith] using hc
      | cons next rest => simpa [Text.joinWith] using hc

/-- What a path is written as is read as that path. -/
theorem Written.ofText_text {p : Path} (h : p.Written) : ofText p.text = p := by
  obtain ⟨root, parts⟩ := p
  obtain ⟨hroot, hparts⟩ := h
  dsimp only at hroot hparts
  cases parts with
  | nil =>
    rcases hroot with rfl | rfl | rfl <;> decide
  | cons part rest =>
    have hhead := head?_joinWith hparts
    have htext : text ⟨root, part :: rest⟩ = root ++ Text.joinWith [slash] (part :: rest) := by
      rcases hroot with rfl | rfl | rfl <;> rfl
    rw [htext, ofText_append hroot hhead,
      Text.splitOn_joinWith (fun q hq => (hparts q hq).noSlash) (List.cons_ne_nil part rest),
      filter_keeps hparts]

/-- Cut at the slashes behind its root, an absolute path gives its components. -/
theorem Written.splitOn_text {p : Path} (h : p.Written) (habsolute : p.isAbsolute = true) (hne : p.parts ≠ []) :
    Text.splitOn slash (p.text.dropWhile (· = slash)) = p.parts := by
  obtain ⟨root, parts⟩ := p
  obtain ⟨hroot, hparts⟩ := h
  dsimp only at hroot hparts hne ⊢
  have hdrop : (Text.joinWith [slash] parts).dropWhile (· = slash) = Text.joinWith [slash] parts := by
    have hhead := head?_joinWith hparts
    cases hj : Text.joinWith [slash] parts with
    | nil => rfl
    | cons c r =>
      rw [hj] at hhead
      exact List.dropWhile_cons_of_neg (by simpa using hhead)
  have htext : (text ⟨root, parts⟩).dropWhile (· = slash) = Text.joinWith [slash] parts := by
    rcases hroot with rfl | rfl | rfl
    · cases habsolute
    · simpa [text] using hdrop
    · simpa [text] using hdrop
  rw [htext]
  exact Text.splitOn_joinWith (fun part hm => (hparts part hm).noSlash) hne

end Path

namespace Disk

variable {d : Disk} {x y at_ : Place} {t : Text}

def IsAccepted (t : Text) : Prop := ∀ c ∈ t, c.val ≠ 0 ∧ (c.isSurrogate = true → isEscapedByte c = true)

instance (t : Text) : Decidable (IsAccepted t) := inferInstanceAs (Decidable (∀ c ∈ t, _))

theorem encode_ok_iff (t : Text) :
    (∃ bytes, Utf8.encode t = .ok bytes) ↔ ∀ c ∈ t, c.isSurrogate = false := by
  unfold Utf8.encode
  rw [List.span_eq_takeWhile_dropWhile]
  cases hd : t.dropWhile (!·.isSurrogate) with
  | nil =>
    rw [List.dropWhile_eq_nil_iff] at hd
    simpa using hd
  | cons c r =>
    have hne : ¬ ∀ c ∈ t, (!c.isSurrogate) = true := by
      rw [← List.dropWhile_eq_nil_iff, hd]
      exact List.cons_ne_nil c r
    simpa using hne

/-- Bytes that are no text stand in a name as surrogates of their own; other surrogates cannot stand in it. -/
theorem checkText_ok_iff (t : Text) : checkText t = .ok () ↔ IsAccepted t := by
  have hencode := encode_ok_iff (t.map fun c => if isEscapedByte c then default else c)
  have hreplaced : (∀ c ∈ t.map fun c => if isEscapedByte c then default else c, c.isSurrogate = false) ↔
      ∀ c ∈ t, c.isSurrogate = true → isEscapedByte c = true := by
    rw [List.forall_mem_map]
    refine forall₂_congr fun c _ => ?_
    by_cases he : isEscapedByte c = true
    · simp only [he, ↓reduceIte, implies_true, iff_true]
      decide
    · simp [he]
  rw [hreplaced] at hencode
  unfold checkText IsAccepted
  cases hb : Utf8.encode (t.map fun c => if isEscapedByte c then default else c) with
  | error fault =>
    rw [hb] at hencode
    have hnot : ¬ ∀ c ∈ t, c.isSurrogate = true → isEscapedByte c = true := by
      rw [← hencode]
      rintro ⟨bytes, hbytes⟩
      cases hbytes
    simp only [reduceCtorEq, false_iff]
    exact fun h => hnot fun c hc => (h c hc).2
  | ok bytes =>
    have hall := hencode.mp ⟨bytes, hb⟩
    dsimp only
    split
    · rename_i hnul
      simp only [reduceCtorEq, false_iff]
      intro h
      obtain ⟨c, hc, hv⟩ := List.any_eq_true.mp hnul
      exact (h c hc).1 (by simpa using hv)
    · rename_i hnul
      simp only [true_iff]
      intro c hc
      refine ⟨fun hv => hnul (List.any_eq_true.mpr ⟨c, hc, by simpa using hv⟩), hall c hc⟩

/-- The names in a path are accepted with its text. -/
theorem accepted_of_checkPath {p : Path} (h : checkPath p = .ok ()) : ∀ part ∈ p.parts, IsAccepted part := by
  obtain ⟨root, parts⟩ := p
  have htext := (checkText_ok_iff _).mp h
  intro part hm c hc
  refine htext c ?_
  unfold Path.text
  split
  · rename_i hparts
    rw [show parts = [] from hparts] at hm
    cases hm
  · exact List.mem_append_right _ (Text.subset_joinWith hm hc)

/-- An absolute path is accepted just if its components are. -/
theorem checkPath_ok_iff (x : Place) :
    checkPath ⟨[Path.slash], x⟩ = .ok () ↔ ∀ part ∈ x, IsAccepted part := by
  rw [checkPath, checkText_ok_iff]
  change IsAccepted ([Path.slash] ++ Text.joinWith [Path.slash] x) ↔ _
  have hslash : Path.slash.val ≠ 0 ∧ (Path.slash.isSurrogate = true → isEscapedByte Path.slash = true) := by
    decide
  constructor
  · exact fun h part hp c hc => h c (List.mem_append_right _ (Text.subset_joinWith hp hc))
  · intro h c hc
    rw [List.singleton_append, List.mem_cons] at hc
    rcases hc with rfl | hc
    · exact hslash
    · rcases Text.mem_joinWith hc with hc | ⟨part, hp, hc⟩
      · exact List.mem_singleton.mp hc ▸ hslash
      · exact h part hp c hc

/-- A component that is the name of an entry. -/
structure IsName (name : Text) : Prop extends Path.IsPart name where
  notUp : name ≠ (".." : Text)

/-- A place that resolving gives: its names are names, and the system can be asked about it. -/
structure Clean (x : Place) : Prop where
  names : ∀ name ∈ x, IsName name
  accepted : ∀ name ∈ x, IsAccepted name

instance (name : Text) : Decidable (IsName name) :=
  decidable_of_iff (Path.IsPart name ∧ name ≠ (".." : Text))
    ⟨fun h => ⟨h.1, h.2⟩, fun h => ⟨h.toIsPart, h.notUp⟩⟩

instance (x : Place) : Decidable (Clean x) :=
  decidable_of_iff ((∀ name ∈ x, IsName name) ∧ ∀ name ∈ x, IsAccepted name)
    ⟨fun h => ⟨h.1, h.2⟩, fun h => ⟨h.names, h.accepted⟩⟩

theorem kept_clean (d : Disk) : Kept d Path.IsPart Clean where
  root := ⟨by simp, by simp⟩
  up x h := ⟨fun name hm => h.names name (List.dropLast_subset x hm),
    fun name hm => h.accepted name (List.dropLast_subset x hm)⟩
  down x name h hp hn hc _ := by
    refine ⟨?_, (checkPath_ok_iff _).mp hc⟩
    intro part hm
    rcases List.mem_append.mp hm with hm | hm
    · exact h.names part hm
    · obtain rfl := List.mem_singleton.mp hm
      exact ⟨hp, hn⟩
  target _ _ _ _ h := Path.mem_ofText h

section
variable (enter : Place → Place → List Text → Except Stuck Place) {name : Text} {rest : List Text}

/-- Where no link stands, one name more is refused for its text or for nothing. -/
theorem rewrite_plain_cons (h : d.Plain (at_ ++ name :: rest)) (hat : ∀ name ∈ at_, IsAccepted name) :
    (IsAccepted name ∧ rewrite d enter at_ (name :: rest) = rewrite d enter (at_ ++ [name]) rest) ∨
    (¬ IsAccepted name ∧ ∃ fault, rewrite d enter at_ (name :: rest) = .error (.refused fault) ∧
      fault.refusesText = true) := by
  have hup : name ≠ (".." : Text) := by
    rintro rfl
    exact h.noDots (by simp)
  have hhere : d.Plain (at_ ++ [name]) := h.of_prefix ⟨rest, by simp⟩
  have haccepted : checkPath ⟨[Path.slash], at_ ++ [name]⟩ = .ok () ↔ IsAccepted name := by
    rw [checkPath_ok_iff]
    constructor
    · exact fun hall => hall name (by simp)
    · intro hn part hp
      rcases List.mem_append.mp hp with hp | hp
      · exact hat part hp
      · exact List.mem_singleton.mp hp ▸ hn
  rw [rewrite, if_neg hup]
  dsimp only
  cases hc : checkPath ⟨[Path.slash], at_ ++ [name]⟩ with
  | error fault =>
    refine Or.inr ⟨fun hn => ?_, fault, rfl, checkText_error hc⟩
    rw [haccepted.mpr hn] at hc
    cases hc
  | ok _ =>
    refine Or.inl ⟨haccepted.mp hc, ?_⟩
    dsimp only
    split
    · rename_i target hl
      exact absurd hl (hhere.noLink _ List.prefix_rfl target)
    · rfl

/-- A path without links is its own resolution, or has a name that the system refuses. -/
theorem rewrite_plain (h : d.Plain (at_ ++ rest)) (hat : ∀ name ∈ at_, IsAccepted name) :
    ((∀ name ∈ rest, IsAccepted name) ∧ rewrite d enter at_ rest = .ok (at_ ++ rest)) ∨
    (¬ (∀ name ∈ rest, IsAccepted name) ∧ ∃ fault, rewrite d enter at_ rest = .error (.refused fault) ∧
      fault.refusesText = true) := by
  induction rest generalizing at_ with
  | nil => exact Or.inl ⟨by simp, by simp [rewrite]⟩
  | cons name rest ih =>
    rcases rewrite_plain_cons enter h hat with ⟨hn, hr⟩ | ⟨hn, hr⟩
    · have hhere : ∀ part ∈ at_ ++ [name], IsAccepted part := by
        intro part hp
        rcases List.mem_append.mp hp with hp | hp
        · exact hat part hp
        · exact List.mem_singleton.mp hp ▸ hn
      have hlist : at_ ++ name :: rest = at_ ++ [name] ++ rest := by simp
      rw [hlist] at h
      rw [hr, hlist, List.forall_mem_cons]
      simpa only [hn, true_and] using ih h hhere
    · exact Or.inr ⟨fun hall => hn (hall name List.mem_cons_self), hr⟩

end

/-- Links change how a path is rewritten, and nothing else of a disk does. -/
def Linkless (d : Disk) : Prop := ∀ x target, d.lookup? x ≠ some (.link target)

def isLink : Entry → Bool
  | .link _ => true
  | _ => false

theorem linkless_of_entries (h : ∀ entry ∈ d.entries, isLink entry.2 = false) : d.Linkless := by
  intro x target hl
  by_cases hx : x = []
  · subst hx
    cases hl
  · cases h _ (mem_of_lookup? hl hx)

/-- Without links the resolution of a path does not depend on the disk. -/
theorem rewrite_linkless {d' : Disk} (h : d.Linkless) (h' : d'.Linkless)
    (enter enter' : Place → Place → List Text → Except Stuck Place) (at_ : Place) (rest : List Text) :
    rewrite d enter at_ rest = rewrite d' enter' at_ rest := by
  induction rest generalizing at_ with
  | nil => rfl
  | cons name rest ih =>
    unfold rewrite
    split
    · exact ih _
    · dsimp only
      split
      · rfl
      · split
        · rename_i target hl
          exact absurd hl (h _ target)
        · split
          · rename_i target hl
            exact absurd hl (h' _ target)
          · exact ih _

theorem resolve_linkless {d' : Disk} (h : d.Linkless) (h' : d'.Linkless) (p : Path) :
    d.resolve p = d'.resolve p := by
  have hsame : rewriteLinks d d.entries.length [] [] p.parts =
      rewriteLinks d' d'.entries.length [] [] p.parts := by
    cases d.entries.length <;> cases d'.entries.length <;> exact rewrite_linkless h h' _ _ [] p.parts
  unfold resolve
  rw [hsame]

/-- Without links every path of accepted names is resolved. -/
theorem rewrite_of_accepted (h : d.Linkless) (enter : Place → Place → List Text → Except Stuck Place)
    {at_ : Place} {rest : List Text} (hat : ∀ name ∈ at_, IsAccepted name) (hrest : ∀ name ∈ rest, IsAccepted name) :
    ∃ place, rewrite d enter at_ rest = .ok place := by
  induction rest generalizing at_ with
  | nil => exact ⟨at_, rfl⟩
  | cons name rest ih =>
    obtain ⟨hname, hrest⟩ := List.forall_mem_cons.mp hrest
    rw [rewrite]
    split
    · exact ih (fun name hm => hat name (List.dropLast_subset at_ hm)) hrest
    · have hhere : ∀ part ∈ at_ ++ [name], IsAccepted part := by
        intro part hm
        rcases List.mem_append.mp hm with hm | hm
        · exact hat part hm
        · exact List.mem_singleton.mp hm ▸ hname
      simp only [(checkPath_ok_iff _).mpr hhere]
      split
      · rename_i target hl
        exact absurd hl (h _ target)
      · exact ih hhere hrest

/-- Where no link stands, every path is resolved whose text is not refused. -/
theorem resolve_of_accepted {p : Path} (h : d.Linkless) (hp : ∀ name ∈ p.parts, IsAccepted name) :
    ∃ q, d.resolve p = .ok q := by
  have hnone : ∀ name ∈ ([] : Place), IsAccepted name := by simp
  unfold resolve
  cases d.entries.length with
  | zero =>
    obtain ⟨place, hr⟩ := rewrite_of_accepted h (fun link _ _ => .error (.circular link)) hnone hp
    exact ⟨⟨[Path.slash], place⟩, by rw [rewriteLinks, hr]⟩
  | succ n =>
    obtain ⟨place, hr⟩ := rewrite_of_accepted h (fun link start way =>
      if link ∈ [] then .error (.circular link) else rewriteLinks d n [link] start way) hnone hp
    exact ⟨⟨[Path.slash], place⟩, by rw [rewriteLinks, hr]⟩

/-- A path that crosses no link stays as it is, unless its text is refused. -/
theorem resolve_plain (root : Text) (h : d.Plain x) :
    ((∀ name ∈ x, IsAccepted name) ∧ d.resolve ⟨root, x⟩ = .ok ⟨[Path.slash], x⟩) ∨
    (¬ (∀ name ∈ x, IsAccepted name) ∧ ∃ fault, d.resolve ⟨root, x⟩ = .error fault ∧
      fault.refusesText = true) := by
  have hstart : d.Plain ([] ++ x) := h
  have hlinks : ∃ enter, rewriteLinks d d.entries.length [] [] x = rewrite d enter [] x := by
    cases d.entries.length with
    | zero => exact ⟨_, rfl⟩
    | succ n => exact ⟨_, rfl⟩
  obtain ⟨enter, henter⟩ := hlinks
  unfold resolve
  rcases rewrite_plain enter hstart (by simp) with ⟨ha, hr⟩ | ⟨ha, fault, hr, hf⟩
  · exact Or.inl ⟨ha, by rw [henter, hr]; rfl⟩
  · exact Or.inr ⟨ha, fault, by rw [henter, hr], hf⟩

theorem kept_accepted (d : Disk) : Kept d (fun _ => True) (fun x => ∀ name ∈ x, IsAccepted name) where
  root := by simp
  up x h name hm := h name (List.dropLast_subset x hm)
  down _ _ _ _ _ hc _ := (checkPath_ok_iff _).mp hc
  target _ _ _ _ _ := trivial

theorem resolve_accepted (h : d.Plain x) (hx : ∀ name ∈ x, IsAccepted name) (start : Text) :
    d.resolve ⟨start, x⟩ = .ok ⟨[Path.slash], x⟩ := by
  rcases resolve_plain start h with ⟨-, hr⟩ | ⟨hnot, -⟩
  · exact hr
  · exact absurd hx hnot

/-- A resolved path resolves to itself. -/
theorem resolve_idem {p q : Path} (h : d.resolve p = .ok q) : d.resolve q = .ok q := by
  obtain ⟨hplain, hroot⟩ := Resolved.cases ⟨p, h⟩
  obtain ⟨haccepted, -⟩ := (kept_accepted d).resolve (fun _ _ => trivial) h
  obtain ⟨start, parts⟩ := q
  obtain rfl : start = [Path.slash] := hroot
  exact resolve_accepted hplain haccepted _

end Disk
end CodeAgent
