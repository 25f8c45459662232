import CodeAgent.Agent.Wire
import CodeAgent.Host.Usual
import CodeAgent.Proofs.Agent.Reply
import CodeAgent.Proofs.Json.RoundTrip

namespace CodeAgent

namespace Json

variable {fields : List (Text × Json)} {names : List Text} {k t : Text} {v : Json}

/-- Code points of which none is the half of a pair or stands for one. -/
def IsAscii (t : Text) : Prop := ∀ c ∈ t, c.val < 128

instance (t : Text) : Decidable (IsAscii t) := inferInstanceAs (Decidable (∀ c ∈ t, c.val < 128))

theorem IsAscii.encodable (h : IsAscii t) : Utf8.Encodable t := by
  intro c hc
  have hlt := h c hc
  simp only [CodePoint.isSurrogate, Bool.and_eq_false_iff, decide_eq_false_iff_not]
  omega

theorem le_val_joinSurrogates {high low : Nat} (hh : isHighSurrogate high) (hl : isLowSurrogate low) :
    0x10000 ≤ (joinSurrogates high low).val := by
  have hh := isHighSurrogate_iff.mp hh
  have hl := isLowSurrogate_iff.mp hl
  have hlt : 0x10000 + (high - 0xd800) * 0x400 + (low - 0xdc00) < 0x110000 := by omega
  rw [joinSurrogates, CodePoint.ofNat, dif_pos hlt]
  exact Nat.le_trans (Nat.le_add_right _ _) (Nat.le_add_right _ _)

/-- Only an ASCII text comes back as an ASCII text. -/
theorem joinPairs_eq_iff (hk : IsAscii k) : joinPairs t = k ↔ t = k := by
  constructor
  · fun_induction joinPairs t generalizing k with
    | case1 => exact id
    | case2 => exact id
    | case3 c d r hpair =>
      rintro rfl
      obtain ⟨hc, hd⟩ := (Bool.and_eq_true _ _).mp hpair
      have hlow := hk _ List.mem_cons_self
      have hle := le_val_joinSurrogates hc hd
      omega
    | case4 c d r _ ih =>
      rintro rfl
      rw [← ih (fun e he => hk e (List.mem_cons_of_mem c he)) rfl]
  · rintro rfl
    exact joinPairs_eq_self hk.encodable

/-- The value of a key comes back under the key. -/
theorem lookup_reread (hn : (Table.keys fields).Nodup) (hk : IsAscii k) :
    lookup k (ofPairs (rereadFields fields)) = (lookup k fields).map reread := by
  have hreread (fs : List (Text × Json)) : lookup k (rereadFields fs) = (lookup k fs).map reread := by
    induction fs with
    | nil => rfl
    | cons f rest ih =>
      obtain ⟨k', v⟩ := f
      simp only [rereadFields, lookup, Table.get?, joinPairs_eq_iff hk]
      split
      · rfl
      · exact ih
  have hreverse : (rereadFields fields).reverse = rereadFields fields.reverse := by
    have hmap (fs : List (Text × Json)) : rereadFields fs = fs.map fun f => (joinPairs f.1, reread f.2) := by
      induction fs with
      | nil => rfl
      | cons f rest ih => rw [rereadFields, ih, List.map_cons]
    rw [hmap, hmap, List.map_reverse]
  rw [lookup, ofPairs, Table.get?_ofPairs, hreverse, ← lookup, hreread, lookup, Table.get?_reverse hn]

/-- A value under exactly one of the names that it can have. -/
def Under (names : List Text) (fields : List (Text × Json)) (v : Json) : Prop :=
  ∃ n ∈ names, lookup n fields = some v ∧ ∀ m ∈ names, m ≠ n → lookup m fields = none

/-- A value that may be missing: then it is left out or null. -/
def Optionally (name : Text) (fields : List (Text × Json)) : Option Json → Prop
  | some v => lookup name fields = some v
  | none => lookup name fields = none ∨ lookup name fields = some .null

end Json

namespace Parameter

open Json

variable {α : Type} {read : Json → Checked α} {fields : List (Text × Json)} {names : List Text} {name : Text}
  {a : α} {v : Json} {t : Text}

theorem required_reread (hn : (Table.keys fields).Nodup) (hnames : ∀ n ∈ names, IsAscii n) (hv : Under names fields v)
    (hread : read v.reread = .ok a) : required names read (ofPairs (rereadFields fields)) = .ok a := by
  obtain ⟨n, hmem, hsome, hnone⟩ := hv
  obtain ⟨before, after, rfl, hbefore⟩ := List.eq_append_cons_of_mem hmem
  refine required_eq_ok.mpr ⟨n, v.reread, List.findSome?_eq_some_iff.mpr ⟨before, n, after, rfl, ?_, ?_⟩, hread⟩
  · rw [lookup_reread hn (hnames n hmem), hsome]
    rfl
  · intro m hm
    have hne : m ≠ n := by
      rintro rfl
      exact hbefore hm
    have hm : m ∈ before ++ n :: after := List.mem_append_left _ hm
    rw [lookup_reread hn (hnames m hm), hnone m hm hne]
    rfl

/-- An optional field is read back, whether it was written, left out or null. -/
theorem withDefault_reread {o : Option α} {w : α → Json} (hn : (Table.keys fields).Nodup) (hname : IsAscii name)
    (ho : Optionally name fields (o.map w))
    (hread : ∀ a, o = some a → (w a).reread ≠ .null ∧ read (w a).reread = .ok a) :
    withDefault none name (optional read) (ofPairs (rereadFields fields)) = .ok o := by
  refine withDefault_eq_ok.mpr ?_
  rw [lookup_reread hn hname]
  cases o with
  | none =>
    obtain h | h := ho
    · exact Or.inl ⟨by rw [h]; rfl, rfl⟩
    · exact Or.inr ⟨.null, by rw [h]; rfl, optional_eq_ok.mpr (Or.inl ⟨rfl, rfl⟩)⟩
  | some a =>
    obtain ⟨hne, hok⟩ := hread a rfl
    have hsome : lookup name fields = some (w a) := ho
    exact Or.inr ⟨(w a).reread, by rw [hsome]; rfl, optional_eq_ok.mpr (Or.inr ⟨hne, a, hok, rfl⟩)⟩

theorem nonEmptyList_reread {as : List α} {items : List Json} (hne : as ≠ [])
    (hread : List.Forall₂ (fun a v => read v.reread = .ok a) as items) :
    nonEmptyList read (Json.arr items).reread = .ok as := by
  refine nonEmptyList_eq_ok.mpr ⟨rereadItems items, rfl, ?_, ?_⟩
  · rw [rereadItems_eq]
    rintro he
    rw [List.map_eq_nil_iff] at he
    subst he
    exact hne (List.forall₂_nil_right_iff.mp hread)
  · rw [rereadItems_eq, List.forall₂_map_left_iff]
    exact hread.flip

theorem string_reread (ht : Utf8.Encodable t) : string (Json.str t).reread = .ok t := by
  rw [reread, joinPairs_eq_self ht]
  rfl

theorem nonEmptyString_reread (ht : Utf8.Encodable t) (hne : t ≠ []) : nonEmptyString (Json.str t).reread = .ok t := by
  rw [reread, joinPairs_eq_self ht]
  exact nonEmptyString_eq_ok.mpr ⟨rfl, ht, hne⟩

theorem atLeast_reread {least n : Nat} (h : least ≤ n) : atLeast least (Json.int n).reread = .ok n :=
  atLeast_eq_ok.mpr ⟨n, rfl, Int.ofNat_le.mpr h, rfl⟩

theorem text_reread (hn : (Table.keys fields).Nodup) (hnames : ∀ n ∈ names, IsAscii n)
    (hu : Under names fields (.str t)) (ht : Utf8.Encodable t) :
    required names string (ofPairs (rereadFields fields)) = .ok t :=
  required_reread hn hnames hu (string_reread ht)

theorem number_reread {least n : Nat} (hn : (Table.keys fields).Nodup) (hnames : ∀ n ∈ names, IsAscii n)
    (hu : Under names fields (.int n)) (hle : least ≤ n) :
    required names (atLeast least) (ofPairs (rereadFields fields)) = .ok n :=
  required_reread hn hnames hu (atLeast_reread hle)

theorem limit_reread {least : Nat} {o : Option Nat} (hn : (Table.keys fields).Nodup) (hname : IsAscii name)
    (ho : Optionally name fields (o.map fun n : Nat => .int n)) (hle : ∀ n, o = some n → least ≤ n) :
    withDefault none name (optional (atLeast least)) (ofPairs (rereadFields fields)) = .ok o :=
  withDefault_reread (w := fun n : Nat => .int n) hn hname ho fun n hn => ⟨by rintro ⟨⟩, atLeast_reread (hle n hn)⟩

/-- A list whose items stand for values comes back as the list of these values. -/
theorem list_reread {stands : α → Json → Prop} {texts : α → List Text} {as : List α} {items : List Json}
    (hn : (Table.keys fields).Nodup) (hnames : ∀ n ∈ names, IsAscii n) (hu : Under names fields (.arr items))
    (hne : as ≠ []) (hw : List.Forall₂ stands as items) (ht : ∀ t ∈ as.flatMap texts, Utf8.Encodable t)
    (hread : ∀ a v, stands a v → (∀ t ∈ texts a, Utf8.Encodable t) → read v.reread = .ok a) :
    required names (nonEmptyList read) (ofPairs (rereadFields fields)) = .ok as := by
  have hown : ∀ a ∈ as, ∀ t ∈ texts a, Utf8.Encodable t :=
    fun a ha t hm => ht t (List.mem_flatMap.mpr ⟨a, ha, hm⟩)
  have hitems : List.Forall₂ (fun a v => read v.reread = .ok a) as items :=
    ((List.forall₂_and_left _ _).mpr ⟨hown, hw⟩).imp fun a v h => hread a v h.2 h.1
  exact required_reread hn hnames hu (nonEmptyList_reread hne hitems)

end Parameter

open Json Parameter

variable {fields : List (Text × Json)} {v : Json}

def Edit.Written (e : Edit) (v : Json) : Prop :=
  ∃ fields, v = .obj fields ∧ (Table.keys fields).Nodup ∧ Under ["search"] fields (.str e.search) ∧
    Under ["replace", "replacement"] fields (.str e.replacement)

theorem Edit.Written.read {e : Edit} (h : e.Written v) (ht : ∀ t ∈ [e.search, e.replacement], Utf8.Encodable t) :
    edit v.reread = .ok e := by
  obtain ⟨fields, rfl, hn, hsearch, hreplace⟩ := h
  exact Checked.both_ok (text_reread hn (by decide) hsearch (ht _ (by simp)))
    (text_reread hn (by decide) hreplace (ht _ (by simp)))

def DiffChange.Written (c : DiffChange) (v : Json) : Prop :=
  ∃ fields, v = .obj fields ∧ (Table.keys fields).Nodup ∧ Under ["path"] fields (.str c.path) ∧
    Under ["diff"] fields (.str c.diff)

theorem DiffChange.Written.read {c : DiffChange} (h : c.Written v) (ht : ∀ t ∈ [c.path, c.diff], Utf8.Encodable t) :
    diffChange v.reread = .ok c := by
  obtain ⟨fields, rfl, hn, hpath, hdiff⟩ := h
  exact Checked.both_ok (text_reread hn (by decide) hpath (ht _ (by simp)))
    (text_reread hn (by decide) hdiff (ht _ (by simp)))

namespace Invocation

def texts : Invocation → List Text
  | .showFile path | .listDirectory path | .deleteFile path | .createDirectory path => [path]
  | .writeFile path content | .replaceLines path _ _ content | .insertCode path _ content => [path, content]
  | .editFile path edits => path :: edits.flatMap fun e => [e.search, e.replacement]
  | .searchFiles pattern include? => pattern :: include?.toList
  | .runCommand command => [command]
  | .validateProject | .runTests => []
  | .applyDiffs changes => changes.flatMap fun c => [c.path, c.diff]
  | .getBlastRadius path _ => [path]
  | .semanticSearch query _ => [query]

/-- The fields of an object hold the parameters of a call. -/
def Parameters (fields : List (Text × Json)) : Invocation → Prop
  | .showFile path | .deleteFile path | .createDirectory path => Under ["path"] fields (.str path)
  | .writeFile path content => Under ["path"] fields (.str path) ∧ Under ["content"] fields (.str content)
  | .editFile path edits =>
    Under ["path"] fields (.str path) ∧ ∃ items, Under ["edits"] fields (.arr items) ∧
      List.Forall₂ Edit.Written edits items
  | .replaceLines path first last content =>
    Under ["path"] fields (.str path) ∧ Under ["startLine", "start_line"] fields (.int first) ∧
      Under ["endLine", "end_line"] fields (.int last) ∧ Under ["content"] fields (.str content)
  | .insertCode path line content =>
    Under ["path"] fields (.str path) ∧ Under ["line"] fields (.int line) ∧ Under ["content"] fields (.str content)
  | .listDirectory path => Under ["path"] fields (.str path) ∨ path = [] ∧ lookup "path" fields = none
  | .searchFiles pattern include? =>
    Under ["pattern"] fields (.str pattern) ∧ Optionally "include" fields (include?.map .str)
  | .runCommand command => Under ["command"] fields (.str command)
  | .validateProject | .runTests => True
  | .applyDiffs changes =>
    ∃ items, Under ["changes"] fields (.arr items) ∧ List.Forall₂ DiffChange.Written changes items
  | .getBlastRadius path depth? =>
    Under ["path"] fields (.str path) ∧ Optionally "depth" fields (depth?.map fun n : Nat => .int n)
  | .semanticSearch query limit? =>
    Under ["query"] fields (.str query) ∧ Optionally "limit" fields (limit?.map fun n : Nat => .int n)

/-- An object stands for a call: no key comes twice, the tool is named, and every parameter stands under one of
its names. The order of the keys and what all other keys hold are free. -/
structure Written (i : Invocation) (fields : List (Text × Json)) : Prop where
  keys : (Table.keys fields).Nodup
  tool : lookup "tool" fields = some (.str i.kind.name)
  parameters : i.Parameters fields

variable {i : Invocation}

/-- The parameters of a call are read from every object that stands for the call. -/
theorem Written.read (h : i.Written fields) (hv : i.Valid) (ht : ∀ t ∈ i.texts, Utf8.Encodable t) :
    Invocation.read i.kind (ofPairs (rereadFields fields)) = .ok i := by
  obtain ⟨hn, -, hp⟩ := h
  cases i with
  | showFile path | deleteFile path | createDirectory path =>
    exact Checked.map_eq_ok.mpr ⟨path, text_reread hn (by decide) hp (ht path (by simp [texts])), rfl⟩
  | writeFile path content =>
    obtain ⟨hpath, hcontent⟩ := hp
    exact Checked.both_ok (text_reread hn (by decide) hpath (ht path (by simp [texts])))
      (text_reread hn (by decide) hcontent (ht content (by simp [texts])))
  | editFile path edits =>
    obtain ⟨hpath, items, hitems, hedits⟩ := hp
    exact Checked.both_ok (text_reread hn (by decide) hpath (ht path (by simp [texts])))
      (list_reread hn (by decide) hitems hv hedits (fun t hm => ht t (List.mem_cons_of_mem path hm))
        fun e v => Edit.Written.read)
  | replaceLines path first last content =>
    obtain ⟨hpath, hfirst, hlast, hcontent⟩ := hp
    have hlines := Checked.both_ok (f := Prod.mk) (number_reread hn (by decide) hfirst hv.1)
      (number_reread hn (by decide) hlast hv.2)
    have hplace := Checked.both_ok (f := Prod.mk) (text_reread hn (by decide) hpath (ht path (by simp [texts]))) hlines
    exact Checked.both_ok hplace (text_reread hn (by decide) hcontent (ht content (by simp [texts])))
  | insertCode path line content =>
    obtain ⟨hpath, hline, hcontent⟩ := hp
    have hplace := Checked.both_ok (f := Prod.mk) (text_reread hn (by decide) hpath (ht path (by simp [texts])))
      (number_reread hn (by decide) hline (Nat.zero_le line))
    exact Checked.both_ok hplace (text_reread hn (by decide) hcontent (ht content (by simp [texts])))
  | listDirectory path =>
    refine Checked.map_eq_ok.mpr ⟨path, withDefault_eq_ok.mpr ?_, rfl⟩
    rw [lookup_reread hn (by decide)]
    obtain ⟨n, hmem, hpath, -⟩ | ⟨rfl, hnone⟩ := hp
    · rw [List.mem_singleton.mp hmem] at hpath
      exact Or.inr ⟨_, by rw [hpath]; rfl, string_reread (ht path (by simp [texts]))⟩
    · exact Or.inl ⟨by rw [hnone]; rfl, rfl⟩
  | searchFiles pattern include? =>
    obtain ⟨hpattern, hinclude⟩ := hp
    have hread : withDefault none "include" (optional string) (ofPairs (rereadFields fields)) = .ok include? :=
      withDefault_reread hn (by decide) hinclude fun t hsome =>
        ⟨by rintro ⟨⟩, string_reread (ht t (by simp [texts, hsome]))⟩
    exact Checked.both_ok (text_reread hn (by decide) hpattern (ht pattern (by simp [texts]))) hread
  | runCommand command =>
    exact Checked.map_eq_ok.mpr ⟨command,
      required_reread hn (by decide) hp (nonEmptyString_reread (ht command (by simp [texts])) hv), rfl⟩
  | validateProject | runTests => rfl
  | applyDiffs changes =>
    obtain ⟨items, hitems, hchanges⟩ := hp
    exact Checked.map_eq_ok.mpr ⟨changes,
      list_reread hn (by decide) hitems hv hchanges ht fun c v => DiffChange.Written.read, rfl⟩
  | getBlastRadius path depth? =>
    obtain ⟨hpath, hdepth⟩ := hp
    exact Checked.both_ok (text_reread hn (by decide) hpath (ht path (by simp [texts])))
      (limit_reread hn (by decide) hdepth fun n _ => Nat.zero_le n)
  | semanticSearch query limit? =>
    obtain ⟨hquery, hlimit⟩ := hp
    refine Checked.both_ok (text_reread hn (by decide) hquery (ht query (by simp [texts])))
      (limit_reread hn (by decide) hlimit ?_)
    rintro n rfl
    exact hv

theorem ofName?_name (kind : ToolKind) : ToolKind.ofName? kind.name = some kind := by
  cases kind <;> decide

/-- An object that stands for a call comes back as that call. -/
theorem Written.validate (h : i.Written fields) (hv : i.Valid) (ht : ∀ t ∈ i.texts, Utf8.Encodable t) :
    Reply.validate (ofPairs (rereadFields fields)) = .valid i := by
  have hascii : IsAscii i.kind.name := by cases i.kind <;> decide
  have hname : lookup "tool" (ofPairs (rereadFields fields)) = some (.str i.kind.name) := by
    rw [lookup_reread h.keys (by decide), h.tool, Option.map_some, reread, joinPairs_eq_self hascii.encodable]
  simp only [Reply.validate, hname, Option.getD_some, plain, ofName?_name, h.read hv ht]

end Invocation

section

variable [Host]

/-- The call that an object stands for comes back from any prose that has no brace to stretch it, just if the
brackets of the object, those of unknown keys included, are not nested too deeply for the reader. -/
theorem Reply.written_call_read {i : Invocation} {before after : Text} (hv : i.Valid)
    (ht : ∀ t ∈ i.texts, Utf8.Encodable t) (hw : i.Written fields) (hi : ReadableIntegers (integersFields fields))
    (hb : openBrace ∉ before) (ha : closeBrace ∉ after) :
    toolCall? (before ++ write (.obj fields) ++ after) =
      if (Json.obj fields).depth ≤ Host.jsonDepth then .ok (some (.valid i)) else .error .tooDeep := by
  have hobject : toolObject? (Json.obj fields).reread = some (ofPairs (rereadFields fields)) := by
    have hsome : (lookup "tool" (ofPairs (rereadFields fields))).isSome := by
      rw [lookup_reread hw.keys (by decide), hw.tool]
      rfl
    rw [reread, toolObject?, if_pos hsome]
  rw [toolCall?, callObject?_write hi hb ha]
  by_cases hdepth : (Json.obj fields).depth ≤ Host.jsonDepth
  · rw [if_pos hdepth, if_pos hdepth, hobject]
    simp only [bind, Except.bind, Option.map_some, hw.validate hv ht]
  · rw [if_neg hdepth, if_neg hdepth]
    rfl

end

attribute [local instance] Host.usual

/-- A call under other names, out of order, with an unknown key, and in prose. -/
theorem Reply.aliased_call_read :
    toolCall? ("Next: " ++ write (.obj [("endLine", .int 3), ("note", .arr [.null]), ("content", .str "\x7d\n"),
      ("start_line", .int 2), ("path", .str "a.py"), ("tool", .str "replace_lines")]) ++ "\nDone.") =
        .ok (some (.valid (.replaceLines "a.py" 2 3 "\x7d\n"))) := by
  have hvalid : (Invocation.replaceLines "a.py" 2 3 "\x7d\n").Valid := ⟨by decide, by decide⟩
  have htexts : ∀ t ∈ (Invocation.replaceLines "a.py" 2 3 "\x7d\n").texts, Utf8.Encodable t := by
    unfold Utf8.Encodable
    decide
  have hwritten : (Invocation.replaceLines "a.py" 2 3 "\x7d\n").Written [("endLine", .int 3), ("note", .arr [.null]),
      ("content", .str "\x7d\n"), ("start_line", .int 2), ("path", .str "a.py"), ("tool", .str "replace_lines")] :=
    ⟨by decide, rfl, ⟨"path", by decide, rfl, by decide⟩, ⟨"start_line", by decide, rfl, by decide⟩,
      ⟨"endLine", by decide, rfl, by decide⟩, ⟨"content", by decide, rfl, by decide⟩⟩
  have hintegers : ReadableIntegers (integersFields [("endLine", .int 3), ("note", .arr [.null]),
      ("content", .str "\x7d\n"), ("start_line", .int 2), ("path", .str "a.py"), ("tool", .str "replace_lines")]) := by
    exact readable_of_lt_ten (by decide)
  rw [written_call_read hvalid htexts hwritten hintegers (by decide) (by decide), if_pos (by decide)]

def Json.nested : Nat → Json
  | 0 => .arr []
  | n + 1 => .arr [nested n]

theorem Json.depth_nested (n : Nat) : (nested n).depth = n + 1 := by
  induction n with
  | zero => rfl
  | succ n ih => rw [nested, depth, depthItems, depthItems, ih, Nat.max_zero]

theorem Json.integers_nested (n : Nat) : (nested n).integers = [] := by
  induction n with
  | zero => rfl
  | succ n ih => rw [nested, integers, integersItems, integersItems, ih, List.append_nil]

/-- An object that stands for a call, with an unknown key, and no result comes back for it. -/
theorem Reply.deep_extra_not_contained :
    Invocation.runTests.Written [("tool", .str "run_tests"), ("x", nested 990)] ∧
      toolCall? (write (.obj [("tool", .str "run_tests"), ("x", nested 990)])) = .error .tooDeep := by
  refine ⟨⟨by decide, rfl, trivial⟩, ?_⟩
  have hintegers : ReadableIntegers (integersFields [("tool", .str "run_tests"), ("x", nested 990)]) := by
    rw [integersFields, integersFields, integers_nested]
    exact fun i hi => absurd hi List.not_mem_nil
  have hdepth : ¬ (Json.obj [("tool", .str "run_tests"), ("x", nested 990)]).depth ≤ Host.jsonDepth := by
    rw [depth, depthFields, depthFields, depthFields, depth_nested]
    decide
  have hobject := callObject?_write hintegers List.not_mem_nil List.not_mem_nil
  rw [List.nil_append, List.append_nil, if_neg hdepth] at hobject
  rw [toolCall?, hobject]
  rfl

end CodeAgent
