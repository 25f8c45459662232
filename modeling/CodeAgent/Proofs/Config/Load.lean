import CodeAgent.Config.Load
import CodeAgent.Host.Usual
import CodeAgent.Proofs.Json.Reader
import Mathlib.Data.List.Basic

namespace CodeAgent.Config

variable {d d' : Disk} {home home' file : Path} {environment environment' : Text → Option Text}

variable {named named' : Option Text} {k : ConfigKey} {t : Text} {v w : Json} {c c' : Config}

variable {contents contents' : Option (List (Text × Json))}

/-- What the text of a variable stands for, by the kind of the default. -/
inductive Coerces (k : ConfigKey) (t : Text) : Json → Prop where
  | switch {b : Bool} (kind : k.default = .bool b) :
      Coerces k t (.bool (Text.lower t ∈ (["true", "1", "yes"] : List Text)))
  | whole {i n : Int} (kind : k.default = .int i) (reads : Decimal.readInt? t = some n) : Coerces k t (.int n)
  | number {x y : Binary64} (kind : k.default = .float x) (reads : Decimal.readFloat? t = some y) :
      Coerces k t (.float y)
  | text {u : Text} (kind : k.default = .str u) : Coerces k t (.str t)

theorem default_cases (k : ConfigKey) : (∃ b, k.default = .bool b) ∨ (∃ i, k.default = .int i) ∨
    (∃ x, k.default = .float x) ∨ ∃ u, k.default = .str u := by
  cases k <;> simp [ConfigKey.default]

/-- What the text of a variable is taken for. -/
theorem coerce?_eq_some : coerce? k t = some v ↔ Coerces k t v := by
  constructor
  · intro h
    unfold coerce? at h
    rcases default_cases k with ⟨b, hk⟩ | ⟨i, hk⟩ | ⟨x, hk⟩ | ⟨u, hk⟩
    · simp only [hk, Option.some.injEq] at h
      have hword := Coerces.switch (t := t) hk
      simp only [List.mem_cons, List.not_mem_nil, or_false, Bool.decide_or, ← Bool.or_assoc] at hword
      rwa [h] at hword
    · simp only [hk, Option.map_eq_some_iff] at h
      obtain ⟨n, hn, rfl⟩ := h
      exact .whole hk hn
    · simp only [hk, Option.map_eq_some_iff] at h
      obtain ⟨y, hy, rfl⟩ := h
      exact .number hk hy
    · simp only [hk, Option.some.injEq] at h
      rw [← h]
      exact .text hk
  · intro h
    unfold coerce?
    cases h with
    | switch kind => simp [kind, Bool.or_assoc]
    | whole kind reads => simp [kind, reads]
    | number kind reads => simp [kind, reads]
    | text kind => simp [kind]

def Unset (environment : Text → Option Text) (k : ConfigKey) : Prop :=
  ∀ t v, environment k.envName = some t → ¬ Coerces k t v

/-- The value that a key has to take. -/
inductive Chosen (environment : Text → Option Text) (contents : Option (List (Text × Json))) (k : ConfigKey) :
    Json → Prop where
  | override {t : Text} {v : Json} (set : environment k.envName = some t) (reads : Coerces k t v) :
      Chosen environment contents k v
  | file {fields : List (Text × Json)} {v : Json} (unset : Unset environment k) (holds : contents = some fields)
      (found : Json.lookup k.name fields = some v) : Chosen environment contents k v
  | default (unset : Unset environment k)
      (missing : ∀ fields, contents = some fields → Json.lookup k.name fields = none) :
      Chosen environment contents k k.default

theorem Unset.bind_eq_none (h : Unset environment k) : (environment k.envName).bind (coerce? k) = none := by
  cases hvariable : (environment k.envName).bind (coerce? k) with
  | none => rfl
  | some v =>
    obtain ⟨t, ht, hv⟩ := Option.bind_eq_some_iff.mp hvariable
    exact absurd (coerce?_eq_some.mp hv) (h t v ht)

theorem layered_of_unset (h : Unset environment k) (contents : Option (List (Text × Json))) :
    (layered environment (contents.getD [])).get k = (contents.bind (Json.lookup k.name)).getD k.default := by
  simp only [layered, h.bind_eq_none]
  cases contents with
  | none => rfl
  | some fields => rfl

/-- The value of a key in the layers is the one that it has to take, and no other. -/
theorem chosen_iff : Chosen environment contents k v ↔ (layered environment (contents.getD [])).get k = v := by
  constructor
  · intro h
    cases h with
    | override set reads => simp only [layered, set, Option.bind_some, coerce?_eq_some.mpr reads]
    | file unset holds found =>
      rw [layered_of_unset unset, holds, Option.bind_some, found]
      rfl
    | default unset missing =>
      rw [layered_of_unset unset]
      cases contents with
      | none => rfl
      | some fields => rw [Option.bind_some, missing fields rfl, Option.getD_none]
  · rintro rfl
    cases hvariable : (environment k.envName).bind (coerce? k) with
    | some v =>
      obtain ⟨t, ht, hv⟩ := Option.bind_eq_some_iff.mp hvariable
      simp only [layered, hvariable]
      exact .override ht (coerce?_eq_some.mp hv)
    | none =>
      have hunset : Unset environment k := by
        intro t v ht hv
        rw [ht, Option.bind_some, coerce?_eq_some.mpr hv] at hvariable
        cases hvariable
      rw [layered_of_unset hunset]
      cases hfound : contents.bind (Json.lookup k.name) with
      | some v =>
        obtain ⟨fields, hfields, hv⟩ := Option.bind_eq_some_iff.mp hfound
        exact .file hunset hfields hv
      | none =>
        apply Chosen.default hunset
        intro fields hfields
        rwa [hfields, Option.bind_some] at hfound

/-- Two environments and two files that say the same under the names of the keys, whatever they say under others. -/
def SameKnown (environment environment' : Text → Option Text) (contents contents' : Option (List (Text × Json))) :
    Prop :=
  ∀ k : ConfigKey, environment k.envName = environment' k.envName ∧
    contents.bind (Json.lookup k.name) = contents'.bind (Json.lookup k.name)

/-- The choice of a value reads nothing but the known keys. -/
theorem SameKnown.chosen (h : SameKnown environment environment' contents contents')
    (hv : Chosen environment contents k v) : Chosen environment' contents' k v := by
  obtain ⟨hvariable, hfield⟩ := h k
  cases hv with
  | override set reads => exact .override (hvariable ▸ set) reads
  | file unset holds found =>
    rw [holds, Option.bind_some, found] at hfield
    obtain ⟨fields, hfields, hv⟩ := Option.bind_eq_some_iff.mp hfield.symm
    refine .file ?_ hfields hv
    intro t v ht
    exact unset t v (hvariable.trans ht)
  | default unset missing =>
    have hnone : contents.bind (Json.lookup k.name) = none := by
      cases contents with
      | none => rfl
      | some fields => exact missing fields rfl
    apply Chosen.default
    · intro t v ht
      exact unset t v (hvariable.trans ht)
    · intro fields hfields
      rw [hnone, hfields, Option.bind_some] at hfield
      exact hfield.symm

section
theorem exists_of_readBytes {bytes : Bytes} (h : d.readBytes file = .ok bytes) : d.exists? file = .ok true := by
  unfold Disk.readBytes at h
  unfold Disk.exists? Disk.ask
  split at h
  · rename_i hstat
    rw [hstat]
  · cases h
  · cases h

theorem readText_eq_ok : d.readText file = .ok t ↔
    ∃ bytes u, d.readBytes file = .ok bytes ∧ Utf8.decode bytes = .ok u ∧ t = Text.normalizeNewlines u := by
  unfold Disk.readText
  cases d.readBytes file with
  | error fault => simp
  | ok bytes => cases hu : Utf8.decode bytes <;> simp [hu, eq_comm]

/-- Of what is there the system says why it has no bytes. -/
theorem isSystem_of_readBytes {fault : DiskFault} (there : d.exists? file = .ok true)
    (h : d.readBytes file = .error fault) : fault.isSystem := by
  unfold Disk.exists? Disk.ask at there
  unfold Disk.readBytes at h
  split at there
  · rename_i e hstat
    rw [hstat] at h
    cases e <;> cases h <;> rfl
  · split at there <;> cases there

theorem place_named (d : Disk) : place d home (some "/c.json") = (d, .ok (Path.ofText "/c.json")) := rfl

variable [Host]

/-- What the file of a configuration holds: the fields of an object, or nothing that counts. -/
inductive Holds (d : Disk) (file : Path) : Option (List (Text × Json)) → Prop where
  | missing (absent : d.exists? file = .ok false) : Holds d file none
  | unread {fault : DiskFault} (there : d.exists? file = .ok true) (closed : d.readBytes file = .error fault) :
      Holds d file none
  | malformed {t rest : Text} {problem : Json.Problem} (text : d.readText file = .ok t)
      (json : Json.read t = .error (.malformed problem rest)) : Holds d file none
  | object {t : Text} {fields : List (Text × Json)} (text : d.readText file = .ok t)
      (json : Json.read t = .ok (.obj fields)) : Holds d file (some fields)

/-- What is read out of a text that is no configuration, and is not passed over as malformed. -/
inductive Unusable : Except Json.Fault Json → Prop where
  | noObject {v : Json} (other : ∀ fields, v ≠ .obj fields) : Unusable (.ok v)
  | longInteger (digits : Nat) : Unusable (.error (.longInteger digits))
  | tooDeep : Unusable (.error .tooDeep)

/-- A file that loading does not survive. -/
inductive Breaks (d : Disk) (file : Path) : Prop where
  | noText {bytes : Bytes} {fault : Utf8.DecodeFault} (holds : d.readBytes file = .ok bytes)
      (garbled : Utf8.decode bytes = .error fault) : Breaks d file
  | unusable {t : Text} (text : d.readText file = .ok t) (json : Unusable (Json.read t)) : Breaks d file

theorem Breaks.held (h : Breaks d file) : ∃ bytes, d.readBytes file = .ok bytes := by
  cases h with
  | noText holds => exact ⟨_, holds⟩
  | unusable text =>
    obtain ⟨bytes, -, hbytes, -⟩ := readText_eq_ok.mp text
    exact ⟨bytes, hbytes⟩

/-- A text that is there and breaks the loading is not usable. -/
theorem Breaks.of_text (h : Breaks d file) (ht : d.readText file = .ok t) : Unusable (Json.read t) := by
  cases h with
  | noText holds garbled =>
    obtain ⟨bytes, u, hbytes, hu, -⟩ := readText_eq_ok.mp ht
    cases holds.symm.trans hbytes
    cases garbled.symm.trans hu
  | unusable text json =>
    cases text.symm.trans ht
    exact json

/-- A file that holds an object is read without a fault. -/
theorem Holds.not_breaks (h : Holds d file contents) : ¬ Breaks d file := by
  intro hb
  cases h with
  | missing absent =>
    obtain ⟨bytes, hbytes⟩ := hb.held
    cases absent.symm.trans (exists_of_readBytes hbytes)
  | unread there closed =>
    obtain ⟨bytes, hbytes⟩ := hb.held
    cases closed.symm.trans hbytes
  | malformed text json =>
    have hjson := hb.of_text text
    rw [json] at hjson
    cases hjson
  | object text json =>
    have hjson := hb.of_text text
    rw [json] at hjson
    cases hjson with
    | noObject other => exact other _ rfl

/-- What becomes of a text that is there: it breaks the loading, or what it holds is taken. -/
theorem read_cases (ht : d.readText file = .ok t) :
    (Breaks d file ∧ ∃ fault, readFields d file = .error fault) ∨
      ∃ contents, Holds d file contents ∧ readFields d file = .ok (contents.getD []) := by
  simp only [readFields, ht]
  cases hjson : Json.read t with
  | ok v =>
    cases v with
    | obj fields => exact Or.inr ⟨_, .object ht hjson, rfl⟩
    | _ => exact Or.inl ⟨.unusable ht (hjson ▸ .noObject nofun), _, rfl⟩
  | error fault =>
    cases fault with
    | malformed problem rest => exact Or.inr ⟨_, .malformed ht hjson, rfl⟩
    | longInteger digits => exact Or.inl ⟨.unusable ht (hjson ▸ .longInteger digits), _, rfl⟩
    | tooDeep => exact Or.inl ⟨.unusable ht (hjson ▸ .tooDeep), _, rfl⟩

/-- What becomes of a file that is there. -/
theorem readFields_cases (there : d.exists? file = .ok true) :
    (Breaks d file ∧ ∃ fault, readFields d file = .error fault) ∨
      ∃ contents, Holds d file contents ∧ readFields d file = .ok (contents.getD []) := by
  cases hbytes : d.readBytes file with
  | error fault =>
    have htext : d.readText file = .error fault := by simp only [Disk.readText, hbytes]
    refine Or.inr ⟨none, .unread there hbytes, ?_⟩
    simp only [readFields, htext, if_pos (isSystem_of_readBytes there hbytes), Option.getD_none]
  | ok bytes =>
    cases hu : Utf8.decode bytes with
    | error fault =>
      have htext : d.readText file = .error (.unreadable fault) := by simp only [Disk.readText, hbytes, hu]
      refine Or.inl ⟨.noText hbytes hu, .disk (.unreadable fault), ?_⟩
      simp only [readFields, htext]
      rfl
    | ok u => exact read_cases (readText_eq_ok.mpr ⟨bytes, u, hbytes, hu, rfl⟩)

/-- Why loading comes to no end: the place of the file cannot be had, or not be looked at, or the file breaks it. -/
inductive Unloadable (d : Disk) (home : Path) (named : Option Text) : Prop where
  | unplaced {d' : Disk} {fault : DiskFault} (failed : place d home named = (d', .error fault)) :
      Unloadable d home named
  | unseen {d' : Disk} {file : Path} {fault : DiskFault} (placed : place d home named = (d', .ok file))
      (hidden : d'.exists? file = .error fault) : Unloadable d home named
  | broken {d' : Disk} {file : Path} (placed : place d home named = (d', .ok file)) (breaks : Breaks d' file) :
      Unloadable d home named

def Found (d : Disk) (home : Path) (named : Option Text) (contents : Option (List (Text × Json))) : Prop :=
  ∃ d' file, place d home named = (d', .ok file) ∧ Holds d' file contents

/-- Where the place of the file can be had, the file decides. -/
theorem Found.not_unloadable (h : Found d home named contents) : ¬ Unloadable d home named := by
  obtain ⟨d', file, hplace, hholds⟩ := h
  have hexists : ∀ fault, d'.exists? file ≠ .error fault := by
    intro fault hhidden
    cases hholds with
    | missing absent => cases absent.symm.trans hhidden
    | unread there => cases there.symm.trans hhidden
    | malformed text =>
      obtain ⟨bytes, -, hbytes, -⟩ := readText_eq_ok.mp text
      cases (exists_of_readBytes hbytes).symm.trans hhidden
    | object text =>
      obtain ⟨bytes, -, hbytes, -⟩ := readText_eq_ok.mp text
      cases (exists_of_readBytes hbytes).symm.trans hhidden
  intro hu
  cases hu with
  | unplaced failed => cases hplace.symm.trans failed
  | unseen placed hidden =>
    cases hplace.symm.trans placed
    exact hexists _ hidden
  | broken placed breaks =>
    cases hplace.symm.trans placed
    exact hholds.not_breaks breaks

theorem load_there (placed : place d home named = (d', .ok file)) (there : d'.exists? file = .ok true) :
    (load d home environment named).2 = (readFields d' file).map (layered environment) := by
  simp only [load, placed, there]

/-- A configuration fails to load, or is what its file and the environment say. -/
theorem load_cases (d : Disk) (home : Path) (environment : Text → Option Text) (named : Option Text) :
    (Unloadable d home named ∧ ∃ fault, (load d home environment named).2 = .error fault) ∨
      ∃ contents, Found d home named contents ∧
        (load d home environment named).2 = .ok (layered environment (contents.getD [])) := by
  rcases hplace : place d home named with ⟨d', fault | file⟩
  · exact Or.inl ⟨.unplaced hplace, .disk fault, by simp only [load, hplace]⟩
  cases hthere : d'.exists? file with
  | error fault => exact Or.inl ⟨.unseen hplace hthere, .disk fault, by simp only [load, hplace, hthere]⟩
  | ok there =>
    cases there with
    | false =>
      refine Or.inr ⟨none, ⟨d', file, hplace, .missing hthere⟩, ?_⟩
      simp only [load, hplace, hthere, Option.getD_none]
      split <;> rfl
    | true =>
      rw [load_there hplace hthere]
      rcases readFields_cases hthere with ⟨hbreaks, fault, hread⟩ | ⟨contents, hholds, hread⟩
      · exact Or.inl ⟨.broken hplace hbreaks, fault, by rw [hread]; rfl⟩
      · exact Or.inr ⟨contents, ⟨d', file, hplace, hholds⟩, by rw [hread]; rfl⟩

/-- Loading comes to its end unless something keeps it from the file or the file breaks it. Every key then has the value
that it has to take, which depends on nothing but its variable and its field. -/
theorem load_layers (d : Disk) (home : Path) (environment : Text → Option Text) (named : Option Text) :
    ((∃ c, (load d home environment named).2 = .ok c) ↔ ¬ Unloadable d home named) ∧
    ∀ c, (load d home environment named).2 = .ok c → ∃ contents, Found d home named contents ∧
      (∀ k, Chosen environment contents k (c.get k)) ∧
      ∀ environment' contents' c', SameKnown environment environment' contents contents' →
        (∀ k, Chosen environment' contents' k (c'.get k)) → c' = c := by
  rcases load_cases d home environment named with ⟨hun, fault, hload⟩ | ⟨contents, hfound, hload⟩
  · rw [hload]
    exact ⟨iff_of_false nofun fun hloadable => hloadable hun, nofun⟩
  · rw [hload]
    refine ⟨iff_of_true ⟨_, rfl⟩ hfound.not_unloadable, ?_⟩
    intro c hc
    cases hc
    refine ⟨contents, hfound, fun k => chosen_iff.mpr rfl, ?_⟩
    intro environment' contents' c' hsame hchosen
    have hget : c'.get = (layered environment (contents.getD [])).get := by
      funext k
      have hvalue := hsame.chosen (chosen_iff (k := k).mpr rfl)
      rw [← chosen_iff.mp (hchosen k), chosen_iff.mp hvalue]
    exact congrArg Config.mk hget

def oneFile (bytes : Bytes) : Disk := ⟨[(["c.json"], .file bytes)]⟩

end

attribute [local instance] Host.usual

def hostFile : Text := "\x7b\"host\": \"h\", \"x\": null\x7d"

/-- Nothing keeps the loading of this file from its end, and the known key has the value of its field. -/
theorem host_loaded :
    ¬ Unloadable (oneFile (Utf8.encodeAny hostFile)) ⟨"/", []⟩ (some "/c.json") ∧
    ∃ contents, Found (oneFile (Utf8.encodeAny hostFile)) ⟨"/", []⟩ (some "/c.json") contents ∧
      Chosen (fun _ => none) contents .host (.str "h") := by
  have hthere : (oneFile (Utf8.encodeAny hostFile)).exists? (Path.ofText "/c.json") = .ok true := by decide +kernel
  have htext : (oneFile (Utf8.encodeAny hostFile)).readText (Path.ofText "/c.json") = .ok hostFile := by
    decide +kernel
  have hjson : Json.read hostFile = .ok (.obj [("host", .str "h"), ("x", .null)]) :=
    Json.read_write (.obj [("host", .str "h"), ("x", .null)]) fun _ hi => absurd hi List.not_mem_nil
  have hload : (load (oneFile (Utf8.encodeAny hostFile)) ⟨"/", []⟩ (fun _ => none) (some "/c.json")).2 =
      .ok (layered (fun _ => none) [("host", .str "h"), ("x", .null)]) := by
    rw [load_there (place_named _) hthere]
    simp only [readFields, htext, hjson]
    rfl
  obtain ⟨hends, hcourse⟩ := load_layers (oneFile (Utf8.encodeAny hostFile)) ⟨"/", []⟩ (fun _ => none) (some "/c.json")
  obtain ⟨contents, hfound, hchosen, -⟩ := hcourse _ hload
  exact ⟨hends.mp ⟨_, hload⟩, contents, hfound, hchosen .host⟩

/-- A byte that is no text breaks the loading, and so does a document that is a number. -/
theorem number_not_loaded :
    (load (oneFile [255]) ⟨"/", []⟩ (fun _ => none) (some "/c.json")).2 =
      .error (.disk (.unreadable ⟨0, .startByte, [255]⟩)) ∧
    (load (oneFile (Utf8.encodeAny "5")) ⟨"/", []⟩ (fun _ => none) (some "/c.json")).2 = .error .notAnObject := by
  constructor
  · have hthere : (oneFile [255]).exists? (Path.ofText "/c.json") = .ok true := by decide +kernel
    have htext : (oneFile [255]).readText (Path.ofText "/c.json") = .error (.unreadable ⟨0, .startByte, [255]⟩) := by
      decide +kernel
    rw [load_there (place_named _) hthere]
    simp only [readFields, htext]
    rfl
  · have hthere : (oneFile (Utf8.encodeAny "5")).exists? (Path.ofText "/c.json") = .ok true := by decide +kernel
    have htext : (oneFile (Utf8.encodeAny "5")).readText (Path.ofText "/c.json") = .ok "5" := by decide +kernel
    have hjson : Json.read "5" = .ok (.int 5) := by rfl
    rw [load_there (place_named _) hthere]
    simp only [readFields, htext, hjson]
    rfl

end CodeAgent.Config
