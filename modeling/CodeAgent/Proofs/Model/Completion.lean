import Mathlib
import CodeAgent.Host.Usual
import CodeAgent.Model.Provider

namespace CodeAgent

namespace Json

/-- What a step into a value names. -/
inductive Selector where
  | field (key : Text)
  | position (n : Nat)

/-- Which value a path leads to. A position in a text is that of a character. -/
inductive Leads : List Selector → Json → Json → Prop where
  | here (v : Json) : Leads [] v v
  | field {key : Text} {path : List Selector} {fields : List (Text × Json)} {v w : Json}
      (found : lookup key fields = some v) (rest : Leads path v w) : Leads (.field key :: path) (.obj fields) w
  | item {n : Nat} {path : List Selector} {items : List Json} {v w : Json}
      (found : items[n]? = some v) (rest : Leads path v w) : Leads (.position n :: path) (.arr items) w
  | character {n : Nat} {path : List Selector} {t : Text} {c : CodePoint} {w : Json}
      (found : t[n]? = some c) (rest : Leads path (.str [c]) w) : Leads (.position n :: path) (.str t) w

def follow : List Selector → Json → Except StepFault Json
  | [], v => pure v
  | .field key :: path, v => v.atField key >>= follow path
  | .position n :: path, v => v.atPosition n >>= follow path

variable {key : Text} {n : Nat} {path : List Selector} {v w : Json}

theorem atField_eq_ok : v.atField key = .ok w ↔ ∃ fields, v = .obj fields ∧ lookup key fields = some w := by
  cases v with
  | obj fields =>
    rw [atField]
    split
    · rename_i h
      simp [h]
    · rename_i h
      simp [h]
  | _ => simp [atField]

/-- What stands at a position: an item of a list, or a code point of a text. -/
theorem atPosition_eq_ok : v.atPosition n = .ok w ↔
    (∃ items, v = .arr items ∧ items[n]? = some w) ∨ ∃ t c, v = .str t ∧ t[n]? = some c ∧ w = .str [c] := by
  cases v with
  | arr items =>
    rw [atPosition]
    split
    · rename_i h
      simp [h]
    · rename_i h
      simp [h]
  | str t =>
    rw [atPosition]
    split
    · rename_i h
      simp [h, eq_comm]
    · rename_i h
      simp [h]
  | _ => simp [atPosition]

/-- A path is followed just if it leads somewhere. -/
theorem follow_eq_ok : follow path v = .ok w ↔ Leads path v w := by
  induction path generalizing v with
  | nil =>
    simp only [follow, pure, Except.pure, Except.ok.injEq]
    constructor
    · rintro rfl
      exact .here v
    · intro h
      cases h
      rfl
  | cons step path ih =>
    have hbind {α β : Type} {x : Except StepFault α} {f : α → Except StepFault β} {y : β} :
        (x >>= f) = .ok y ↔ ∃ a, x = .ok a ∧ f a = .ok y := by
      cases x <;> simp [bind, Except.bind]
    cases step with
    | field key =>
      simp only [follow, hbind, atField_eq_ok, ih]
      constructor
      · rintro ⟨u, ⟨fields, rfl, hu⟩, hw⟩
        exact .field hu hw
      · intro h
        cases h with
        | field hu hw => exact ⟨_, ⟨_, rfl, hu⟩, hw⟩
    | position n =>
      simp only [follow, hbind, atPosition_eq_ok, ih]
      constructor
      · rintro ⟨u, ⟨items, rfl, hu⟩ | ⟨t, c, rfl, hc, rfl⟩, hw⟩
        · exact .item hu hw
        · exact .character hc hw
      · intro h
        cases h with
        | item hu hw => exact ⟨_, .inl ⟨_, rfl, hu⟩, hw⟩
        | character hc hw => exact ⟨_, .inr ⟨_, _, rfl, hc, rfl⟩, hw⟩

end Json

namespace Model

variable {provider label : Text} {status : Int} {body : Text} {path : List Json.Selector} {reply : Reply}
  {replies : List Reply} {request : Request}

/-- A text or a failure of the provider, which is all that callers handle. -/
inductive Contained : Completion → Prop where
  | text (t : Text) : Contained (.ok (.str t))
  | failure (fault : BackendFault) : Contained (.error (.backend fault))

theorem contained_fail (reason : Text) (status : Option Int) : Contained (fail provider reason status) := .failure _

theorem contained_ok {v : Json} : Contained (.ok v) ↔ v.text? ≠ none := by
  constructor
  · intro h
    cases h
    exact Option.some_ne_none _
  · intro h
    cases v with
    | str t => exact .text t
    | _ => cases h rfl

def answerPlace : Provider → Option (List Json.Selector)
  | .ollama => none
  | .openai => some [.field "choices", .position 0, .field "message", .field "content"]
  | .gemini => some [.field "candidates", .position 0, .field "content", .field "parts", .position 0, .field "text"]

def withoutMark : Text → Text
  | c :: r => if c.val = 0xfeff then r else c :: r
  | [] => []

section
theorem openai_steps (v : Json) : (do
    ((← (← (← v.atField "choices").atPosition 0).atField "message")).atField "content") =
      Json.follow [.field "choices", .position 0, .field "message", .field "content"] v := by
  simp only [Json.follow, bind_pure]

theorem gemini_steps (v : Json) : (do
    let content ← (← (← v.atField "candidates").atPosition 0).atField "content"
    (← (← content.atField "parts").atPosition 0).atField "text") =
      Json.follow [.field "candidates", .position 0, .field "content", .field "parts", .position 0,
          .field "text"] v := by
  simp only [Json.follow, bind_pure]

theorem contained_ollama (reply : Reply) : Contained (ollamaCompletion reply) := by
  cases reply with
  | client value =>
    simp only [ollamaCompletion]
    split
    · exact .text _
    · exact contained_fail _ _
  | _ => exact contained_fail _ _

/-- With a reply for every time that it may be asked a local server gives an answer, which is contained. -/
theorem askOllama_contained (attempt : Nat) {retries : Nat} :
    (retries < replies.length → ∃ answer, ((askOllama request attempt retries).run replies).value = some answer) ∧
    ∀ answer, ((askOllama request attempt retries).run replies).value = some answer → Contained answer := by
  induction retries generalizing attempt replies with
  | zero =>
    cases replies with
    | nil => exact ⟨nofun, nofun⟩
    | cons reply rest =>
      refine ⟨fun _ => ⟨_, rfl⟩, fun answer h => ?_⟩
      cases h
      exact contained_ollama reply
  | succ n ih =>
    cases replies with
    | nil => exact ⟨nofun, nofun⟩
    | cons reply rest =>
      rw [askOllama, Dialogue.run]
      split
      · obtain ⟨hanswers, hcontained⟩ := @ih rest (attempt + 1)
        exact ⟨fun h => hanswers (by simpa using h), hcontained⟩
      · refine ⟨fun _ => ⟨_, rfl⟩, fun answer h => ?_⟩
        cases h
        exact contained_ollama reply

variable [Host]

/-- A reply of a remote provider that no check stops: its document is nested too deep to be read, or has something
else than a text in the place of the answer. -/
inductive Slips (path : List Json.Selector) : Reply → Prop where
  | deep {status : Int} {body : Text} (accepted : status < 400)
      (unread : Json.read (withoutMark body) = .error .tooDeep) : Slips path (.http status body)
  | noText {status : Int} {body : Text} {v w : Json} (accepted : status < 400)
      (read : Json.read (withoutMark body) = .ok v) (leads : Json.Leads path v w) (kind : w.text? = none) :
      Slips path (.http status body)

theorem slips_http : Slips path (.http status body) ↔ status < 400 ∧ (Json.read (withoutMark body) = .error .tooDeep ∨
    ∃ v w, Json.read (withoutMark body) = .ok v ∧ Json.Leads path v w ∧ w.text? = none) := by
  constructor
  · intro h
    cases h with
    | deep hs h => exact ⟨hs, .inl h⟩
    | noText hs h hw hn => exact ⟨hs, .inr ⟨_, _, h, hw, hn⟩⟩
  · rintro ⟨hs, h | ⟨v, w, h, hw, hn⟩⟩
    · exact .deep hs h
    · exact .noText hs h hw hn

theorem answerAt_eq (steps : Json → Except Json.StepFault Json) : answerAt provider label status body steps =
    match Json.read (withoutMark body) with
    | .error .tooDeep => .error .tooDeep
    | .error fault =>
      fail provider ("Malformed " ++ label ++ " response: " ++ fault.message (withoutMark body)) (some status)
    | .ok v =>
      match steps v with
      | .ok answer => .ok answer
      | .error fault => fail provider ("Malformed " ++ label ++ " response: " ++ fault.message) (some status) := by
  cases body <;> rfl

/-- An answer is contained unless its body is too deep or the path leads to what is no text. -/
theorem answerAt_contained_iff : Contained (answerAt provider label status body (Json.follow path)) ↔
    ¬ (Json.read (withoutMark body) = .error .tooDeep ∨
      ∃ v w, Json.read (withoutMark body) = .ok v ∧ Json.Leads path v w ∧ w.text? = none) := by
  rw [answerAt_eq]
  split
  · rename_i h
    simp only [h, true_or, not_true_eq_false, iff_false]
    intro hc
    cases hc
  · rename_i fault hfault h
    have hne : fault ≠ .tooDeep := hfault
    simp [contained_fail, h, hne]
  · rename_i v h
    split
    · rename_i w hw
      rw [contained_ok]
      constructor
      · rintro hn (hdeep | ⟨v', w', hv, hw', ht⟩)
        · cases h.symm.trans hdeep
        · obtain rfl := Except.ok.inj (h.symm.trans hv)
          obtain rfl := Except.ok.inj (hw.symm.trans (Json.follow_eq_ok.mpr hw'))
          exact hn ht
      · exact fun hnot ht => hnot (.inr ⟨v, w, h, Json.follow_eq_ok.mp hw, ht⟩)
    · rename_i fault hw
      simp only [contained_fail, true_iff]
      rintro (hdeep | ⟨v', w', hv, hw', -⟩)
      · cases h.symm.trans hdeep
      · obtain rfl := Except.ok.inj (h.symm.trans hv)
        cases hw.symm.trans (Json.follow_eq_ok.mpr hw')

/-- A request over the network is contained unless its reply slips through. -/
theorem post_contained_iff {steps : Json → Except Json.StepFault Json} (h : ∀ v, steps v = Json.follow path v)
    (rest : List Reply) : ∃ answer, ((post provider label request steps).run (reply :: rest)).value = some answer ∧
      (Contained answer ↔ ¬ Slips path reply) := by
  obtain rfl : steps = Json.follow path := funext h
  cases reply with
  | http status body =>
    rw [post, Dialogue.run]
    refine ⟨_, rfl, ?_⟩
    split
    · rename_i hrefused
      have hnot : ¬ status < 400 := by omega
      simp [contained_fail, slips_http, hnot]
    · rename_i haccepted
      have haccepted : status < 400 := by omega
      rw [answerAt_contained_iff, slips_http, and_iff_right haccepted]
  | _ => exact ⟨_, rfl, iff_of_true (contained_fail _ _) nofun⟩

/-- A remote provider is asked once, and its answer is contained unless the reply slips through. -/
theorem post_answers {steps : Json → Except Json.StepFault Json} (h : ∀ v, steps v = Json.follow path v)
    (replies : List Reply) :
    (0 < replies.length → ∃ answer, ((post provider label request steps).run replies).value = some answer) ∧
    ∀ answer, ((post provider label request steps).run replies).value = some answer →
      (Contained answer ↔ ¬ ∃ reply, replies.head? = some reply ∧ Slips path reply) := by
  cases replies with
  | nil => exact ⟨nofun, nofun⟩
  | cons reply rest =>
    obtain ⟨answer, hanswer, hcontained⟩ := post_contained_iff h rest
    refine ⟨fun _ => ⟨answer, hanswer⟩, fun answer' hanswer' => ?_⟩
    obtain rfl := Option.some.inj (hanswer.symm.trans hanswer')
    simpa using hcontained

/-- With replies enough a call has an answer. What it comes to is a text or a failure of its provider, except where a
remote provider's first reply slips through. -/
theorem call_contained_iff (c : Config) (messages : List Message) (provider : Text) (settings : CallSettings)
    (replies : List Reply) :
    (maxRetries < replies.length →
      ∃ answer, ((call c messages provider settings).run replies).value = some answer) ∧
    ∀ answer, ((call c messages provider settings).run replies).value = some answer →
      (Contained answer ↔ ¬ ∃ named path reply,
        Provider.ofName? (Text.lower (orElse provider (c.text .defaultProvider))) = some named ∧
        answerPlace named = some path ∧ replies.head? = some reply ∧ Slips path reply) := by
  simp only [call]
  generalize Text.lower (orElse provider (c.text .defaultProvider)) = name
  have hslips {named : Provider} {path : List Json.Selector} (hname : Provider.ofName? name = some named)
      (hpath : answerPlace named = some path) : (∃ reply, replies.head? = some reply ∧ Slips path reply) ↔
        ∃ named path reply, Provider.ofName? name = some named ∧ answerPlace named = some path ∧
          replies.head? = some reply ∧ Slips path reply := by
    constructor
    · exact fun ⟨reply, h⟩ => ⟨named, path, reply, hname, hpath, h⟩
    · rintro ⟨named', path', reply, hnamed, hpath', h⟩
      obtain rfl := Option.some.inj (hname.symm.trans hnamed)
      obtain rfl := Option.some.inj (hpath.symm.trans hpath')
      exact ⟨reply, h⟩
  split
  · rename_i hname
    obtain ⟨hanswers, hcontained⟩ := askOllama_contained 0
    refine ⟨hanswers, fun answer h => iff_of_true (hcontained answer h) ?_⟩
    rintro ⟨named, path, reply, hnamed, hpath, -⟩
    obtain rfl := Option.some.inj (hname.symm.trans hnamed)
    cases hpath
  · rename_i hname
    obtain ⟨hanswers, hcontained⟩ := post_answers openai_steps replies
    exact ⟨fun h => hanswers (Nat.zero_lt_of_lt h), fun answer h =>
      (hcontained answer h).trans (not_congr (hslips hname rfl))⟩
  · rename_i hname
    obtain ⟨hanswers, hcontained⟩ := post_answers gemini_steps replies
    exact ⟨fun h => hanswers (Nat.zero_lt_of_lt h), fun answer h =>
      (hcontained answer h).trans (not_congr (hslips hname rfl))⟩
  · rename_i hname
    refine ⟨fun _ => ⟨_, rfl⟩, fun answer h => iff_of_true ?_ ?_⟩
    · cases h
      exact contained_fail _ _
    · rintro ⟨named, path, reply, hnamed, -⟩
      cases hname.symm.trans hnamed

end

attribute [local instance] Host.usual

def slowServer : List Reply :=
  [.unreachable "timeout", .unreachable "timeout",
    .client (.plain (.obj [("message", .obj [("content", .str "local")])]))]

theorem call_slowServer : maxRetries < slowServer.length ∧ ∃ answer,
    ((call .default [⟨"user", "hi"⟩] "ollama" {}).run slowServer).value = some answer ∧
      (Contained answer ↔ ¬ ∃ named path reply,
        Provider.ofName? (Text.lower (orElse "ollama" (Config.default.text .defaultProvider))) = some named ∧
        answerPlace named = some path ∧ slowServer.head? = some reply ∧ Slips path reply) := by
  obtain ⟨hanswers, hcontained⟩ := call_contained_iff .default [⟨"user", "hi"⟩] "ollama" {} slowServer
  obtain ⟨answer, hanswer⟩ := hanswers (by decide)
  exact ⟨by decide, answer, hanswer, hcontained answer hanswer⟩

def nullContent : Text := "\x7b\"choices\": [\x7b\"message\": \x7b\"content\": null\x7d\x7d]\x7d"

/-- The call comes to null, which is no text, and no failure is told. -/
theorem call_nullContent :
    ((call .default [⟨"user", "hi"⟩] "openai" {}).run [.http 200 nullContent]).value = some (.ok .null) ∧
      ¬ Contained (.ok .null) := by
  refine ⟨?_, nofun⟩
  have hname : Provider.ofName? (Text.lower (orElse "openai" (Config.default.text .defaultProvider))) =
      some .openai := by
    decide
  have hanswer : answerAt "openai" "OpenAI" 200 nullContent (fun v => do
      ((← (← (← v.atField "choices").atPosition 0).atField "message")).atField "content") = .ok .null := by
    cbv
  simp only [call, hname, callOpenai, post, Dialogue.run]
  rw [if_neg (by decide), hanswer]

end Model

end CodeAgent
