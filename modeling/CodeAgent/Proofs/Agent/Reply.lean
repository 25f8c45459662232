import CodeAgent.Agent.Reply
import CodeAgent.Host.Usual
import CodeAgent.Proofs.Agent.Parameters
import CodeAgent.Proofs.Json.Reader
import CodeAgent.Proofs.Table
import Mathlib.Data.List.Permutation

namespace CodeAgent.Reply

variable {t span reply : Text} {spans : List Text} {best : Found} {fields : List (Text × Json)}

section
/-- The spans that the search goes through, in its order: from each opening to the closing braces after it. -/
def candidates (t : Text) : List Text :=
  (openings t).flatMap fun o => (closings (o.1.length - o.2.length) o.2).map o.1.take

theorem le_of_mem_closings {n k : Nat} (h : n ∈ closings k t) : k < n ∧ n ≤ k + t.length := by
  induction t generalizing k with
  | nil => cases h
  | cons c r ih =>
    rw [closings] at h
    rw [List.length_cons]
    split at h
    · rcases List.mem_cons.mp h with rfl | h
      · omega
      · have := ih h
        omega
    · have := ih h
      omega

theorem length_of_mem_openings {o : Text × Text} (h : o ∈ openings t) : o.2.length ≤ o.1.length := by
  fun_induction openings t with
  | case1 => cases h
  | case2 c r rest _ hle ih =>
    rcases List.mem_cons.mp h with rfl | h
    · exact Nat.le_succ_of_le hle
    · exact ih h
  | case3 c r rest _ _ ih => exact ih h
  | case4 c r _ ih => exact ih h

theorem candidates_ne_nil (h : span ∈ candidates t) : span ≠ [] := by
  obtain ⟨o, ho, h⟩ := List.mem_flatMap.mp h
  obtain ⟨n, hn, rfl⟩ := List.mem_map.mp h
  have hlength := length_of_mem_openings ho
  have hbounds := le_of_mem_closings hn
  intro he
  have hzero := congrArg List.length he
  rw [List.length_take, List.length_nil] at hzero
  omega

section Spans

variable {p : CodePoint → Bool} {a b : CodePoint} {before after body : Text}

theorem dropWhile_append_cons (ha : p a = false) (before r : Text) :
    (before ++ a :: r).dropWhile p = before.dropWhile p ++ a :: r := by
  induction before with
  | nil => simp [ha]
  | cons c before ih =>
    cases hc : p c with
    | true => simpa [hc] using ih
    | false => simp [hc]

theorem dropEndWhile_append_cons (hb : p b = false) (r after : Text) :
    Text.dropEndWhile p (r ++ b :: after) = r ++ b :: Text.dropEndWhile p after := by
  have hreverse : (r ++ b :: after).reverse = after.reverse ++ b :: r.reverse := by simp
  rw [Text.dropEndWhile, hreverse, dropWhile_append_cons hb]
  simp [Text.dropEndWhile]

/-- The outer span of a reply is the object in it, if no brace that could stretch it stands around the object. -/
theorem outerSpan?_trim (hb : openBrace ∉ before) (ha : closeBrace ∉ after) :
    outerSpan? (Text.trim (before ++ openBrace :: (body ++ closeBrace :: after))) =
      some (openBrace :: (body ++ [closeBrace])) := by
  have htrim : Text.trim (before ++ openBrace :: (body ++ closeBrace :: after)) =
      before.dropWhile CodePoint.isBlank ++
        openBrace :: (body ++ closeBrace :: Text.dropEndWhile CodePoint.isBlank after) := by
    have hend := dropEndWhile_append_cons (p := CodePoint.isBlank) (b := closeBrace) (by decide)
      (before.dropWhile CodePoint.isBlank ++ openBrace :: body) after
    rw [List.append_assoc, List.append_assoc, List.cons_append] at hend
    rw [Text.trim, Text.trimWith, dropWhile_append_cons (by decide), hend, List.cons_append]
  have hfront : (before.dropWhile CodePoint.isBlank).dropWhile (· ≠ openBrace) = [] :=
    List.dropWhile_eq_nil_iff.mpr fun c hc => by
      have hmem := (List.dropWhile_sublist CodePoint.isBlank).subset hc
      simp only [ne_eq, decide_eq_true_eq]
      rintro rfl
      exact hb hmem
  have hback : Text.dropEndWhile (· ≠ closeBrace) (Text.dropEndWhile CodePoint.isBlank after) = [] := by
    rw [Text.dropEndWhile, List.reverse_eq_nil_iff, List.dropWhile_eq_nil_iff]
    intro c hc
    rw [Text.dropEndWhile, List.reverse_reverse] at hc
    have hmem := (List.dropWhile_sublist CodePoint.isBlank).subset hc
    simp only [ne_eq, decide_eq_true_eq]
    rintro rfl
    exact ha (List.mem_reverse.mp hmem)
  have hspan := dropEndWhile_append_cons (p := (· ≠ closeBrace)) (b := closeBrace) (by decide) (openBrace :: body)
    (Text.dropEndWhile CodePoint.isBlank after)
  rw [hback] at hspan
  rw [htrim, outerSpan?, dropWhile_append_cons (by decide), hfront, List.nil_append]
  rw [← List.cons_append, hspan]
  rfl

end Spans

/-- What an object with a `tool` field is understood as: a call of one of the kinds that keeps its promises, or
one that is refused with a reason under the name it gave. -/
inductive Classified (fields : List (Text × Json)) (tool : Json) : ToolCall → Prop
  | valid {i : Invocation} (hk : i.kind ∈ ToolKind.all) (hn : tool.plain = i.kind.name) (hv : i.Valid) :
      Classified fields tool (.valid i)
  | invalid {c : InvalidCall} (ht : c.tool = tool.plain) (he : c.error ≠ []) (hr : c.raw = fields) :
      Classified fields tool (.invalid c)

theorem error_ne_nil (c : InvalidCall) : c.error ≠ [] := by
  obtain ⟨tool, fault, raw⟩ := c
  cases fault <;> exact List.cons_ne_nil _ _

/-- Fields that name a tool are read as a call, or refused with a reason. -/
theorem validate_classified {tool : Json} (h : Json.lookup "tool" fields = some tool) :
    Classified fields tool (validate fields) := by
  rw [validate, h, Option.getD_some]
  cases hk : ToolKind.ofName? tool.plain with
  | none => exact Classified.invalid (c := ⟨tool.plain, .unknownTool, fields⟩) rfl (error_ne_nil _) rfl
  | some kind =>
    cases hi : Invocation.read kind fields with
    | error problems =>
      simp only [hi]
      exact Classified.invalid (c := ⟨tool.plain, .parameters problems, fields⟩) rfl (error_ne_nil _) rfl
    | ok i =>
      obtain ⟨hkind, hvalid⟩ := Invocation.read_valid hi
      have hname : kind.name = tool.plain := by simpa using List.find?_some hk
      have hall : kind ∈ ToolKind.all := List.mem_of_find?_eq_some hk
      rw [← hkind] at hname hall
      simp only [hi]
      exact Classified.valid hall hname.symm hvalid

variable [Host]

/-- The reader gives up on a span although no place in it is malformed so far: an integer has too many
digits, or the brackets are too deep. -/
def Unreadable (span : Text) : Prop :=
  Json.read span = .error .tooDeep ∨ ∃ digits, Json.read span = .error (.longInteger digits)

theorem unreadable_iff : Unreadable span ↔ ∃ fault, document? span = .error fault := by
  rw [Unreadable, document?]
  split
  · rename_i h
    simp [h]
  · rename_i h
    simp [h]
  · rename_i h
    simp [h]
  · rename_i h
    simp [h]

def callOf? (span : Text) : Option (List (Text × Json)) :=
  match document? span with
  | .ok (some v) => toolObject? v
  | _ => none

def IsCall (span : Text) : Prop := (callOf? span).isSome

/-- A span longer than every call before it and not shorter than one after it. -/
def Longest (spans : List Text) (span : Text) : Prop :=
  ∃ before after, spans = before ++ span :: after ∧ (∀ c ∈ before, IsCall c → c.length < span.length) ∧
    ∀ c ∈ after, IsCall c → c.length ≤ span.length

/-- Somewhere among the spans is an unreadable one, longer than every call before it. -/
def Stops (spans : List Text) : Prop :=
  ∃ before span after, spans = before ++ span :: after ∧ Unreadable span ∧
    ∀ c ∈ before, IsCall c → c.length < span.length

theorem stops_nil : ¬ Stops [] := by
  rintro ⟨before, span, after, he, -⟩
  cases before <;> cases he

theorem stops_concat :
    Stops (spans ++ [span]) ↔ Stops spans ∨ Unreadable span ∧ ∀ c ∈ spans, IsCall c → c.length < span.length := by
  constructor
  · rintro ⟨before, found, after, he, hu, hb⟩
    rcases concat_eq_append_cons he with ⟨rfl, rfl⟩ | ⟨after, rfl⟩
    · exact Or.inr ⟨hu, hb⟩
    · exact Or.inl ⟨before, found, after, rfl, hu, hb⟩
  · rintro (⟨before, found, after, rfl, hu, hb⟩ | ⟨hu, hb⟩)
    · exact ⟨before, found, after ++ [span], by simp, hu, hb⟩
    · exact ⟨spans, span, [], rfl, hu, hb⟩

def size (best : Found) : Nat := (best.map (·.2)).getD 0

def trySpan (best : Found) (span : Text) : Except Fault Found := tryPrefix span best span.length

theorem tryPrefix_eq {n : Nat} (h : n ≤ t.length) : tryPrefix t best n = trySpan best (t.take n) := by
  rw [trySpan, List.length_take, Nat.min_eq_left h, tryPrefix, tryPrefix, List.take_take, Nat.min_self]

theorem trySpan_short (h : span.length ≤ size best) : trySpan best span = .ok best := if_pos h

theorem trySpan_long (h : size best < span.length) :
    trySpan best span = (document? span).bind fun v? =>
      .ok ((v?.bind toolObject?).elim best fun fields => some (fields, span.length)) := by
  have hlong : ¬ span.length ≤ (best.map (·.2)).getD 0 := Nat.not_le.mpr h
  rw [trySpan, tryPrefix, if_neg hlong, List.take_length]
  cases document? span with
  | error fault => rfl
  | ok v? =>
    cases v? with
    | none => rfl
    | some v => cases ht : toolObject? v <;> simp [bind, Except.bind, ht]

theorem trySpan_unreadable (h : size best < span.length) (hu : Unreadable span) :
    ∃ fault, trySpan best span = .error fault := by
  obtain ⟨fault, hf⟩ := unreadable_iff.mp hu
  exact ⟨fault, by rw [trySpan_long h, hf]; rfl⟩

theorem trySpan_readable (h : size best < span.length) (hu : ¬ Unreadable span) :
    trySpan best span = .ok ((callOf? span).elim best fun fields => some (fields, span.length)) := by
  rw [unreadable_iff, not_exists] at hu
  rw [trySpan_long h, callOf?]
  cases hd : document? span with
  | error fault => exact absurd hd (hu fault)
  | ok v? => cases v? <;> rfl

/-- What the search has found among the spans so far. -/
inductive BestOf (spans : List Text) : Found → Prop
  | nothing (h : ∀ c ∈ spans, ¬ IsCall c) : BestOf spans none
  | call {span : Text} {fields : List (Text × Json)} (h : Longest spans span) (hc : callOf? span = some fields) :
      BestOf spans (some (fields, span.length))

theorem BestOf.length_le (h : BestOf spans best) : ∀ c ∈ spans, IsCall c → c.length ≤ size best := by
  intro c hc hcall
  cases h with
  | nothing h => exact absurd hcall (h c hc)
  | call h =>
    obtain ⟨before, after, rfl, hb, ha⟩ := h
    rcases List.mem_append.mp hc with hc | hc
    · exact Nat.le_of_lt (hb c hc hcall)
    · rcases List.mem_cons.mp hc with rfl | hc
      · exact Nat.le_refl _
      · exact ha c hc hcall

/-- A span that is not tried is not longer than a call before it. -/
theorem BestOf.length_lt_iff (h : BestOf spans best) (hs : span ≠ []) :
    (∀ c ∈ spans, IsCall c → c.length < span.length) ↔ size best < span.length := by
  constructor
  · intro hlt
    cases h with
    | nothing => exact List.length_pos_iff.mpr hs
    | call h hc =>
      obtain ⟨before, after, rfl, -, -⟩ := h
      exact hlt _ (by simp) (by simp [IsCall, hc])
  · exact fun hlt c hc hcall => Nat.lt_of_le_of_lt (h.length_le c hc hcall) hlt

/-- A span that is no call, or no longer than the best so far, changes nothing. -/
theorem BestOf.keep (h : BestOf spans best) (hs : ¬ IsCall span ∨ span.length ≤ size best) (hne : span ≠ []) :
    BestOf (spans ++ [span]) best := by
  cases h with
  | nothing h =>
    refine .nothing fun c hc => ?_
    rcases List.mem_append.mp hc with hc | hc
    · exact h c hc
    · rw [List.mem_singleton.mp hc]
      exact hs.resolve_right fun hle => hne (List.length_eq_zero_iff.mp (Nat.le_zero.mp hle))
  | call h hc =>
    obtain ⟨before, after, rfl, hb, ha⟩ := h
    refine .call ⟨before, after ++ [span], by simp, hb, fun c hmem hcall => ?_⟩ hc
    rcases List.mem_append.mp hmem with hmem | hmem
    · exact ha c hmem hcall
    · rw [List.mem_singleton.mp hmem] at hcall ⊢
      exact hs.resolve_left (not_not.mpr hcall)

/-- A longer call takes the place of the best so far. -/
theorem BestOf.replace (h : BestOf spans best) (hs : size best < span.length) (hc : callOf? span = some fields) :
    BestOf (spans ++ [span]) (some (fields, span.length)) :=
  .call ⟨spans, [], rfl, fun c hc hcall => Nat.lt_of_le_of_lt (h.length_le c hc hcall) hs, by simp⟩ hc

/-- The search fails just if it stops at a span; otherwise it ends with the best. -/
theorem foldlM_trySpan (hne : ∀ span ∈ spans, span ≠ []) :
    Stops spans ∧ (∃ fault, spans.foldlM trySpan none = .error fault) ∨
      ¬ Stops spans ∧ ∃ best, spans.foldlM trySpan none = .ok best ∧ BestOf spans best := by
  -- On the last span: what was found before it decides whether it is tried at all.
  induction spans using List.reverseRecOn with
  | nil => exact Or.inr ⟨stops_nil, none, rfl, .nothing (by simp)⟩
  | append_singleton spans span ih =>
    rw [stops_concat, List.foldlM_append]
    rcases ih fun c hc => hne c (List.mem_append_left _ hc) with ⟨hstop, fault, hf⟩ | ⟨hgo, best, hf, hb⟩
    · exact Or.inl ⟨Or.inl hstop, fault, by rw [hf]; rfl⟩
    rw [hf, hb.length_lt_iff (hne span (by simp))]
    simp only [hgo, false_or, bind, Except.bind, List.foldlM_cons, List.foldlM_nil]
    by_cases hlt : size best < span.length
    · by_cases hu : Unreadable span
      · obtain ⟨fault, ht⟩ := trySpan_unreadable hlt hu
        exact Or.inl ⟨⟨hu, hlt⟩, fault, by rw [ht]⟩
      · refine Or.inr ⟨fun h => hu h.1, _, by rw [trySpan_readable hlt hu]; rfl, ?_⟩
        cases hc : callOf? span with
        | none => exact hb.keep (Or.inl (by simp [IsCall, hc])) (hne span (by simp))
        | some fields => exact hb.replace hlt hc
    · refine Or.inr ⟨fun h => hlt h.2, best, by rw [trySpan_short (Nat.not_lt.mp hlt)]; rfl, ?_⟩
      exact hb.keep (Or.inr (Nat.not_lt.mp hlt)) (hne span (by simp))

theorem foldlM_tryPrefix {lengths : List Nat} (h : ∀ n ∈ lengths, n ≤ t.length) :
    lengths.foldlM (tryPrefix t) best = (lengths.map t.take).foldlM trySpan best := by
  induction lengths generalizing best with
  | nil => rfl
  | cons n rest ih =>
    rw [List.foldlM_cons, List.map_cons, List.foldlM_cons, tryPrefix_eq (h n List.mem_cons_self)]
    exact bind_congr fun best => ih fun m hm => h m (List.mem_cons_of_mem _ hm)

theorem foldlM_scanFrom {os : List (Text × Text)} (h : ∀ o ∈ os, o.2.length ≤ o.1.length) :
    os.foldlM scanFrom best =
      (os.flatMap fun o => (closings (o.1.length - o.2.length) o.2).map o.1.take).foldlM trySpan best := by
  induction os generalizing best with
  | nil => rfl
  | cons o rest ih =>
    have hlengths : ∀ n ∈ closings (o.1.length - o.2.length) o.2, n ≤ o.1.length := by
      intro n hn
      have hlength := h o List.mem_cons_self
      have hbounds := le_of_mem_closings hn
      omega
    rw [List.foldlM_cons, List.flatMap_cons, List.foldlM_append, scanFrom, foldlM_tryPrefix hlengths]
    exact bind_congr fun best => ih fun o ho => h o (List.mem_cons_of_mem _ ho)

theorem scan_eq (t : Text) : scan t = ((candidates t).foldlM trySpan none).map fun best => best.map (·.1) := by
  rw [scan, foldlM_scanFrom fun o => length_of_mem_openings]
  rfl

/-- What the reader gives up on is not contained. -/
theorem toolCall?_error {body : Text} {fault : Fault}
    (h : document? (openBrace :: (body ++ [closeBrace])) = .error fault) :
    toolCall? (openBrace :: (body ++ [closeBrace])) = .error fault := by
  have hspan : outerSpan? (Text.trim ([] ++ openBrace :: (body ++ closeBrace :: []))) =
      some (openBrace :: (body ++ [closeBrace])) :=
    outerSpan?_trim List.not_mem_nil List.not_mem_nil
  rw [List.nil_append] at hspan
  simp only [toolCall?, callObject?, hspan, h]
  rfl

open Json Decimal in

/-- No result comes back for a whole number with too many digits. -/
theorem toolCall?_longInteger {d : Text} (hdepth : 0 < Host.jsonDepth) (hd : IsNumeral d) (h : maxDigits < d.length) :
    toolCall? ("\x7b\"tool\": " ++ d ++ "\x7d") = .error (.longInteger d.length) := by
  have htext : ("\x7b\"tool\": " : Text) ++ d ++ "\x7d" = openBrace :: (writeString "tool" ++
      CodePoint.ofChar ':' :: CodePoint.ofChar ' ' :: d ++ [closeBrace]) := rfl
  have hstarts := IsNumeral.starts hd
  have hskip : skipSpace (d ++ [closeBrace]) = d ++ [closeBrace] := by
    obtain ⟨c, r, rfl, hc⟩ := hstarts
    exact skipSpace_cons (isSpace_of_isDigit hc) _
  have hended : Ended [closeBrace] := (ended_bracket []).2.1
  obtain ⟨n, hn⟩ := Nat.exists_eq_add_one.mpr hdepth
  have hnumber : value n (d ++ [closeBrace]) = .error (.longInteger d.length) := by
    rw [value_unsigned (hstarts.append _), number_whole hd hended, if_pos h]
  have hfield := field_write (value n) "tool" hskip
  rw [hnumber] at hfield
  have hvalue : value Host.jsonDepth
      (openBrace :: (writeString "tool" ++ CodePoint.ofChar ':' :: CodePoint.ofChar ' ' ::
      (d ++ [closeBrace]))) = .error (.longInteger d.length) := by
    rw [writeString_eq, List.cons_append] at hfield ⊢
    rw [openBrace, hn, value_object (by decide) (by decide), fields_error hfield]
    rfl
  have hread : Json.read (openBrace :: (writeString "tool" ++ CodePoint.ofChar ':' :: CodePoint.ofChar ' ' ::
      (d ++ [closeBrace]))) = .error (.longInteger d.length) := by
    rw [Json.read, if_neg (by rw [List.head?_cons]; decide), skipSpace_cons (by decide), hvalue]
    rfl
  rw [htext]
  refine toolCall?_error ?_
  rw [document?, List.append_assoc, List.cons_append, List.cons_append, hread]

open Json in

/-- The object that was written into a reply is found there, unless its brackets are nested too deeply. -/
theorem callObject?_write {before after : Text} (hi : ReadableIntegers (integersFields fields))
    (hb : openBrace ∉ before) (ha : closeBrace ∉ after) :
    callObject? (before ++ write (.obj fields) ++ after) =
      if (Json.obj fields).depth ≤ Host.jsonDepth then .ok (toolObject? (Json.obj fields).reread)
      else .error .tooDeep := by
  have hwrite : write (.obj fields) = openBrace :: (Text.joinWith ", " (writeFields fields) ++ [closeBrace]) := rfl
  have htext : before ++ write (.obj fields) ++ after =
      before ++ openBrace :: (Text.joinWith ", " (writeFields fields) ++ closeBrace :: after) := by
    rw [hwrite, List.append_assoc, List.cons_append, List.append_assoc, List.singleton_append]
  have hread := read_write (.obj fields) hi
  rw [hwrite] at hread
  rw [callObject?, htext, outerSpan?_trim hb ha]
  by_cases hdepth : (Json.obj fields).depth ≤ Host.jsonDepth
  · rw [if_pos hdepth] at hread
    simp only [document?, hread, if_pos hdepth]
    rfl
  · rw [if_neg hdepth] at hread
    simp only [document?, hread, if_neg hdepth]
    rfl

/-- The search for a call is given up: at the outer span, or, where that is malformed, at a span that is tried. -/
def Stopped (reply : Text) : Prop :=
  ∃ outer, outerSpan? reply.trim = some outer ∧
    (Unreadable outer ∨ document? outer = .ok none ∧ Stops (candidates reply.trim))

/-- The object with a `tool` field that is taken out of a reply. -/
inductive Carries (reply : Text) : List (Text × Json) → Prop
  | outer {span : Text} {v : Json} {fields : List (Text × Json)} (hs : outerSpan? reply.trim = some span)
      (hv : document? span = .ok (some v)) (ht : toolObject? v = some fields) : Carries reply fields
  | searched {outer span : Text} {fields : List (Text × Json)} (hs : outerSpan? reply.trim = some outer)
      (hv : document? outer = .ok none) (hl : Longest (candidates reply.trim) span) (hc : callOf? span = some fields) :
      Carries reply fields

/-- A call that a reply carries names a tool. -/
theorem Carries.tool (h : Carries reply fields) : ∃ tool, Json.lookup "tool" fields = some tool := by
  have hobject {v : Json} (ht : toolObject? v = some fields) : ∃ tool, Json.lookup "tool" fields = some tool := by
    cases v with
    | obj fs =>
      rw [toolObject?] at ht
      split at ht
      · cases ht
        exact Option.isSome_iff_exists.mp ‹_›
      · cases ht
    | _ => cases ht
  cases h with
  | outer hs hv ht => exact hobject ht
  | searched hs hv hl hc =>
    rw [callOf?] at hc
    split at hc
    · exact hobject hc
    · cases hc

/-- What becomes of the search for the object that carries a call. -/
inductive Search (reply : Text) : Except Fault (Option (List (Text × Json))) → Prop
  | stopped {fault : Fault} (h : Stopped reply) : Search reply (.error fault)
  | nothing (hs : ¬ Stopped reply) (hc : ∀ fields, ¬ Carries reply fields) : Search reply (.ok none)
  | object {fields : List (Text × Json)} (hs : ¬ Stopped reply) (hc : Carries reply fields) :
      Search reply (.ok (some fields))

/-- Where the outer span is no document the scan finds the longest call. -/
theorem search_scan {outer : Text} (hs : outerSpan? reply.trim = some outer) (hd : document? outer = .ok none) :
    Search reply (scan reply.trim) := by
  have hreadable : ¬ Unreadable outer := fun hu => by
    obtain ⟨fault, hf⟩ := unreadable_iff.mp hu
    rw [hd] at hf
    cases hf
  have hstopped : Stopped reply ↔ Stops (candidates reply.trim) := by
    simp [Stopped, hs, hreadable, hd]
  rw [scan_eq]
  have hne : ∀ span ∈ candidates reply.trim, span ≠ [] := fun _ => candidates_ne_nil
  rcases foldlM_trySpan hne with ⟨hstop, fault, hf⟩ | ⟨hgo, best, hf, hb⟩
  · rw [hf]
    exact .stopped (hstopped.mpr hstop)
  · rw [hf]
    rw [← hstopped] at hgo
    cases hb with
    | nothing hnone =>
      refine .nothing hgo fun fields hc => ?_
      cases hc with
      | outer hs' hv ht =>
        cases hs.symm.trans hs'
        cases hd.symm.trans hv
      | @searched _ span _ hs' hv hl hc =>
        obtain ⟨before, after, he, -, -⟩ := hl
        have hmem : span ∈ candidates reply.trim := he ▸ List.mem_append_right before List.mem_cons_self
        exact hnone span hmem (by rw [IsCall, hc]; rfl)
    | call hl hc => exact .object hgo (.searched hs hd hl hc)

/-- The call that is taken from a reply is what the search of it comes to. -/
theorem callObject?_search (reply : Text) : Search reply (callObject? reply) := by
  rw [callObject?]
  cases hs : outerSpan? reply.trim with
  | none =>
    refine .nothing ?_ fun fields hc => ?_
    · rintro ⟨outer, ho, -⟩
      cases hs.symm.trans ho
    · cases hc with
      | outer ho => cases hs.symm.trans ho
      | searched ho => cases hs.symm.trans ho
  | some outer =>
    cases hd : document? outer with
    | error fault =>
      simp only [hd, bind, Except.bind]
      exact .stopped ⟨outer, hs, Or.inl (unreadable_iff.mpr ⟨fault, hd⟩)⟩
    | ok v? =>
      cases v? with
      | none =>
        simp only [hd, bind, Except.bind]
        exact search_scan hs hd
      | some v =>
        have hgo : ¬ Stopped reply := by
          rintro ⟨outer', ho, hu | ⟨hmalformed, -⟩⟩
          · cases hs.symm.trans ho
            obtain ⟨fault, hf⟩ := unreadable_iff.mp hu
            cases hd.symm.trans hf
          · cases hs.symm.trans ho
            cases hd.symm.trans hmalformed
        simp only [hd, bind, Except.bind]
        cases ht : toolObject? v with
        | none =>
          refine .nothing hgo fun fields hc => ?_
          cases hc with
          | outer ho hv ht' =>
            cases hs.symm.trans ho
            cases hd.symm.trans hv
            cases ht.symm.trans ht'
          | searched ho hv =>
            cases hs.symm.trans ho
            cases hd.symm.trans hv
        | some fields => exact .object hgo (.outer hs hd ht)

/-- Every reply, also a missing one, is understood unless the search for a call is given up: as no call just if
it carries no object with a `tool` field, and as a call that is classified otherwise. -/
theorem classified_unless_stopped (reply? : Option Text) :
    ((∃ found, toolCall? (reply?.getD []) = .ok found) ↔ ¬ Stopped (reply?.getD [])) ∧
    (toolCall? (reply?.getD []) = .ok none ↔
      ¬ Stopped (reply?.getD []) ∧ ∀ fields, ¬ Carries (reply?.getD []) fields) ∧
    ∀ call, toolCall? (reply?.getD []) = .ok (some call) →
      ∃ fields tool, Carries (reply?.getD []) fields ∧ Json.lookup "tool" fields = some tool ∧
        Classified fields tool call := by
  generalize reply?.getD [] = reply
  have hsearch := callObject?_search reply
  rw [toolCall?]
  generalize callObject? reply = found at hsearch
  cases hsearch with
  | stopped hs =>
    refine ⟨⟨?_, fun hgo => absurd hs hgo⟩, ⟨?_, fun h => absurd hs h.1⟩, ?_⟩
    · rintro ⟨_, hf⟩
      cases hf
    · intro hf
      cases hf
    · intro _ hf
      cases hf
  | nothing hs hc =>
    refine ⟨⟨fun _ => hs, fun _ => ⟨_, rfl⟩⟩, ⟨fun _ => ⟨hs, hc⟩, fun _ => rfl⟩, ?_⟩
    intro _ hf
    cases hf
  | @object fields hs hc =>
    refine ⟨⟨fun _ => hs, fun _ => ⟨_, rfl⟩⟩, ⟨?_, fun h => absurd hc (h.2 fields)⟩, ?_⟩
    · intro hf
      cases hf
    · intro call hf
      cases hf
      obtain ⟨tool, htool⟩ := hc.tool
      exact ⟨fields, tool, hc, htool, validate_classified htool⟩

end

attribute [local instance] Host.usual

theorem bare_call_classified :
    toolCall? "\x7b\"tool\": \"run_tests\"\x7d" = .ok (some (.valid .runTests)) ∧
      ∃ fields tool, Carries "\x7b\"tool\": \"run_tests\"\x7d" fields ∧ Json.lookup "tool" fields = some tool ∧
        Classified fields tool (.valid .runTests) := by
  have hcall : toolCall? "\x7b\"tool\": \"run_tests\"\x7d" = .ok (some (.valid .runTests)) := by cbv
  exact ⟨hcall, (classified_unless_stopped (some "\x7b\"tool\": \"run_tests\"\x7d")).2.2 _ hcall⟩

/-- A reply for which no result comes back: its tool is a whole number of 4301 digits. -/
theorem long_tool_not_contained :
    toolCall? ("\x7b\"tool\": " ++ (CodePoint.ofChar '1' :: List.replicate 4300 (CodePoint.ofChar '0')) ++ "\x7d") =
      .error (.longInteger 4301) := by
  have hdigits : Decimal.IsNumeral (CodePoint.ofChar '1' :: List.replicate 4300 (CodePoint.ofChar '0')) := by
    refine Or.inr ⟨fun c hc => ?_, _, _, rfl, by decide⟩
    rcases List.mem_cons.mp hc with rfl | hc
    · decide
    · rw [List.eq_of_mem_replicate hc]
      decide
  have hlength : (CodePoint.ofChar '1' :: List.replicate 4300 (CodePoint.ofChar '0')).length = 4301 := by
    rw [List.length_cons, List.length_replicate]
  rw [toolCall?_longInteger (by decide) hdigits (by rw [hlength]; decide), hlength]

end CodeAgent.Reply
