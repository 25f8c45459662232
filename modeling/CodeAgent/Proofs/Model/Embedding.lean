import CodeAgent.Model.Embedding
import CodeAgent.Proofs.Store.Load
import Mathlib.Algebra.Order.Floor.Div

namespace CodeAgent

/-- What is made of the value of a dialogue leaves its requests and its waits. -/
theorem Dialogue.run_bind_done {α β : Type} (d : Dialogue α) (g : α → β) (replies : List Reply) :
    (d.bind fun a => .done (g a)).run replies =
      ⟨(d.run replies).requests, (d.run replies).waits, (d.run replies).value.map g⟩ := by
  induction d generalizing replies with
  | done a => rfl
  | ask request next ih =>
    cases replies with
    | nil => rfl
    | cons reply rest => simp only [bind, run, ih]
  | wait tenths next ih => simp only [bind, run, ih]

namespace Model

variable {α : Type} {size : Nat} {texts batch : List Text} {reply : Reply} {items : List Json}
  {vectors : List Vector64} {model : Text}

theorem flatten_batches (size : Nat) (xs : List α) : (batches size xs).flatten = xs := by
  fun_induction batches size xs with
  | case1 => rfl
  | case2 x r ih => rw [List.flatten_cons, ih, List.cons_append, List.take_append_drop]

theorem mem_batches (hsize : 0 < size) {xs b : List α} (h : b ∈ batches size xs) : b ≠ [] ∧ b.length ≤ size := by
  fun_induction batches size xs with
  | case1 => cases h
  | case2 x r ih =>
    rcases List.mem_cons.mp h with rfl | h
    · refine ⟨List.cons_ne_nil _ _, ?_⟩
      rw [List.length_cons, List.length_take]
      omega
    · exact ih h

theorem length_batches (hsize : 0 < size) (xs : List α) : (batches size xs).length = xs.length ⌈/⌉ size := by
  fun_induction batches size xs with
  | case1 => rw [List.length_nil, List.length_nil, zero_ceilDiv]
  | case2 x r ih =>
    rw [List.length_cons, ih, List.length_drop, List.length_cons, Nat.ceilDiv_eq_add_pred_div,
      Nat.ceilDiv_eq_add_pred_div]
    have hlater : (r.length - (size - 1) + size - 1) / size = r.length / size := by
      by_cases hlong : size - 1 ≤ r.length
      · congr 1
        omega
      · rw [Nat.div_eq_of_lt (by omega), Nat.div_eq_of_lt (by omega)]
    rw [hlater, show r.length + 1 + size - 1 = r.length + size by omega, Nat.add_div_right _ hsize]

/-- How texts are cut for a configured size, which may be no size at all. -/
structure Batched (size : Int) (texts : List Text) (batches : List (List Text)) : Prop where
  whole : batches.flatten = texts
  nonempty : ∀ batch ∈ batches, batch ≠ []
  bounded : ∀ batch ∈ batches, (batch.length : Int) ≤ max 1 size
  count : batches.length = texts.length ⌈/⌉ (max 1 size).toNat

theorem batched (size : Int) (texts : List Text) : Batched size texts (batches (max 1 size).toNat texts) := by
  have hpos : 0 < (max 1 size).toNat := by omega
  constructor
  case whole => exact flatten_batches _ texts
  case nonempty =>
    intro batch hbatch
    exact (mem_batches hpos hbatch).1
  case bounded =>
    intro batch hbatch
    have hle := (mem_batches hpos hbatch).2
    omega
  case count => exact length_batches hpos texts

/-- A number in a reply. -/
inductive IsNumber : Json → Binary64 → Prop where
  | float (x : Binary64) : IsNumber (.float x) x
  | int (i : Int) (inRange : (Binary64.ofInt i).isInfinite = false) : IsNumber (.int i) (.ofInt i)

/-- A vector in a reply. -/
inductive IsVector : Json → Vector64 → Prop where
  | list {items : List Json} {v : Vector64} (numbers : List.Forall₂ IsNumber items v) : IsVector (.arr items) v

/-- What stands in the place of the vectors in a reply, where this is a list. -/
inductive Lists : Reply → List Json → Prop where
  | plain {fields : List (Text × Json)} {items : List Json}
      (found : Json.lookup "embeddings" fields = some (.arr items)) : Lists (.client (.plain (.obj fields))) items
  | dumped {fields : List (Text × Json)} {items : List Json}
      (found : Json.lookup "embeddings" fields = some (.arr items)) : Lists (.client (.dumped (.obj fields))) items
  | attributes {fields : List (Text × Json)} {items : List Json}
      (found : Json.lookup "embeddings" fields = some (.arr items)) : Lists (.client (.attributes fields)) items

def Carries (reply : Reply) (vectors : List Vector64) : Prop :=
  ∃ items, Lists reply items ∧ List.Forall₂ IsVector items vectors

/-- A reply that is an error, or has another number of vectors than there are texts. -/
inductive Fails (count : Nat) : Reply → Prop where
  | refused (error : Text) (status : Int) : Fails count (.refused error status)
  | unreachable (reason : Text) : Fails count (.unreachable reason)
  | transportError (reason : Text) : Fails count (.transportError reason)
  | miscounted {reply : Reply} {items : List Json} (lists : Lists reply items) (differs : items.length ≠ count) :
      Fails count reply
  | noList {v : Json} (none : ∀ items, v.get? "embeddings" ≠ some (.arr items)) : Fails count (.client (.plain v))

theorem IsNumber.component {v : Json} {x : Binary64} (h : IsNumber v x) : component v = .ok x := by
  cases h with
  | float => rfl
  | int i inRange => simp only [Model.component, inRange, Bool.false_eq_true, ↓reduceIte]

theorem IsVector.vector {v : Json} {x : Vector64} (h : IsVector v x) : vector v = .ok x := by
  cases h with
  | list numbers => exact mapM_ok_iff.mpr (numbers.imp fun _ _ hn => hn.component)

theorem Lists.batchVectors (h : Lists reply items) (count : Nat) : batchVectors count reply =
    if items.length = count then items.mapM vector else batchVectors.malformed count := by
  cases h with
  | plain found => simp only [Model.batchVectors, embeddings?, Json.get?, found]
  | dumped found =>
    simp only [Model.batchVectors, embeddings?, Json.get?, found, Option.bind_some, Json.items?]
  | attributes found =>
    simp only [Model.batchVectors, embeddings?, found, Json.items?, Option.elim_some]

theorem Carries.batchVectors (h : Carries reply vectors) : batchVectors vectors.length reply = .ok vectors := by
  obtain ⟨items, hlists, hvectors⟩ := h
  rw [hlists.batchVectors, if_pos hvectors.length_eq]
  exact mapM_ok_iff.mpr (hvectors.imp fun _ _ hv => hv.vector)

/-- Such a reply is told as a failure of the provider. -/
theorem Fails.batchVectors {count : Nat} (h : Fails count reply) :
    ∃ fault, batchVectors count reply = .error (.backend fault) := by
  cases h with
  | refused error status => exact ⟨_, rfl⟩
  | unreachable reason => exact ⟨_, rfl⟩
  | transportError reason => exact ⟨_, rfl⟩
  | miscounted lists differs =>
    rw [lists.batchVectors, if_neg differs]
    exact ⟨_, rfl⟩
  | @noList v hnone =>
    have hmissing : embeddings? (.plain v) = .ok none := by simp only [embeddings?]
    simp only [Model.batchVectors, hmissing]
    exact ⟨_, rfl⟩

variable {rest replies : List Reply} {later : List (List Text)} {count : Nat}

/-- A batch that is answered is sent, and its vectors stand in front of those of the later batches. -/
theorem run_answered (h : Carries reply vectors) (hl : vectors.length = batch.length) (model : Text)
    (later : List (List Text)) (replies : List Reply) :
    (embedBatches model (batch :: later)).run (reply :: replies) =
      ⟨.embed model batch :: ((embedBatches model later).run replies).requests,
        ((embedBatches model later).run replies).waits,
        ((embedBatches model later).run replies).value.map fun value => value.map (vectors ++ ·)⟩ := by
  simp only [embedBatches, Dialogue.run, ← hl, h.batchVectors, Dialogue.run_bind_done]

/-- After a batch that fails nothing is sent. -/
theorem run_failed (h : Fails batch.length reply) (model : Text) (later : List (List Text)) (replies : List Reply) :
    ∃ fault, (embedBatches model (batch :: later)).run (reply :: replies) =
      ⟨[.embed model batch], [], some (.error (.backend fault))⟩ := by
  obtain ⟨fault, hfault⟩ := h.batchVectors
  exact ⟨fault, by simp only [embedBatches, Dialogue.run, hfault]⟩

/-- A service that makes one vector of every text answers a batch with them. -/
def Answers (f : Text → Vector64) (batch : List Text) (reply : Reply) : Prop := Carries reply (batch.map f)

/-- A reply that has one vector for every text of a batch. -/
def Answered (batch : List Text) (reply : Reply) : Prop :=
  ∃ vectors, Carries reply vectors ∧ vectors.length = batch.length

theorem run_batches {f : Text → Vector64} {pieces : List (List Text)} (h : List.Forall₂ (Answers f) pieces replies)
    (model : Text) (rest : List Reply) : (embedBatches model pieces).run (replies ++ rest) =
      ⟨pieces.map (.embed model), [], some (.ok (pieces.flatten.map f))⟩ := by
  induction h with
  | nil => rfl
  | @cons batch reply later replies hanswer _ ih =>
    rw [List.cons_append, run_answered hanswer (List.length_map f), ih]
    simp [Except.map]

theorem run_until_failed {before : List (List Text)} (h : List.Forall₂ Answered before replies)
    (hfails : Fails batch.length reply) (model : Text) (after : List (List Text)) (rest : List Reply) :
    ∃ fault, (embedBatches model (before ++ batch :: after)).run (replies ++ reply :: rest) =
      ⟨(before ++ [batch]).map (.embed model), [], some (.error (.backend fault))⟩ := by
  induction h with
  | nil => exact run_failed hfails model after rest
  | @cons first answer before replies hanswer _ ih =>
    obtain ⟨vectors, hvectors, hl⟩ := hanswer
    obtain ⟨fault, hfault⟩ := ih
    refine ⟨fault, ?_⟩
    rw [List.cons_append, List.cons_append, run_answered hvectors hl, hfault]
    simp [Except.map]

/-- Whatever the configured size is, the texts are sent in as few batches as it allows. Where every batch is answered
with the vectors of its texts, the vectors of all texts come back in their order. Where one fails, it is the last that
is sent, and a failure of the provider comes back. -/
theorem embed_batched {c : Config} {size : Int} (hsize : c.get .embeddingBatchSize = .int size) (texts : List Text) :
    Batched size texts (batches (max 1 size).toNat texts) ∧
    (∀ f replies rest, List.Forall₂ (Answers f) (batches (max 1 size).toNat texts) replies →
      (embed c texts).run (replies ++ rest) =
        ⟨(batches (max 1 size).toNat texts).map (.embed (c.text .embeddingModel)), [],
          some (.ok (texts.map f))⟩) ∧
    ∀ before batch after replies reply rest, batches (max 1 size).toNat texts = before ++ batch :: after →
      List.Forall₂ Answered before replies → Fails batch.length reply →
      ∃ fault, (embed c texts).run (replies ++ reply :: rest) =
        ⟨(before ++ [batch]).map (.embed (c.text .embeddingModel)), [], some (.error (.backend fault))⟩ := by
  have hembed : embed c texts = embedBatches (c.text .embeddingModel) (batches (max 1 size).toNat texts) := by
    simp only [embed, Config.int, hsize]
  rw [hembed]
  refine ⟨batched size texts, ?_, ?_⟩
  · intro f replies rest hanswers
    rw [run_batches hanswers, flatten_batches]
  · intro before batch after replies reply rest hpieces hanswered hfails
    rw [hpieces]
    exact run_until_failed hanswered hfails _ after rest

def replyWith (numbers : List Int) : Reply :=
  .client (.plain (.obj [("embeddings", .arr (numbers.map fun i => .arr [.int i]))]))

theorem replyWith_carries {numbers : List Int} (h : ∀ i ∈ numbers, (Binary64.ofInt i).isInfinite = false) :
    Carries (replyWith numbers) (numbers.map fun i => [Binary64.ofInt i]) := by
  refine ⟨numbers.map fun i => .arr [.int i], .plain rfl, ?_⟩
  rw [List.forall₂_map_left_iff, List.forall₂_map_right_iff, List.forall₂_same]
  intro i hi
  exact .list (.cons (.int i (h i hi)) .nil)

def inPairs : Config := Config.default.set .embeddingBatchSize (.int 2)

def sizeVector (t : Text) : Vector64 := [.ofInt t.length]

/-- Three texts are sent in two requests, and of a second reply that is one vector short a failure is told. -/
theorem three_texts_embedded :
    (embed inPairs ["a", "bb", "ccc"]).run [replyWith [1, 2], replyWith [3]] =
      ⟨[.embed "nomic-embed-text" ["a", "bb"], .embed "nomic-embed-text" ["ccc"]], [],
        some (.ok [sizeVector "a", sizeVector "bb", sizeVector "ccc"])⟩ ∧
    ∃ fault, (embed inPairs ["a", "bb", "ccc"]).run [replyWith [1, 2], replyWith []] =
      ⟨[.embed "nomic-embed-text" ["a", "bb"], .embed "nomic-embed-text" ["ccc"]], [],
        some (.error (.backend fault))⟩ := by
  have hsize : inPairs.get .embeddingBatchSize = .int 2 := rfl
  have hpieces : batches (max 1 (2 : Int)).toNat (["a", "bb", "ccc"] : List Text) =
      ([["a", "bb"], ["ccc"]] : List (List Text)) := by
    simp [batches]
  obtain ⟨-, hanswered, hfailed⟩ := embed_batched hsize ["a", "bb", "ccc"]
  rw [hpieces] at hanswered hfailed
  have hpair : Carries (replyWith [1, 2]) ([1, 2].map fun i => [Binary64.ofInt i]) :=
    replyWith_carries (by decide +kernel)
  have hsingle : Carries (replyWith [3]) ([3].map fun i => [Binary64.ofInt i]) := replyWith_carries (by decide +kernel)
  constructor
  · apply hanswered sizeVector [replyWith [1, 2], replyWith [3]] []
    exact .cons hpair (.cons hsingle .nil)
  · apply hfailed [["a", "bb"]] ["ccc"] [] [replyWith [1, 2]] (replyWith []) [] rfl
    · exact .cons ⟨_, hpair, rfl⟩ .nil
    · exact .miscounted (.plain rfl) (by simp)

end Model
end CodeAgent
