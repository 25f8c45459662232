import CodeAgent.Model.Provider
import CodeAgent.Store.Basic

namespace CodeAgent.Model

/-- Cuts a list into pieces of a size; only the last piece can be shorter. -/
def batches {α : Type} (size : Nat) (xs : List α) : List (List α) :=
  match xs with
  | [] => []
  | x :: r => (x :: r.take (size - 1)) :: batches size (r.drop (size - 1))
termination_by xs.length
decreasing_by simp only [List.length_drop, List.length_cons]; omega

/-- A vector component: a number, a switch, or a text that reads as a number. A whole number can lie beyond the
range of components. -/
def component : Json → Except ProviderFault Binary64
  | .float x => .ok x
  | .int i => if (Binary64.ofInt i).isInfinite then .error .outOfRange else .ok (Binary64.ofInt i)
  | .bool b => .ok (Binary64.ofInt (if b then 1 else 0))
  | .str t =>
    match Decimal.readFloat? t with
    | some x => .ok x
    | none => .error .noNumber
  | _ => .error .illTyped

def vector (v : Json) : Except ProviderFault Vector64 :=
  match v.items? with
  | some items => items.mapM component
  | none => .error .illTyped

def embeddings? : ClientValue → Except ProviderFault (Option (List Json))
  | .plain v =>
    match v.get? "embeddings" with
    | some (.arr items) => .ok (some items)
    | _ => .ok none
  | .dumped v => .ok ((v.get? "embeddings").bind Json.items?)
  | .attributes fields =>
    match Json.lookup "embeddings" fields with
    | none => .ok none
    | some v => (v.items?).elim (.error .illTyped) fun items => .ok (some items)

def batchVectors (count : Nat) : Reply → Except ProviderFault (List Vector64)
  | .refused reason status => refusal "ollama-embed" reason status
  | .unreachable reason | .transportError reason =>
    fail "ollama-embed" ("Cannot reach Ollama: " ++ reason)
  | .http _ _ => malformed
  | .client value =>
    match embeddings? value with
    | .error fault => .error fault
    | .ok none => malformed
    | .ok (some items) => if items.length = count then items.mapM vector else malformed
where
  malformed : Except ProviderFault (List Vector64) :=
    fail "ollama-embed" ("Malformed embedding response: expected " ++ Text.ofNat count ++ " vectors")

/-- Sends one batch after the other and stops at the first that fails. -/
def embedBatches (model : Text) : List (List Text) → Dialogue (Except ProviderFault (List Vector64))
  | [] => .done (.ok [])
  | batch :: rest => .ask (.embed model batch) fun reply =>
    match batchVectors batch.length reply with
    | .error fault => .done (.error fault)
    | .ok vectors => (embedBatches model rest).bind fun later => .done (later.map (vectors ++ ·))

def embed (c : Config) (texts : List Text) : Dialogue (Except ProviderFault (List Vector64)) :=
  embedBatches (c.text .embeddingModel) (batches (max 1 (c.int .embeddingBatchSize)).toNat texts)

end CodeAgent.Model
