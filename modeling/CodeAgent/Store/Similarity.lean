import CodeAgent.Agent.Report
import CodeAgent.Host
import CodeAgent.Store.Basic

namespace CodeAgent

/-- At most `limit` records whose vectors have the length of the query, with their scores. The places of the scores
from the best on are given by `order`. -/
def Store.top {β : Type} (score : Vector64 → Vector64 → β) (order : List β → List Nat) (s : Store)
    (query : Vector64) (limit : Int) : List (StoredChunk × β) :=
  let candidates := s.records.filter (·.vector.length = query.length)
  let scored := candidates.map fun r => (r, score query r.vector)
  ((order (scored.map (·.2))).take limit.toNat).filterMap fun i => scored[i]?

variable [Host]

namespace Similarity

/-- The cosine of the angle between two vectors, zero when one of them is zero. -/
def cosine (query v : Vector64) : Binary64 :=
  let norms := Host.numerics.mul (Host.numerics.norm v) (Host.numerics.norm query)
  if norms.isPositive then Host.numerics.div (Host.numerics.dot v query) norms else .zero

def order (scores : List Binary64) : List Nat := Host.numerics.argsort (scores.map Binary64.neg)

end Similarity

def Store.search (s : Store) (query : Vector64) (limit : Int) : List ScoredChunk :=
  (s.top Similarity.cosine Similarity.order query limit).map fun (r, score) =>
    ⟨r.chunk.path, r.chunk.kind, r.chunk.name, r.chunk.text, r.chunk.startLine, r.chunk.endLine, score⟩

end CodeAgent
