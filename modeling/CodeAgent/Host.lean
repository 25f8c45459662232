import CodeAgent.Number.Binary64
import CodeAgent.Text.CodePoint

namespace CodeAgent

/-- The stacks on which source text is read: that of the event loop, and that of a worker thread. -/
inductive Stack where
  | loop
  | thread
deriving DecidableEq

/-- Arithmetic of vectors in single precision, and the places of numbers from the least to the greatest. -/
structure Numerics where
  dot : List Binary64 → List Binary64 → Binary64
  norm : List Binary64 → Binary64
  mul : Binary64 → Binary64 → Binary64
  div : Binary64 → Binary64 → Binary64
  argsort : List Binary64 → List Nat

/-- What the program finds where it runs and does not decide itself. -/
class Host where
  /-- How many brackets of a JSON document may be open at once. -/
  jsonDepth : Nat
  /-- What is told of a source text that is nested too deep for the stack on which it is read. -/
  overNested? : Stack → Text → Option Text
  /-- The composed compatibility form of a name. -/
  composed : Text → Text
  characterNamed? : List Char → Option Nat
  numerics : Numerics

end CodeAgent
