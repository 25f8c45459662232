import CodeAgent.Source.Cursor

namespace CodeAgent.Source

open Reader

/-- The readers that the inside of an expression needs. -/
structure Level where
  expression : Reader Expr
  disjunction : Reader Expr
  inversion : Reader Expr
  bitwise : Reader Expr
  factor : Reader Expr
  primary : Reader Expr

def Level.none : Level := ⟨fail, fail, fail, fail, fail, fail⟩

namespace Level

variable (inner : Level)

def valueFrom (line : Nat) : Expr := ⟨.value, line⟩

def starredOr (other : Reader Expr) : Reader Expr := do
  let l ← line
  if ← acceptMark "*" then
    let e ← inner.bitwise
    pure ⟨.starred e.shape, l⟩
  else other

def named : Reader Expr := do
  let l ← line
  match ← peek, ← peekSecond with
  | .name _, .mark ":=" =>
    advance
    advance
    let _ ← inner.expression
    pure (valueFrom l)
  | _, _ =>
    let e ← inner.expression
    if ← atMark ":=" then fail else pure e

def listEnds : Reader Bool := do
  match ← peek with
  | .mark s =>
    pure (s = ")" || s = "]" || s = "\x7d" || s = "=" || s = ":" || s = ";" || s = "in" ||
      s = "for" || s = "async" || s = ",")
  | .newline | .stop | .indent | .dedent => pure true
  | _ => pure false

/-- Items with commas: one item without a comma stands for itself, else they make a tuple. -/
def itemsAsTuple (item : Reader Expr) : Reader Expr := do
  let l ← line
  let (es, isTuple) ← commaList listEnds item
  match es, isTuple with
  | [e], false => pure e
  | es, _ => pure ⟨.tuple (es.map Expr.shape), l⟩

/-- What may stand on the right of an assignment or after `return`. -/
def starExpressions : Reader Expr := itemsAsTuple (inner.starredOr inner.expression)

def yieldExpression : Reader Expr := do
  let l ← line
  mark "yield"
  if ← acceptMark "from" then
    let _ ← inner.expression
    pure (valueFrom l)
  else if ← listEnds then pure (valueFrom l)
  else
    let _ ← inner.starExpressions
    pure (valueFrom l)

def yieldOrStar : Reader Expr := do
  if ← atMark "yield" then inner.yieldExpression else inner.starExpressions

def starTarget : Reader Expr := do
  let l ← line
  let e ←
    if ← acceptMark "*" then do
      let e ← inner.primary
      pure (Expr.mk (.starred e.shape) l)
    else inner.primary
  if e.shape.isTarget true then pure e else fail

def starTargets : Reader Expr := itemsAsTuple inner.starTarget

def forClauses : Reader Unit := do
  let isFor : Reader Bool := do
    if ← atMark "for" then pure true
    else pure ((← peek) == .mark "async" && (← peekSecond) == .mark "for")
  let clause : Reader Unit := do
    let _ ← acceptMark "async"
    mark "for"
    let _ ← inner.starTargets
    mark "in"
    let _ ← inner.disjunction
    let _ ← repeatWhile (acceptMark "if") inner.disjunction
    pure ()
  clause
  let _ ← repeatWhile isFor clause
  pure ()

def atFor : Reader Bool := do
  if ← atMark "for" then pure true
  else pure ((← peek) == .mark "async" && (← peekSecond) == .mark "for")

def isStarred (e : Expr) : Bool :=
  match e.shape with
  | .starred _ => true
  | _ => false

def parenthesized (l : Nat) : Reader Expr := do
  if ← acceptMark ")" then pure ⟨.tuple [], l⟩
  else if ← atMark "yield" then
    let e ← inner.yieldExpression
    mark ")"
    pure e
  else
    let first ← inner.starredOr inner.named
    if ← atFor then
      if isStarred first then fail
      else
        inner.forClauses
        mark ")"
        pure (valueFrom l)
    else if ← acceptMark "," then
      if ← acceptMark ")" then pure ⟨.tuple [first.shape], l⟩
      else
        let (rest, _) ← commaList (atMark ")") (inner.starredOr inner.named)
        mark ")"
        pure ⟨.tuple (first.shape :: rest.map Expr.shape), l⟩
    else
      mark ")"
      if isStarred first then fail else pure first

def bracketed (l : Nat) : Reader Expr := do
  if ← acceptMark "]" then pure ⟨.list [], l⟩
  else
    let first ← inner.starredOr inner.named
    if ← atFor then
      match first.shape with
      | .starred _ => fail
      | _ =>
        inner.forClauses
        mark "]"
        pure (valueFrom l)
    else if ← acceptMark "," then
      if ← acceptMark "]" then pure ⟨.list [first.shape], l⟩
      else
        let (rest, _) ← commaList (atMark "]") (inner.starredOr inner.named)
        mark "]"
        pure ⟨.list (first.shape :: rest.map Expr.shape), l⟩
    else
      mark "]"
      pure ⟨.list [first.shape], l⟩

def atBinding : Reader Bool := do
  match ← peek, ← peekSecond with
  | .name _, .mark ":=" => pure true
  | _, _ => pure false

/-- A pair of a dictionary, or another dictionary to take over. -/
def dictionaryItem : Reader Unit := do
  if ← acceptMark "**" then
    let _ ← inner.bitwise
  else
    let _ ← inner.expression
    mark ":"
    let _ ← inner.expression

def restOf {α : Type} (close : String) (item : Reader α) : Reader Unit := do
  if ← acceptMark "," then
    if ← atMark close then pure ()
    else
      let _ ← commaList (atMark close) item
      pure ()
  else pure ()
  mark close

/-- After an opening brace: a dictionary when the first item has a colon, or else a set. -/
def braced (l : Nat) : Reader Expr := do
  if ← acceptMark "\x7d" then pure (valueFrom l)
  else if ← atMark "**" then
    inner.dictionaryItem
    restOf "\x7d" inner.dictionaryItem
    pure (valueFrom l)
  else
    let binding ← atBinding
    let first ← inner.starredOr inner.named
    if !binding && !isStarred first && (← acceptMark ":") then
      let _ ← inner.expression
      if ← atFor then
        inner.forClauses
        mark "\x7d"
      else restOf "\x7d" inner.dictionaryItem
    else if ← atFor then
      if isStarred first then fail
      else
        inner.forClauses
        mark "\x7d"
    else restOf "\x7d" (inner.starredOr inner.named)
    pure (valueFrom l)

/-- Neighbouring string literals are one; texts and bytes do not mix. -/
def strings : Reader Unit := do
  match ← peek with
  | .string bytes _ =>
    advance
    let rest ← repeatWhile (do match ← peek with
        | .string .. => pure true
        | _ => pure false)
      (do match ← peek with
        | .string b _ => advance; pure b
        | _ => fail)
    if rest.all (· == bytes) then pure () else fail
  | _ => fail

variable [Host]

def atom : Reader Expr := do
  let l ← line
  match ← peek with
  | .name cs =>
    advance
    pure ⟨.name (Identifier.text cs), l⟩
  | .number _ =>
    advance
    pure (valueFrom l)
  | .string .. =>
    strings
    pure (valueFrom l)
  | .mark s =>
    if s = "(" then do advance; inner.parenthesized l
    else if s = "[" then do advance; inner.bracketed l
    else if s = "\x7b" then do advance; inner.braced l
    else if s = "None" || s = "True" || s = "False" || s = "..." then do
      advance
      pure (valueFrom l)
    else fail
  | _ => fail

/-- Which kinds of argument may still follow. -/
inductive ArgumentStage where
  | positional
  | keyword
  | doubleStarred
deriving DecidableEq

def argument (stage : ArgumentStage) : Reader ArgumentStage := do
  if ← acceptMark "**" then
    let _ ← inner.expression
    pure .doubleStarred
  else if ← acceptMark "*" then
    if stage = .doubleStarred then fail
    else
      let _ ← inner.expression
      pure stage
  else
    match ← peek, ← peekSecond with
    | .name _, .mark "=" =>
      advance
      advance
      let _ ← inner.expression
      pure (if stage = .doubleStarred then .doubleStarred else .keyword)
    | _, _ =>
      if stage = .positional then
        let _ ← inner.named
        if ← atMark "=" then fail else pure .positional
      else fail

def argumentsFrom : (fuel : Nat) → ArgumentStage → Reader Unit
  | 0, _ => fail
  | n + 1, stage => do
    if ← acceptMark ")" then pure ()
    else
      let stage ← inner.argument stage
      if ← acceptMark "," then argumentsFrom n stage
      else mark ")"

/-- Arguments after an opening parenthesis; a generator may be the only one. -/
def arguments : Reader Unit := do
  let several : Reader Unit := do inner.argumentsFrom (← remaining) .positional
  match ← peek, ← peekSecond with
  | .mark "*", _ | .mark "**", _ | .mark ")", _ => several
  | .name _, .mark "=" => several
  | _, _ =>
    let _ ← inner.named
    if ← atFor then
      inner.forClauses
      mark ")"
    else if ← atMark "=" then fail
    else if ← acceptMark "," then several
    else mark ")"

def slice : Reader Unit := do
  let bound : Reader Unit := do
    match ← peek with
    | .mark s =>
      if s = ":" || s = "," || s = "]" then pure ()
      else
        let _ ← inner.expression
        pure ()
    | _ =>
      let _ ← inner.expression
      pure ()
  let afterColon : Reader Unit := do
    bound
    if ← acceptMark ":" then bound else pure ()
  if ← acceptMark "*" then
    let _ ← inner.expression
  else if ← acceptMark ":" then afterColon
  else
    let binding ← atBinding
    let _ ← inner.named
    if !binding && (← acceptMark ":") then afterColon else pure ()

def subscript : Reader Unit := do
  let _ ← commaList (atMark "]") inner.slice
  mark "]"

def trailers : (fuel : Nat) → Expr → Reader Expr
  | 0, e => pure e
  | n + 1, e => do
    if ← acceptMark "." then
      let _ ← spelling
      trailers n ⟨.place, e.line⟩
    else if ← acceptMark "(" then
      inner.arguments
      trailers n (valueFrom e.line)
    else if ← acceptMark "[" then
      inner.subscript
      trailers n ⟨.place, e.line⟩
    else pure e

/-- An atom with what follows it. With trailers it starts where its first token stands. -/
def primaryOf : Reader Expr := do
  let l ← line
  let e ← inner.atom
  match ← peek with
  | .mark s =>
    if s = "." || s = "(" || s = "[" then inner.trailers (← remaining) ⟨e.shape, l⟩ else pure e
  | _ => pure e

def power : Reader Expr := do
  let l ← line
  let awaited ← acceptMark "await"
  let e ← inner.primaryOf
  let e := if awaited then valueFrom l else e
  if ← acceptMark "**" then
    let _ ← inner.factor
    pure (valueFrom l)
  else pure e

def factorOf : Reader Expr := do
  let l ← line
  match ← peek with
  | .mark s =>
    if s = "+" || s = "-" || s = "~" then
      advance
      let _ ← inner.factor
      pure (valueFrom l)
    else inner.power
  | _ => inner.power

def chain (operators : List String) (operand : Reader Expr) : Reader Expr := do
  let l ← line
  let isOperator : Reader Bool := do
    match ← peek with
    | .mark s =>
      if operators.contains s then
        advance
        pure true
      else pure false
    | _ => pure false
  let e ← operand
  let rest ← repeatWhile isOperator operand
  pure (if rest.isEmpty then e else valueFrom l)

def bitwiseOf : Reader Expr :=
  chain ["|"] <| chain ["^"] <| chain ["&"] <| chain ["<<", ">>"] <| chain ["+", "-"] <|
    chain ["*", "/", "//", "%", "@"] inner.factorOf

def comparisonOperator : Reader Bool := do
  match ← peek with
  | .mark s =>
    if ["==", "!=", "<=", "<", ">=", ">", "in"].contains s then
      advance
      pure true
    else if s = "is" then
      advance
      let _ ← acceptMark "not"
      pure true
    else if s = "not" then
      match ← peekSecond with
      | .mark "in" =>
        advance
        advance
        pure true
      | _ => pure false
    else pure false
  | _ => pure false

def comparison : Reader Expr := do
  let l ← line
  let e ← inner.bitwiseOf
  let rest ← repeatWhile comparisonOperator inner.bitwiseOf
  pure (if rest.isEmpty then e else valueFrom l)

def inversionOf : Reader Expr := do
  let l ← line
  if ← acceptMark "not" then
    let _ ← inner.inversion
    pure (valueFrom l)
  else inner.comparison

def disjunctionOf : Reader Expr := chain ["or"] (chain ["and"] inner.inversionOf)

/-- How far a list of parameters has come. -/
structure ParameterStage where
  any : Bool := false
  default : Bool := false
  slash : Bool := false
  star : Bool := false
  /-- A bare star waits for a name. -/
  bare : Bool := false

/-- Parameters up to `close`, which is left. Parameters of a function can be annotated. -/
def parametersFrom (annotated : Bool) (close : String) : (fuel : Nat) → ParameterStage → Reader Unit
  | 0, _ => fail
  | n + 1, stage => do
    let annotation (starred : Bool) : Reader Unit := do
      if annotated then
        if ← acceptMark ":" then
          let _ ← if starred then inner.starredOr inner.expression else inner.expression
          pure ()
        else pure ()
      else pure ()
    let next (stage : ParameterStage) : Reader Unit := do
      if ← acceptMark "," then parametersFrom annotated close n stage
      else if ← atMark close then (if stage.bare then fail else pure ())
      else fail
    if ← atMark close then (if stage.bare then fail else pure ())
    else if ← acceptMark "**" then
      if stage.bare then fail
      else
        let _ ← spelling
        annotation false
        let _ ← acceptMark ","
        if ← atMark close then pure () else fail
    else if ← acceptMark "*" then
      if stage.star then fail
      else if ← atMark "," then next { stage with star := true, bare := true }
      else
        let _ ← spelling
        annotation true
        next { stage with star := true }
    else if ← acceptMark "/" then
      if stage.slash || stage.star || !stage.any then fail else next { stage with slash := true }
    else
      let _ ← spelling
      annotation false
      let hasDefault ← acceptMark "="
      if hasDefault then
        let _ ← inner.expression
      else pure ()
      if stage.default && !hasDefault && !stage.star then fail
      else
        next { stage with any := true, default := stage.default || hasDefault, bare := false }

def parameters (annotated : Bool) (close : String) : Reader Unit := do
  inner.parametersFrom annotated close ((← remaining) + 1) {}

def lambda : Reader Expr := do
  let l ← line
  mark "lambda"
  inner.parameters false ":"
  mark ":"
  let _ ← inner.expression
  pure ⟨.lambda, l⟩

def expressionOf : Reader Expr := do
  let l ← line
  if ← atMark "lambda" then inner.lambda
  else
    let e ← inner.disjunctionOf
    if ← acceptMark "if" then
      let _ ← inner.disjunctionOf
      mark "else"
      let _ ← inner.expression
      pure (valueFrom l)
    else pure e

def next : Level :=
  ⟨inner.expressionOf, inner.disjunctionOf, inner.inversionOf, inner.bitwiseOf, inner.factorOf,
   inner.primaryOf⟩

end Level

variable [Host]

/-- Readers for expressions with at most so many levels of nesting. -/
def Level.ofDepth : Nat → Level
  | 0 => Level.none
  | n + 1 => (Level.ofDepth n).next

end CodeAgent.Source
