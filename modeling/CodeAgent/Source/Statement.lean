import CodeAgent.Source.Pattern
import CodeAgent.Source.Lexer

namespace CodeAgent.Source

open Reader

namespace Statement

variable (e : Level)

def augmented : List String :=
  ["+=", "-=", "*=", "/=", "//=", "%=", "@=", "&=", "|=", "^=", ">>=", "<<=", "**="]

/-- Targets, each with an equals sign after it, and whether they bind a plain name. -/
def boundNames : (fuel : Nat) → Reader (List Text)
  | 0 => pure []
  | n + 1 => do
    match ← optional (do let t ← e.starTargets; mark "="; pure t) with
    | some t =>
      let more ← boundNames n
      match t.shape with
      | .name id => pure (id :: more)
      | _ => pure more
    | none => pure []

def startsBinding : Reader Bool := do
  pure (!(← wouldFail (do let _ ← e.starTargets; mark "=")))

def binding : Reader Stmt := do
  let first ← line
  let names ← boundNames e (← remaining)
  let value ← e.yieldOrStar
  let last ← lastLine
  if ← atMark "=" then fail
  else match value.shape with
    | .lambda => pure (.bindLambda names ⟨first, [], last⟩)
    | _ => pure .plain

def annotated : Reader Stmt := do
  let target ← e.primary
  if !target.shape.isSingle then fail
  else
    mark ":"
    let _ ← e.expression
    if ← acceptMark "=" then
      let _ ← e.yieldOrStar
      pure .plain
    else pure .plain

def update : Reader Stmt := do
  let target ← e.primary
  if !target.shape.isSingle then fail
  else match ← peek with
    | .mark s =>
      if augmented.contains s then
        advance
        let _ ← e.yieldOrStar
        pure .plain
      else fail
    | _ => fail

def expressionStatement : Reader Stmt := do
  if ← startsBinding e then binding e
  else
    either (annotated e) <| either (update e) <| do
      let _ ← e.yieldOrStar
      pure .plain

variable [Host]

def dottedName : Reader Text := do
  let parts ← separated "." name
  pure (Text.joinWith "." parts)

def alias_ : Reader Unit := do
  if ← acceptMark "as" then
    let _ ← spelling
    pure ()
  else pure ()

def importModules : Reader Stmt := do
  mark "import"
  let modules ← separated "," (do
    let m ← dottedName
    alias_
    pure m)
  pure (.importModules modules)

def dots : (fuel : Nat) → Reader Nat
  | 0 => pure 0
  | n + 1 => do
    if ← acceptMark "." then pure ((← dots n) + 1)
    else if ← acceptMark "..." then pure ((← dots n) + 3)
    else pure 0

def importedName : Reader Text := do
  let n ← name
  alias_
  pure n

def importFrom : Reader Stmt := do
  mark "from"
  let level ← dots (← remaining)
  let module ←
    if ← atMark "import" then (if level = 0 then fail else pure [])
    else dottedName
  mark "import"
  if ← acceptMark "*" then pure (.importFrom module level [])
  else if ← acceptMark "(" then
    let (names, _) ← commaList (atMark ")") importedName
    mark ")"
    pure (.importFrom module level names)
  else
    let names ← separated "," importedName
    if ← atMark "," then fail else pure (.importFrom module level names)

def deletion : Reader Stmt := do
  mark "del"
  let ends : Reader Bool := do
    match ← peek with
    | .newline => pure true
    | .mark ";" => pure true
    | _ => pure false
  let target : Reader Unit := do
    let t ← e.primary
    if t.shape.isDeletable then pure () else fail
  let _ ← commaList ends target
  if ← ends then pure .plain else fail

def atEnd : Reader Bool := do
  match ← peek with
  | .newline => pure true
  | .mark ";" => pure true
  | _ => pure false

def keyworded (w : String) : Reader Stmt := do
  if w = "pass" || w = "break" || w = "continue" then
    advance
    pure .plain
  else if w = "return" then
    advance
    if ← atEnd then pure .plain
    else
      let _ ← e.starExpressions
      pure .plain
  else if w = "import" then importModules
  else if w = "from" then importFrom
  else if w = "raise" then
    advance
    if ← atEnd then pure .plain
    else
      let _ ← e.expression
      if ← acceptMark "from" then
        let _ ← e.expression
        pure .plain
      else pure .plain
  else if w = "del" then deletion e
  else if w = "assert" then
    advance
    let _ ← e.expression
    if ← acceptMark "," then
      let _ ← e.expression
      pure .plain
    else pure .plain
  else if w = "global" || w = "nonlocal" then
    advance
    let _ ← separated "," spelling
    pure .plain
  else expressionStatement e

def simple : Reader Stmt := do
  match ← peek with
  | .mark w => keyworded e w
  | _ => expressionStatement e

def simpleLine : Reader (List Stmt) := do
  let first ← simple e
  let more : Reader Bool := do
    if ← atMark ";" then (do pure (← wouldFail (do mark ";"; expect .newline))) else pure false
  let rest ← repeatWhile more (do mark ";"; simple e)
  let _ ← acceptMark ";"
  expect .newline
  pure (first :: rest)

/-- The statements below a colon: an indented block, or simple statements on the same line. -/
def blockOf (statements : Reader (List Stmt)) : Reader (List Stmt) := do
  if ← accept .newline then
    expect .indent
    let body ← statements
    expect .dedent
    pure body
  else simpleLine e

variable (body : Reader (List Stmt))

def elseBlock : Reader (List Stmt) := do
  if ← acceptMark "else" then
    mark ":"
    body
  else pure []

/-- After `if` or `elif`. A further branch is a statement of its own inside this one. -/
def ifFrom : (fuel : Nat) → Reader Stmt
  | 0 => fail
  | n + 1 => do
    let _ ← e.named
    mark ":"
    let yes ← body
    if ← acceptMark "elif" then
      let other ← ifFrom n
      pure (.block (yes ++ [other]))
    else
      let no ← elseBlock body
      pure (.block (yes ++ no))

def whileLoop : Reader Stmt := do
  mark "while"
  let _ ← e.named
  mark ":"
  let inside ← body
  let after ← elseBlock body
  pure (.block (inside ++ after))

def forLoop : Reader Stmt := do
  mark "for"
  let _ ← e.starTargets
  mark "in"
  let _ ← e.starExpressions
  mark ":"
  let inside ← body
  let after ← elseBlock body
  pure (.block (inside ++ after))

def withItem : Reader Unit := do
  let plain : Reader Unit := do
    let _ ← e.expression
  let bound : Reader Unit := do
    let _ ← e.expression
    mark "as"
    let _ ← e.starTarget
    match ← peek with
    | .mark s => if s = "," || s = ")" || s = ":" then pure () else fail
    | _ => fail
  either bound plain

def withBlock : Reader Stmt := do
  mark "with"
  let grouped : Reader Unit := do
    mark "("
    let _ ← commaList (atMark ")") (withItem e)
    mark ")"
    mark ":"
  let flat : Reader Unit := do
    let _ ← separated "," (withItem e)
    mark ":"
  either grouped flat
  let inside ← body
  pure (.block inside)

/-- A handler after `except`; its statements are one level further down. -/
def handler (star : Bool) : Reader Stmt := do
  mark "except"
  let starred ← acceptMark "*"
  if starred != star then fail
  else
    if !starred && (← atMark ":") then pure ()
    else
      let _ ← e.expression
      alias_
    mark ":"
    let inside ← body
    pure (.block inside)

def tryBlock : Reader Stmt := do
  mark "try"
  mark ":"
  let inside ← body
  let star ← (do pure ((← peek) == .mark "except" && (← peekSecond) == .mark "*"))
  let handlers ← repeatWhile (atMark "except") (handler e body star)
  let otherwise ← if handlers.isEmpty then pure [] else elseBlock body
  let finally_ ←
    if ← acceptMark "finally" then do
      mark ":"
      pure (some (← body))
    else pure none
  match handlers, finally_ with
  | [], none => fail
  | hs, f => pure (.block (inside ++ hs ++ otherwise ++ f.getD []))

def caseClause (depth : Nat) : Reader Stmt := do
  softWord "case"
  Pattern.top depth
  if ← acceptMark "if" then
    let _ ← e.named
    pure ()
  else pure ()
  mark ":"
  let inside ← body
  pure (.block inside)

def atCase : Reader Bool := do
  pure ((← peek) == .name ['c', 'a', 's', 'e'])

def matchBlock (depth : Nat) : Reader Stmt := do
  softWord "match"
  let subject ← Level.itemsAsTuple (e.starredOr e.named)
  match subject.shape with
  | .starred _ => fail
  | _ =>
    mark ":"
    expect .newline
    expect .indent
    let first ← caseClause e body depth
    let rest ← repeatWhile atCase (caseClause e body depth)
    expect .dedent
    pure (.block (first :: rest))

def functionDef (decorators : List Nat) (first : Nat) : Reader Stmt := do
  mark "def"
  let n ← name
  mark "("
  e.parameters true ")"
  mark ")"
  if ← acceptMark "->" then
    let _ ← e.expression
    pure ()
  else pure ()
  mark ":"
  let inside ← body
  pure (.function n ⟨first, decorators, ← lastLine⟩ inside)

def classDefinition (decorators : List Nat) (first : Nat) : Reader Stmt := do
  mark "class"
  let n ← name
  if ← acceptMark "(" then e.argumentsFrom (← remaining) .positional else pure ()
  mark ":"
  let inside ← body
  pure (.classDef n ⟨first, decorators, ← lastLine⟩ inside)

def decoratorLines : Reader (List Nat) :=
  repeatWhile (acceptMark "@") (do
    let d ← e.named
    expect .newline
    pure d.line)

/-- A function or class with its decorators, a loop, or a block. -/
def asyncStatement (decorators : List Nat) : Reader Stmt := do
  let first ← line
  mark "async"
  match ← peek with
  | .mark "def" => functionDef e body decorators first
  | .mark "for" => if decorators.isEmpty then forLoop e body else fail
  | .mark "with" => if decorators.isEmpty then withBlock e body else fail
  | _ => fail

def decorated : Reader Stmt := do
  let decorators ← decoratorLines e
  let first ← line
  match ← peek with
  | .mark "def" => functionDef e body decorators first
  | .mark "class" => classDefinition e body decorators first
  | .mark "async" => asyncStatement e body decorators
  | _ => fail

def item (depth : Nat) : Reader (List Stmt) := do
  let one (p : Reader Stmt) : Reader (List Stmt) := do pure [← p]
  match ← peek with
  | .mark w =>
    if w = "if" then one (do advance; ifFrom e body (← remaining))
    else if w = "while" then one (whileLoop e body)
    else if w = "for" then one (forLoop e body)
    else if w = "with" then one (withBlock e body)
    else if w = "try" then one (tryBlock e body)
    else if w = "def" || w = "class" || w = "@" then one (decorated e body)
    else if w = "async" then one (asyncStatement e body [])
    else simpleLine e
  | .name ['m', 'a', 't', 'c', 'h'] => either (one (matchBlock e body depth)) (simpleLine e)
  | _ => simpleLine e

def several (statement : Reader (List Stmt)) : Reader (List Stmt) := do
  let open_ : Reader Bool := do
    match ← peek with
    | .dedent | .stop => pure false
    | _ => pure true
  let first ← statement
  let rest ← repeatWhile open_ statement
  pure (first ++ rest.flatten)

def ofDepth (nesting : Nat) : Nat → Reader (List Stmt)
  | 0 => fail
  | n + 1 => several (item e (blockOf e (ofDepth nesting n)) nesting)

end Statement

variable [Host]

def fileOf (tokens : List Token) : Option (List Stmt) := do
  let n := tokens.length + 1
  let e := (Level.ofDepth n)
  let file : Reader (List Stmt) := do
    if ← accept .stop then pure []
    else
      let body ← Statement.ofDepth e n n
      expect .stop
      pure body
  (file.read ⟨tokens, 0⟩).map (·.1)

def isExpression (tokens : List Token) : Bool :=
  let e := Level.ofDepth (tokens.length + 1)
  (e.starExpressions.read ⟨tokens, 0⟩).isSome

/-- Whether the expressions inside the formatted literals of a text can be read, and the ones inside
those. An embedded expression is shorter than the literal around it. -/
def embeddedOk : (fuel : Nat) → List Token → Bool
  | 0, _ => false
  | n + 1, tokens =>
    tokens.all fun t =>
      match t.kind with
      | .string _ embedded => embedded.all fun source =>
        match Lexer.tokens? ('(' :: source ++ [')']) with
        | some inner => isExpression inner && embeddedOk n inner
        | none => false
      | _ => true

def parse? (source : List Char) : Option (List Stmt) := do
  let tokens ← Lexer.tokens? source
  if embeddedOk (source.length + 1) tokens then fileOf tokens else none

end CodeAgent.Source
