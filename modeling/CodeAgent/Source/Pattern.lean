import CodeAgent.Source.Expression

namespace CodeAgent.Source

open Reader

namespace Pattern

def capture : Reader Unit := do
  let cs ← spelling
  if cs = ['_'] then fail
  else match ← peek with
    | .mark s => if s = "." || s = "(" || s = "=" then fail else pure ()
    | _ => pure ()

/-- A number with an optional sign, and an imaginary part after a real one. -/
def signedNumber : Reader Unit := do
  let _ ← acceptMark "-"
  match ← peek with
  | .number imaginary =>
    advance
    match ← peek with
    | .mark s =>
      if s = "+" || s = "-" then
        if imaginary then fail
        else
          advance
          match ← peek with
          | .number true => advance
          | _ => fail
      else pure ()
    | _ => pure ()
  | _ => fail

def literal : Reader Unit := do
  match ← peek with
  | .string .. => Level.strings
  | .number _ => signedNumber
  | .mark s =>
    if s = "-" then signedNumber
    else if s = "None" || s = "True" || s = "False" then advance
    else fail
  | _ => fail

def dotted : Reader Bool := do
  let _ ← spelling
  let rest ← repeatWhile (acceptMark ".") spelling
  pure (!rest.isEmpty)

def literalOrAttribute : Reader Unit := do
  match ← peek with
  | .name _ => if ← dotted then pure () else fail
  | _ => literal

variable (pattern : Reader Unit)

def starOr : Reader Unit := do
  if ← acceptMark "*" then
    match ← peek with
    | .name ['_'] => advance
    | _ => capture
  else pattern

/-- Patterns with commas up to `close`, which is taken; whether one stands alone without a comma. -/
def sequence (close : String) : Reader Unit := do
  let _ ← commaList (atMark close) (starOr pattern)
  mark close

/-- After an opening parenthesis: a group, or a sequence with a comma. -/
def group : Reader Unit := do
  if ← acceptMark ")" then pure ()
  else
    let starred ← atMark "*"
    starOr pattern
    if ← acceptMark "," then
      if ← acceptMark ")" then pure () else sequence pattern ")"
    else if starred then fail
    else mark ")"

def mappingItem : Reader Unit := do
  literalOrAttribute
  mark ":"
  pattern

/-- Items of a mapping; the rest of it can be bound at the end. -/
def mappingFrom : (fuel : Nat) → Reader Unit
  | 0 => fail
  | n + 1 => do
    if ← acceptMark "\x7d" then pure ()
    else if ← acceptMark "**" then
      capture
      let _ ← acceptMark ","
      mark "\x7d"
    else
      mappingItem pattern
      if ← acceptMark "," then mappingFrom n else mark "\x7d"

/-- Arguments of a class pattern: plain patterns before named ones. -/
def classFrom : (fuel : Nat) → (named : Bool) → Reader Unit
  | 0, _ => fail
  | n + 1, named => do
    if ← acceptMark ")" then pure ()
    else
      let isNamed ← (do match ← peek, ← peekSecond with
        | .name _, .mark "=" => pure true
        | _, _ => pure false)
      if isNamed then do advance; advance; pattern
      else if named then fail
      else pattern
      if ← acceptMark "," then classFrom n isNamed else mark ")"

def nameFirst : Reader Unit := do
  match ← peek, ← peekSecond with
  | .name ['_'], .mark s =>
    if s = "." || s = "(" then qualified else advance
  | .name ['_'], _ => advance
  | .name _, .mark s => if s = "." || s = "(" then qualified else capture
  | _, _ => capture
where
  qualified : Reader Unit := do
    let _ ← dotted
    if ← acceptMark "(" then classFrom pattern (← remaining) false
    else if ← atMark "=" then fail
    else pure ()

def closed : Reader Unit := do
  match ← peek with
  | .name _ => nameFirst pattern
  | .mark s =>
    if s = "(" then do advance; group pattern
    else if s = "[" then do
      advance
      if ← acceptMark "]" then pure () else sequence pattern "]"
    else if s = "\x7b" then do
      advance
      mappingFrom pattern (← remaining)
    else literal
  | _ => literal

def whole : Reader Unit := do
  let _ ← separated "|" (closed pattern)
  if ← acceptMark "as" then capture else pure ()

def ofDepth : Nat → Reader Unit
  | 0 => fail
  | n + 1 => whole (ofDepth n)

/-- The pattern of a `case` clause: one, or several with commas. -/
def top (depth : Nat) : Reader Unit := do
  let starred ← atMark "*"
  starOr (ofDepth depth)
  if ← acceptMark "," then
    if ← caseEnds then pure ()
    else
      let _ ← commaList caseEnds (starOr (ofDepth depth))
      pure ()
  else if starred then fail
  else pure ()
where
  caseEnds : Reader Bool := do
    match ← peek with
    | .mark s => pure (s = ":" || s = "if")
    | _ => pure false

end Pattern
end CodeAgent.Source
