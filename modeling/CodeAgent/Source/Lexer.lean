import CodeAgent.Source.Token
import CodeAgent.Source.Number
import CodeAgent.Source.Literal
import CodeAgent.Text.Identifier

namespace CodeAgent.Source.Lexer

open Number (isNameStart isNameChar)

/-- What is known between two tokens. -/
structure State where
  line : Nat
  /-- Widths of the open indentations, innermost first: with tabs of eight columns, and of one. -/
  indents : List (Nat × Nat)
  /-- Open brackets, innermost first. -/
  brackets : List Char
  atLineStart : Bool
  /-- The tokens so far, last one first. -/
  tokens : List Token

def State.push (s : State) (kind : TokenKind) (endLine : Nat) : State :=
  { s with tokens := ⟨kind, s.line, endLine⟩ :: s.tokens, line := endLine }

/-- Both widths of the blanks at the start of a line; a form feed starts the count again. A backslash
at the end of a line joins the next line, and the first one fixes the width. -/
structure Margin where
  width : Nat := 0
  plain : Nat := 0
  fixed : Nat := 0
  joined : Nat := 0

def margin (m : Margin) : List Char → Option (Margin × List Char)
  | [] => some (m, [])
  | [c] => some (m, [c])
  | c :: d :: r =>
    if c = ' ' then margin { m with width := m.width + 1, plain := m.plain + 1 } (d :: r)
    else if c = '\t' then
      margin { m with width := (m.width / 8 + 1) * 8, plain := m.plain + 1 } (d :: r)
    else if c = '\x0c' then margin { m with width := 0, plain := 0 } (d :: r)
    else if c = '\\' then
      if d = '\n' && !r.isEmpty then
        margin { m with fixed := (if m.fixed = 0 then m.width else m.fixed), joined := m.joined + 1 } r
      else none
    else some (m, c :: d :: r)

/-- The most indentations that can be open, the outermost included. -/
def maxIndents : Nat := 100

def maxBrackets : Nat := 200

def dedentTo (width plain : Nat) : Nat → State → Option State
  | 0, _ => none
  | n + 1, s =>
    match s.indents with
    | (w, p) :: rest =>
      if width < w then dedentTo width plain n ({ s with indents := rest }.push .dedent s.line)
      else if width = w && plain = p then some s
      else none
    | [] => none

/-- Compares the margin of a line with the indentation around it. -/
def indentTo (width plain : Nat) (s : State) : Option State :=
  match s.indents with
  | (w, p) :: _ =>
    if width = w then (if plain = p then some s else none)
    else if w < width then
      if plain ≤ p || maxIndents ≤ s.indents.length then none
      else some ({ s with indents := (width, plain) :: s.indents }.push .indent s.line)
    else dedentTo width plain (s.indents.length + 1) s
  | [] => none

def isGap (c : Char) : Bool := c = ' ' || c = '\t' || c = '\x0c'

/-- The body of a string up to its closing quotes, and the rest. -/
def stringBody (quote : Char) (triple : Bool) (acc : List Char) :
    List Char → Option (List Char × List Char)
  | [] => none
  | [c] => if c = quote && !triple then some (acc.reverse, []) else none
  | c :: d :: r =>
    if c = '\\' then stringBody quote triple (d :: c :: acc) r
    else if c = quote then
      if !triple then some (acc.reverse, d :: r)
      else match r with
        | e :: r' =>
          if d = quote && e = quote then some (acc.reverse, r')
          else stringBody quote triple (c :: acc) (d :: e :: r')
        | [] => none
    else if c = '\n' && !triple then none
    else stringBody quote triple (c :: acc) (d :: r)

def countLines (cs : List Char) : Nat := (cs.filter (· = '\n')).length

variable [Host]

def string (letters : List Char) (quote : Char) (cs : List Char) (s : State) :
    Option (State × List Char) := do
  let p ← Literal.Prefix.ofLetters? letters
  let (body, rest) ←
    match cs with
    | a :: b :: r =>
      if a = quote && b = quote then stringBody quote true [] r
      else stringBody quote false [] cs
    | _ => stringBody quote false [] cs
  let embedded ← Literal.embedded? p body
  some (s.push (.string p.bytes embedded) (s.line + countLines body), rest)

/-- A name or reserved word, or the letters of a string literal. -/
def word (cs : List Char) (s : State) : Option (State × List Char) :=
  let spelling := cs.takeWhile isNameChar
  let rest := cs.dropWhile isNameChar
  let asString : Option (State × List Char) :=
    match rest with
    | q :: r =>
      if (q = '"' || q = '\'') && (Literal.Prefix.ofLetters? spelling).isSome then
        some (s, q :: r)
      else none
    | [] => none
  match asString, rest with
  | some _, q :: r => string spelling q r s
  | _, _ =>
    if reserved.any (·.toList = spelling) then
      some (s.push (.mark (String.ofList spelling)) s.line, rest)
    else if Identifier.isValid spelling then some (s.push (.name spelling) s.line, rest)
    else none

def bracketPair (c : Char) : Option Char :=
  match c with
  | ')' => some '('
  | ']' => some '['
  | '\x7d' => some '\x7b'
  | _ => none

/-- An operator or delimiter. Brackets must close in the order in which they were opened. -/
def operator (cs : List Char) (s : State) : Option (State × List Char) := do
  let op ← operators.find? fun op => op.toList.isPrefixOf cs
  let rest := cs.drop op.length
  let s' := s.push (.mark op) s.line
  match op.toList with
  | [c] =>
    if c = '(' || c = '[' || c = '\x7b' then
      if maxBrackets ≤ s.brackets.length then none
      else some ({ s' with brackets := c :: s.brackets }, rest)
    else match bracketPair c with
      | some o =>
        match s.brackets with
        | b :: bs => if b = o then some ({ s' with brackets := bs }, rest) else none
        | [] => none
      | none => some (s', rest)
  | _ => some (s', rest)

/-- The end of the text closes what indentation is open; a bracket must not be. -/
def finish (s : State) : Option (List Token) :=
  if !s.brackets.isEmpty then none
  else do
    let s ← dedentTo 0 0 (s.indents.length + 1) s
    some ((s.push .stop s.line).tokens.reverse)

/-- The margin of a line. Blank lines and comment lines leave the indentation as it is. -/
def startLine (cs : List Char) (s : State) : Option (State × List Char × Bool) := do
  let (m, rest) ← margin {} cs
  let s := { s with line := s.line + m.joined, atLineStart := false }
  match rest with
  | [] => some (s, [], true)
  | c :: _ =>
    if c = '#' || c = '\n' then some (s, rest, true)
    else if !s.brackets.isEmpty then some (s, rest, false)
    else
      let fixed := m.fixed ≠ 0
      let s ← indentTo (if fixed then m.fixed else m.width) (if fixed then m.fixed else m.plain) s
      some (s, rest, false)

/-- Tokens up to the end of the text. `blank` holds on a line without tokens so far. -/
def run : (fuel : Nat) → (blank : Bool) → List Char → State → Option (List Token)
  | 0, _, _, _ => none
  | fuel + 1, blank, cs, s =>
    if s.atLineStart then
      match startLine cs s with
      | none => none
      | some (s, rest, blank) => run fuel blank rest s
    else
      match cs with
      | [] => finish s
      | c :: r =>
        if isGap c then run fuel blank r s
        else if c = '#' then run fuel blank (r.dropWhile (· ≠ '\n')) s
        else if c = '\n' then
          let s' := if blank || !s.brackets.isEmpty then s else s.push .newline s.line
          run fuel false r { s' with line := s.line + 1, atLineStart := true }
        else if c = '\\' then
          match r with
          | '\n' :: d :: r' => run fuel blank (d :: r') { s with line := s.line + 1 }
          | _ => none
        else
          let next :=
            if isNameStart c then word cs s
            else if c.isDigit || (c = '.' && (r.head?.map Char.isDigit).getD false) then
              (Number.scan cs).map fun (imaginary, rest) => (s.push (.number imaginary) s.line, rest)
            else if c = '"' || c = '\'' then string [] c r s
            else operator cs s
          match next with
          | none => none
          | some (s, rest) => run fuel false rest s

/-- Carriage returns end lines, alone or before a line feed, and the last line is ended. -/
def normalize (cs : List Char) : List Char :=
  let rec lines : List Char → List Char
    | [] => []
    | [c] => [if c = '\r' then '\n' else c]
    | c :: d :: r =>
      if c = '\r' then (if d = '\n' then '\n' :: lines r else '\n' :: lines (d :: r))
      else c :: lines (d :: r)
  let cs := lines cs
  match cs.getLast? with
  | none => []
  | some c => if c = '\n' then cs else cs ++ ['\n']

def tokens? (source : List Char) : Option (List Token) :=
  let cs := normalize source
  run (2 * cs.length + 2) true cs ⟨1, [(0, 0)], [], true, []⟩

end CodeAgent.Source.Lexer
