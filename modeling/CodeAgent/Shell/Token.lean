import CodeAgent.Text.Word

namespace CodeAgent.Shell

inductive Piece where
  | literal (t : Text) (quoted : Bool)
  | parameter (name : Text) (quoted : Bool)
  /-- The output of another command stands here. -/
  | output (script : Text) (quoted : Bool)
deriving DecidableEq

inductive RedirectMode where
  | read | write | append | copy
deriving DecidableEq

inductive Token where
  | word (pieces : List Piece)
  | operator (t : Text)
  | redirect (descriptor : Nat) (mode : RedirectMode)
deriving DecidableEq

inductive SyntaxFault where
  | openQuote
  | openSubstitution
  | unexpected (what : Text)
deriving DecidableEq

def SyntaxFault.message : SyntaxFault → Text
  | .openQuote => "Syntax error: Unterminated quoted string"
  | .openSubstitution => "Syntax error: end of file unexpected (expecting \")\")"
  | .unexpected what => "Syntax error: " ++ what ++ " unexpected"

/-- The text up to the parenthesis that closes a substitution, and what follows it. -/
def substitution? : (depth : Nat) → (quote : Option CodePoint) → Text → Option (Text × Text)
  | _, _, [] => none
  | depth, some q, c :: r =>
    (substitution? depth (if c = q then none else some q) r).map fun (s, r) => (c :: s, r)
  | depth, none, c :: r =>
    let keep (depth : Nat) (quote : Option CodePoint) : Option (Text × Text) :=
      (substitution? depth quote r).map fun (s, r) => (c :: s, r)
    if c = '(' then keep (depth + 1) none
    else if c = ')' then
      match depth with
      | 0 => some ([], r)
      | n + 1 => keep n none
    else if c = '\'' || c = '"' then keep depth (some c)
    else keep depth none

def isNameStart (c : CodePoint) : Bool := c.isAlphaAscii || c = '_'
def isNamePoint (c : CodePoint) : Bool := isNameStart c || c.isDigit

/-- What follows a dollar sign, as a piece, and the text after it. -/
def expansion (quoted : Bool) (r : Text) : Except SyntaxFault (Piece × Text) :=
  match r with
  | [] => .ok (.literal "$" quoted, [])
  | c :: rest =>
    if c = '(' then
      match substitution? 0 none rest with
      | some (script, rest) => .ok (.output script quoted, rest)
      | none => .error .openSubstitution
    else if c = '\x7b' then
      let name := rest.takeWhile isNamePoint
      .ok (.parameter name quoted, rest.drop (name.length + 1))
    else if isNameStart c then
      let name := r.takeWhile isNamePoint
      .ok (.parameter name quoted, r.drop name.length)
    else if c = '$' || c = '?' || c = '#' || c = '0' then .ok (.parameter [c] quoted, rest)
    else .ok (.literal "$" quoted, r)

def isDoubleEscaped (c : CodePoint) : Bool :=
  c = '"' || c = '\\' || c = '$' || c.val = 96

def doubleQuoted : (fuel : Nat) → Text → Except SyntaxFault (List Piece × Text)
  | 0, _ => .error .openQuote
  | _, [] => .error .openQuote
  | n + 1, c :: r =>
    if c = '"' then .ok ([.literal [] true], r)
    else if c = '\\' then
      match r with
      | d :: r' => do
        let here : Text := if isDoubleEscaped d then [d] else if d = '\n' then [] else [c, d]
        let (ps, rest) ← doubleQuoted n r'
        .ok (.literal here true :: ps, rest)
      | [] => .error .openQuote
    else if c = '$' then do
      let (p, rest) ← expansion true r
      let (ps, rest) ← doubleQuoted n rest
      .ok (p :: ps, rest)
    else do
      let (ps, rest) ← doubleQuoted n r
      .ok (.literal [c] true :: ps, rest)

def isBlankPoint (c : CodePoint) : Bool := c = ' ' || c = '\t'

def endsWord (c : CodePoint) : Bool :=
  isBlankPoint c || c = '\n' || c = ';' || c = '&' || c = '|' || c = '<' || c = '>' ||
    c = '(' || c = ')'

def wordPieces : (fuel : Nat) → Text → Except SyntaxFault (List Piece × Text)
  | 0, r => .ok ([], r)
  | _, [] => .ok ([], [])
  | n + 1, c :: r =>
    if endsWord c then .ok ([], c :: r)
    else
      let more (p : List Piece) (rest : Text) : Except SyntaxFault (List Piece × Text) := do
        let (ps, rest) ← wordPieces n rest
        .ok (p ++ ps, rest)
      if c = '\'' then
        let inside := r.takeWhile fun d => !d.is '\''
        if inside.length < r.length then more [.literal inside true] (r.drop (inside.length + 1))
        else .error .openQuote
      else if c = '"' then do
        let (p, rest) ← doubleQuoted (r.length + 1) r
        more p rest
      else if c = '\\' then
        match r with
        | d :: r' => more (if d = '\n' then [] else [.literal [d] true]) r'
        | [] => more [.literal [c] true] []
      else if c = '$' then do
        let (p, rest) ← expansion false r
        more [p] rest
      else if c.val = 96 then
        let inside := r.takeWhile fun d => d.val ≠ 96
        if inside.length < r.length then more [.output inside false] (r.drop (inside.length + 1))
        else .error .openSubstitution
      else more [.literal [c] false] r

def symbol? (t : Text) : Option (Token × Text) :=
  let operators : List Text := ["&&", "||", ";;", ";", "&", "|", "(", ")"]
  let redirections : List (Text × Nat × RedirectMode) :=
    [("1>>", 1, .append), ("2>>", 2, .append), (">>", 1, .append), ("1>&", 1, .copy), ("2>&", 2, .copy),
     (">&", 1, .copy), ("1>", 1, .write), ("2>", 2, .write), (">|", 1, .write), (">", 1, .write),
     ("0<", 0, .read), ("<", 0, .read)]
  match redirections.find? fun (s, _) => s.isPrefixOf t with
  | some (s, n, mode) => some (.redirect n mode, t.drop s.length)
  | none => (operators.find? (·.isPrefixOf t)).map fun s => (.operator s, t.drop s.length)

def tokens : (fuel : Nat) → Text → Except SyntaxFault (List Token)
  | 0, _ => .ok []
  | _, [] => .ok []
  | n + 1, c :: r =>
    if isBlankPoint c then tokens n r
    else if c = '\n' then (tokens n r).map (.operator ";" :: ·)
    else if c = '#' then tokens n (r.dropWhile fun d => !d.is (Char.ofNat 10))
    else
      match symbol? (c :: r) with
      | some (token, rest) => (tokens n rest).map (token :: ·)
      | none => do
        let (pieces, rest) ← wordPieces (r.length + 1) (c :: r)
        let later ← tokens n rest
        .ok (.word pieces :: later)

end CodeAgent.Shell
