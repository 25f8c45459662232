namespace CodeAgent.Source.Number

/-- A reader of a literal gives the rest of the text, or refuses. -/
abbrev Scan := List Char → Option (List Char)

def isNameStart (c : Char) : Bool := c.isAlpha || c = '_' || 128 ≤ c.toNat
def isNameChar (c : Char) : Bool := isNameStart c || c.isDigit

/-- Digits in groups, at least one; an underscore must have a digit after it. -/
def groups (isDigit : Char → Bool) : Scan
  | [] => none
  | c :: r =>
    if !isDigit c then none
    else match r with
      | '_' :: r' => groups isDigit r'
      | d :: r' => if isDigit d then groups isDigit (d :: r') else some (d :: r')
      | [] => some []

/-- A literal of another base, after its letter; one underscore may come first. -/
def based (isDigit : Char → Bool) : Scan
  | '_' :: r => groups isDigit r
  | r => groups isDigit r

/-- Whether a word stands at the start of a text and no name character follows it. -/
def wordAt (word cs : List Char) : Bool :=
  word.isPrefixOf cs &&
    match cs.drop word.length with
    | c :: _ => !isNameChar c
    | [] => true

/-- What may follow a literal: no name, unless it is an operator word. -/
def endsHere (cs : List Char) : Bool :=
  match cs with
  | [] => true
  | 'i' :: d :: _ => d = 'f' || d = 'n' || d = 's'
  | c :: _ =>
    !isNameChar c ||
      wordAt ['a', 'n', 'd'] cs || wordAt ['e', 'l', 's', 'e'] cs || wordAt ['f', 'o', 'r'] cs ||
      wordAt ['o', 'r'] cs || wordAt ['n', 'o', 't'] cs

def ended (cs : List Char) : Option (List Char) := if endsHere cs then some cs else none

/-- The end of a decimal literal: an imaginary mark or nothing. -/
def suffix (cs : List Char) : Option (Bool × List Char) :=
  match cs with
  | c :: r =>
    if c = 'j' || c = 'J' then (ended r).map (true, ·) else (ended cs).map (false, ·)
  | [] => some (false, [])

/-- An exponent, if one stands here. A letter that starts no exponent may start an operator word. -/
def exponent (cs : List Char) : Option (Bool × List Char) :=
  match cs with
  | e :: r =>
    if e = 'e' || e = 'E' then
      match r with
      | s :: r' =>
        if s = '+' || s = '-' then (groups Char.isDigit r').bind suffix
        else if s.isDigit then (groups Char.isDigit r).bind suffix
        else (ended cs).map (false, ·)
      | [] => (ended cs).map (false, ·)
    else suffix cs
  | [] => suffix cs

def fraction (cs : List Char) : Option (Bool × List Char) :=
  match cs with
  | c :: _ => if c.isDigit then (groups Char.isDigit cs).bind exponent else exponent cs
  | [] => exponent cs

def isHexDigit (c : Char) : Bool := (c.toLower.toNat - 'a'.toNat < 6 && c.isAlpha) || c.isDigit

def leading (cs : List Char) : List Char := cs.takeWhile fun c => c.isDigit || c = '_'

def maxDigits : Nat := 4300

/-- Decimal digits, then what makes the number a fraction. A whole number does not start with zero
unless all its digits are zeros. -/
def decimal (cs : List Char) : Option (Bool × List Char) := do
  let digits := (leading cs).filter Char.isDigit
  let r ← groups Char.isDigit cs
  let wholeOk := (digits.all (· = '0') || digits.head? ≠ some '0') && digits.length ≤ maxDigits
  match r with
  | '.' :: r' => fraction r'
  | _ :: _ =>
    let (imaginary, rest) ← exponent r
    if imaginary || rest.length < r.length || wholeOk then
      some (imaginary, rest)
    else none
  | [] => if wholeOk then some (false, []) else none

/-- A literal at the start of a text: whether it is imaginary, and the rest. -/
def scan (cs : List Char) : Option (Bool × List Char) :=
  let other (isDigit : Char → Bool) (r : List Char) : Option (Bool × List Char) :=
    (based isDigit r).bind fun rest =>
      if (rest.head?.map Char.isDigit).getD false then none else (ended rest).map (false, ·)
  match cs with
  | '.' :: r => fraction r
  | '0' :: c :: r =>
    if c = 'x' || c = 'X' then other isHexDigit r
    else if c = 'o' || c = 'O' then other (fun d => d.isDigit && d ≠ '8' && d ≠ '9') r
    else if c = 'b' || c = 'B' then other (fun d => d = '0' || d = '1') r
    else decimal cs
  | _ => decimal cs

end CodeAgent.Source.Number
