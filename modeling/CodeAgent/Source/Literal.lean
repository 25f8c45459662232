import CodeAgent.Text.Utf8
import CodeAgent.Host

namespace CodeAgent.Source.Literal

/-- What the letters before the quote say. -/
structure Prefix where
  raw : Bool := false
  bytes : Bool := false
  formatted : Bool := false
  unicode : Bool := false

def Prefix.add? (p : Prefix) (c : Char) : Option Prefix :=
  match c.toLower with
  | 'b' => if p.bytes || p.unicode || p.formatted then none else some { p with bytes := true }
  | 'u' =>
    if p.bytes || p.unicode || p.raw || p.formatted then none else some { p with unicode := true }
  | 'r' => if p.raw || p.unicode then none else some { p with raw := true }
  | 'f' => if p.formatted || p.bytes || p.unicode then none else some { p with formatted := true }
  | _ => none

def Prefix.ofLetters? (letters : List Char) : Option Prefix :=
  letters.foldlM Prefix.add? {}

private def hexRun (n : Nat) (cs : List Char) : Option (Nat × List Char) :=
  let ds := cs.take n
  if ds.length = n then
    (ds.foldlM (fun v c => ((CodePoint.ofChar c).hexValue?).map (v * 16 + ·)) 0).map (·, cs.drop n)
  else none

variable [Host]

def escapesOk (cs : List Char) : Bool :=
  match cs with
  | [] => true
  | '\\' :: c :: r =>
    if c = 'x' then (hexRun 2 r).isSome && escapesOk r
    else if c = 'u' then (hexRun 4 r).isSome && escapesOk r
    else if c = 'U' then
      (match hexRun 8 r with
       | some (n, _) => n < 0x110000
       | none => false) && escapesOk r
    else if c = 'N' then
      (match r with
       | o :: r' =>
         let name := r'.takeWhile (· ≠ '\x7d')
         o = '\x7b' && name.length < r'.length && (Host.characterNamed? name).isSome
       | [] => false) && escapesOk r
    else escapesOk r
  | '\\' :: [] => false
  | _ :: r => escapesOk r

def byteEscapesOk (cs : List Char) : Bool :=
  match cs with
  | [] => true
  | '\\' :: c :: r => (c ≠ 'x' || (hexRun 2 r).isSome) && byteEscapesOk r
  | _ :: r => byteEscapesOk r

/-- The literal text up to the next brace that matters, and the rest from there. At the outer level a
doubled brace is text; the flag says that the text ended in one. `inName` holds inside the braces of a
named character. -/
def formattedText (raw outer inName : Bool) (acc : List Char) :
    List Char → Option (List Char × Bool × List Char)
  | [] => some (acc.reverse, false, [])
  | [c] => if isBrace c && !inName then brace acc c [] else some ((c :: acc).reverse, false, [])
  | [c, d] =>
    if inName then formattedText raw outer (c ≠ '\x7d') (c :: acc) [d]
    else if c = '\\' && !raw then
      if isBrace d then brace (c :: acc) d [] else some ((d :: c :: acc).reverse, false, [])
    else if isBrace c then brace acc c [d]
    else formattedText raw outer false (c :: acc) [d]
  | c :: d :: e :: r =>
    if inName then formattedText raw outer (c ≠ '\x7d') (c :: acc) (d :: e :: r)
    else if c = '\\' && !raw then
      if d = 'N' then formattedText raw outer (e = '\x7b') (e :: d :: c :: acc) r
      else if isBrace d then brace (c :: acc) d (e :: r)
      else formattedText raw outer false (d :: c :: acc) (e :: r)
    else if isBrace c then brace acc c (d :: e :: r)
    else formattedText raw outer false (c :: acc) (d :: e :: r)
where
  isBrace (c : Char) : Bool := c = '\x7b' || c = '\x7d'
  brace (acc : List Char) (c : Char) (r : List Char) : Option (List Char × Bool × List Char) :=
    if outer && r.head? = some c then some ((c :: acc).reverse, true, r.drop 1)
    else if outer && c = '\x7d' then none
    else some (acc.reverse, false, c :: r)

/-- The expression after an opening brace up to what ends it, and the rest from there. Brackets nest,
strings are skipped, and neither a backslash nor a comment may occur. -/
def expression (quote : Option (Char × Bool)) (open_ acc cs : List Char) :
    Option (List Char × List Char) :=
  match cs with
  | [] => if quote.isSome || !open_.isEmpty then none else some (acc.reverse, [])
  | c :: r =>
    if c = '\\' then none
    else match quote with
      | some (q, triple) =>
        if c ≠ q then expression quote open_ (c :: acc) r
        else if !triple then expression none open_ (c :: acc) r
        else if r.take 2 = [c, c] then expression none open_ (c :: c :: c :: acc) (r.drop 2)
        else expression quote open_ (c :: acc) r
      | none =>
        if c = '\'' || c = '"' then
          if r.take 2 = [c, c] then expression (some (c, true)) open_ (c :: c :: c :: acc) (r.drop 2)
          else expression (some (c, false)) open_ (c :: acc) r
        else if c = '(' || c = '[' || c = '\x7b' then expression none (c :: open_) (c :: acc) r
        else if c = '#' then none
        else if open_.isEmpty && isStop c then
          let compares := c = '!' || c = '=' || c = '<' || c = '>'
          if compares && r.head? = some '=' then
            expression none open_ ('=' :: c :: acc) (r.drop 1)
          else if c = '<' || c = '>' then expression none open_ (c :: acc) r
          else some (acc.reverse, c :: r)
        else if c = ')' || c = ']' || c = '\x7d' then
          match open_ with
          | o :: rest =>
            if closes o c then expression none rest (c :: acc) r else none
          | [] => none
        else expression none open_ (c :: acc) r
termination_by cs.length
decreasing_by all_goals simp only [List.length_drop, List.length_cons]; omega
where
  isStop (c : Char) : Bool :=
    c = '!' || c = ':' || c = '\x7d' || c = '=' || c = '<' || c = '>'
  closes (o c : Char) : Bool :=
    (o = '(' && c = ')') || (o = '[' && c = ']') || (o = '\x7b' && c = '\x7d')

private def isSpace (c : Char) : Bool := c = ' ' || c = '\t' || c = '\n' || c = '\x0c'

/-- Blanks after the equals sign that shows an expression beside its value. -/
private def afterEquals (cs : List Char) : List Char :=
  match cs with
  | '=' :: r => r.dropWhile fun c => isSpace c || c = '\x0b' || c = '\r'
  | _ => cs

private def afterConversion (cs : List Char) : Option (List Char) :=
  match cs with
  | '!' :: c :: r => if c = 's' || c = 'r' || c = 'a' then some r else none
  | '!' :: [] => none
  | _ => some cs

/-- The expressions of a formatted literal, or of a format inside one. `level` counts the formats
around; an inner one ends at its closing brace, which is left in the rest. -/
def formatted (raw : Bool) : (fuel level : Nat) → List Char → Option (List (List Char) × List Char)
  | 0, _, _ => none
  | fuel + 1, level, cs => do
    let (text, doubled, r) ← formattedText raw (level = 0) false [] cs
    if !raw && !escapesOk text then none
    else if doubled then formatted raw fuel level r
    else match r with
      | '\x7b' :: r =>
        if 2 ≤ level then none
        else do
          let (e, r) ← expression none [] [] r
          if r.isEmpty || e.all isSpace then none
          else do
            let r ← afterConversion (afterEquals r)
            let (inner, r) ←
              match r with
              | ':' :: r => if r.isEmpty then none else formatted raw fuel (level + 1) r
              | r => some ([], r)
            match r with
            | '\x7d' :: r => do
              let (more, rest) ← formatted raw fuel level r
              some (e :: inner ++ more, rest)
            | _ => none
      | r => if level = 0 && !r.isEmpty then none else some ([], r)

/-- The expressions that stand in a literal, if the literal is well formed. -/
def embedded? (p : Prefix) (body : List Char) : Option (List (List Char)) :=
  if p.bytes then
    if body.all (fun c => c.toNat < 128) && (p.raw || byteEscapesOk body) then some [] else none
  else if p.formatted then
    match formatted p.raw (2 * body.length + 2) 0 body with
    | some (es, []) => some es
    | _ => none
  else if p.raw || escapesOk body then some [] else none

end CodeAgent.Source.Literal
