import CodeAgent.Text.CodePoint

namespace CodeAgent.Text

/-- The text before and after the first occurrence of `needle`. -/
def cutFirst? (needle : Text) (t : Text) : Option (Text × Text) :=
  if needle.isPrefixOf t then some ([], t.drop needle.length)
  else match t with
    | [] => none
    | c :: r => (cutFirst? needle r).map fun (before, after) => (c :: before, after)

def find? (needle t : Text) : Option Nat := (cutFirst? needle t).map (·.1.length)

def hasInfix (needle t : Text) : Bool := (cutFirst? needle t).isSome

/-- Replaces the first occurrence; an empty `old` occurs at the start. -/
def replaceFirst (old new t : Text) : Text :=
  match cutFirst? old t with
  | some (before, after) => before ++ new ++ after
  | none => t

/-- Replaces every occurrence of a non-empty `old`, left to right without overlap. -/
def replaceAll (old new : Text) (t : Text) : Text :=
  match t with
  | [] => []
  | c :: r =>
    if old.isPrefixOf t && 0 < old.length then
      new ++ replaceAll old new (r.drop (old.length - 1))
    else c :: replaceAll old new r
termination_by t.length
decreasing_by all_goals simp only [List.length_drop, List.length_cons]; omega

def count (needle : Text) (t : Text) : Nat :=
  match t with
  | [] => 0
  | _ :: r =>
    if needle.isPrefixOf t && 0 < needle.length then
      1 + count needle (r.drop (needle.length - 1))
    else count needle r
termination_by t.length
decreasing_by all_goals simp only [List.length_drop, List.length_cons]; omega

def splitOn (sep : CodePoint) : Text → List Text
  | [] => [[]]
  | c :: r =>
    if c = sep then [] :: splitOn sep r
    else match splitOn sep r with
      | [] => [[c]]
      | l :: ls => (c :: l) :: ls

def newline : CodePoint := '\n'

def lines (t : Text) : List Text := splitOn newline t

/-- The text and what is left of it after each of its characters. -/
def suffixes : Text → List Text
  | [] => [[]]
  | c :: r => (c :: r) :: suffixes r

def joinWith (sep : Text) (ts : List Text) : Text := sep.intercalate ts

def unlines (ts : List Text) : Text := joinWith [newline] ts

/-- A carriage return, alone or before a line feed, becomes one line feed. -/
def normalizeNewlines : Text → Text
  | [] => []
  | [c] => [if c = '\r' then newline else c]
  | c :: d :: r =>
    if c = '\r' then
      if d = '\n' then newline :: normalizeNewlines r else newline :: normalizeNewlines (d :: r)
    else c :: normalizeNewlines (d :: r)

def dropEndWhile (p : CodePoint → Bool) (t : Text) : Text :=
  (t.reverse.dropWhile p).reverse

def trimWith (p : CodePoint → Bool) (t : Text) : Text := dropEndWhile p (t.dropWhile p)

def endsWith (suffix t : Text) : Bool := suffix.isSuffixOf t

/-- Cuts before the last occurrence of a code point and after it. -/
def cutLast? (sep : CodePoint) (t : Text) : Option (Text × Text) :=
  let after := (t.reverse.takeWhile (· ≠ sep)).reverse
  if after.length = t.length then none
  else some (t.take (t.length - after.length - 1), after)

def ofNat (n : Nat) : Text := ofString (Nat.repr n)

def ofInt (i : Int) : Text :=
  match i with
  | .ofNat n => ofNat n
  | .negSucc n => '-' :: ofNat (n + 1)

def hexDigit (n : Nat) : CodePoint := CodePoint.ofNat (if n < 10 then 48 + n else 87 + n)

def hex : (width n : Nat) → Text
  | 0, _ => []
  | w + 1, n => hex w (n / 16) ++ [hexDigit (n % 16)]

end CodeAgent.Text
