import CodeAgent.Text.Basic

namespace CodeAgent.Glob

inductive Atom where
  | star
  | any
  | point (c : CodePoint)
  | oneOf (negated : Bool) (ranges : List (CodePoint × CodePoint))
deriving DecidableEq

/-- The ranges inside brackets. A range that runs backwards holds nothing. -/
def ranges : Text → List (CodePoint × CodePoint)
  | lo :: mid :: hi :: r =>
    if mid = '-' then (if lo.val ≤ hi.val then [(lo, hi)] else []) ++ ranges r
    else (lo, lo) :: ranges (mid :: hi :: r)
  | [a, b] => [(a, a), (b, b)]
  | [a] => [(a, a)]
  | [] => []

/-- How many characters stand inside brackets. A closing bracket in first place is a member. -/
def insideLength? (t : Text) : Option Nat :=
  let head := if (t.head?.map (·.is '!')).getD false then 1 else 0
  let head := if ((t.drop head).head?.map (·.is ']')).getD false then head + 1 else head
  let inside := head + ((t.drop head).takeWhile fun c => !c.is ']').length
  if inside < t.length then some inside else none

def setAtom (inside : Text) : Atom :=
  if inside.startsWith '!' then .oneOf true (ranges (inside.drop 1)) else .oneOf false (ranges inside)

/-- The atoms of a pattern. A bracket that is never closed stands for itself. -/
def atoms (pattern : Text) : List Atom :=
  match pattern with
  | [] => []
  | c :: r =>
    if c = '*' then .star :: atoms r
    else if c = '?' then .any :: atoms r
    else if c = '[' then
      match insideLength? r with
      | some n => setAtom (r.take n) :: atoms (r.drop (n + 1))
      | none => .point c :: atoms r
    else .point c :: atoms r
termination_by pattern.length
decreasing_by all_goals simp only [List.length_drop, List.length_cons]; omega

def Atom.accepts (c : CodePoint) : Atom → Bool
  | .star => false
  | .any => true
  | .point d => c = d
  | .oneOf negated ranges => (ranges.any fun (lo, hi) => lo.val ≤ c.val && c.val ≤ hi.val) != negated

def accepts : List Atom → Text → Bool
  | [], t => t.isEmpty
  | .star :: r, t => (Text.suffixes t).any (accepts r)
  | a :: r, t =>
    match t with
    | [] => false
    | c :: rest => a.accepts c && accepts r rest

def isMatch (pattern t : Text) : Bool := accepts (atoms pattern) t

end CodeAgent.Glob
