namespace CodeAgent.Text

/-- How many entries of a sorted array are at most `n`, looking between `lo` and `hi`. -/
def rankBetween (a : Array Nat) (n lo hi : Nat) : Nat :=
  if lo < hi then
    let mid := (lo + hi) / 2
    if a[mid]?.getD 0 ≤ n then rankBetween a n (mid + 1) hi else rankBetween a n lo mid
  else lo
termination_by hi - lo

def rank (a : Array Nat) (n : Nat) : Nat := rankBetween a n 0 a.size

def inBounds (bounds : Array Nat) (n : Nat) : Bool := rank bounds n % 2 == 1

/-- Runs of a mapping on numbers. A run `(first, last, step, delta)` adds `delta` to `first`,
`first + step` and so on up to `last`. Runs are sorted and do not overlap. -/
structure Runs where
  firsts : Array Nat
  rest : Array (Nat × Nat × Int)

def Runs.apply (runs : Runs) (n : Nat) : Nat :=
  match rank runs.firsts n with
  | 0 => n
  | k + 1 =>
    match runs.firsts[k]?, runs.rest[k]? with
    | some first, some (last, step, delta) =>
      if n ≤ last && (n - first) % step == 0 then ((n : Int) + delta).toNat else n
    | _, _ => n

end CodeAgent.Text
