import CodeAgent.Text.Case

namespace CodeAgent.Pattern

private def families : List (List Nat) :=
  [[105, 305], [115, 383], [181, 956], [837, 953, 8126], [912, 8147], [944, 8163], [946, 976], [949, 1013],
   [952, 977], [954, 1008], [960, 982], [961, 1009], [962, 963], [966, 981], [1074, 7296], [1076, 7297],
   [1086, 7298], [1089, 7299], [1090, 7300, 7301], [1098, 7302], [1123, 7303], [7304, 42571], [7777, 7835],
   [64261, 64262]]

/-- Further letters with a given lower-case partner, besides itself and its upper-case partner. -/
private def otherCapitals (n : Nat) : List Nat :=
  let pairs : List (Nat × Nat) :=
    [(0x69, 0x130), (0x1c6, 0x1c5), (0x1c9, 0x1c8), (0x1cc, 0x1cb), (0x1f3, 0x1f2), (0x3b8, 0x3f4),
     (0xdf, 0x1e9e), (0x1fb3, 0x1fbc), (0x1fc3, 0x1fcc), (0x1ff3, 0x1ffc), (0x3c9, 0x2126), (0x6b, 0x212a),
     (0xe5, 0x212b)]
  let named := (pairs.filter (·.1 = n)).map (·.2)
  if (0x1f80 ≤ n && n < 0x1f88) || (0x1f90 ≤ n && n < 0x1f98) || (0x1fa0 ≤ n && n < 0x1fa8) then
    (n + 8) :: named
  else named

def lowerPoint (ascii : Bool) (n : Nat) : Nat :=
  let c := CodePoint.ofNat n
  if ascii && 128 ≤ n then n else c.lower.val

def upperPoint (ascii : Bool) (n : Nat) : Nat :=
  let c := CodePoint.ofNat n
  if ascii && 128 ≤ n then n else c.upper.val

/-- The lower-case letters that count as one with this lower-case letter. -/
def family (ascii : Bool) (n : Nat) : List Nat :=
  if ascii then [n]
  else match families.find? (·.contains n) with
    | some f => f
    | none => [n]

def capitals (ascii : Bool) (n : Nat) : List Nat :=
  (n :: upperPoint ascii n :: if ascii then [] else otherCapitals n).filter (lowerPoint ascii · = n)

end CodeAgent.Pattern
