namespace CodeAgent

/-- A double-precision number. The magnitude is the 63 bits below the sign bit. -/
structure Binary64 where
  negative : Bool
  magnitude : Nat
deriving DecidableEq, Inhabited

namespace Binary64

def infinityMagnitude : Nat := 0x7ff0000000000000

def isFinite (x : Binary64) : Bool := x.magnitude < infinityMagnitude
def isInfinite (x : Binary64) : Bool := x.magnitude == infinityMagnitude
def isNaN (x : Binary64) : Bool := infinityMagnitude < x.magnitude
def isZero (x : Binary64) : Bool := x.magnitude == 0

def zero : Binary64 := ⟨false, 0⟩
def infinity (negative : Bool) : Binary64 := ⟨negative, infinityMagnitude⟩
def nan : Binary64 := ⟨false, 0x7ff8000000000000⟩

def mantissa (x : Binary64) : Nat :=
  if x.magnitude / Nat.pow 2 52 = 0 then x.magnitude else x.magnitude % Nat.pow 2 52 + Nat.pow 2 52

def exponent (x : Binary64) : Int :=
  if x.magnitude / Nat.pow 2 52 = 0 then -1074 else ((x.magnitude / Nat.pow 2 52 : Nat) : Int) - 1075

/-- The numerator and denominator of a finite number without its sign. -/
def ratio (x : Binary64) : Nat × Nat :=
  if 0 ≤ x.exponent then (x.mantissa * Nat.pow 2 x.exponent.toNat, 1)
  else (x.mantissa, Nat.pow 2 (-x.exponent).toNat)

/-- The whole number nearest to a ratio; a half goes to the even neighbour. -/
def roundDiv (num den : Nat) : Nat :=
  let q := num / den
  let twice := 2 * (num % den)
  if twice < den then q else if den < twice then q + 1 else q + q % 2

def inUnits (num den : Nat) (e : Int) : Nat × Nat :=
  if 0 ≤ e then (num, den * Nat.pow 2 e.toNat) else (num * Nat.pow 2 (-e).toNat, den)

/-- The double nearest to a ratio; a half goes to the even neighbour. -/
def ofRatio (negative : Bool) (num den : Nat) : Binary64 :=
  if num = 0 then ⟨negative, 0⟩
  else
    let e0 : Int := max (-1074) ((num.log2 : Int) - den.log2 - 53)
    let (n0, d0) := inUnits num den e0
    let e : Int := if Nat.pow 2 53 ≤ n0 / d0 then e0 + 1 else e0
    let (n, d) := inUnits num den e
    let magnitude := (e + 1074).toNat * Nat.pow 2 52 + roundDiv n d
    ⟨negative, min magnitude infinityMagnitude⟩

/-- The double nearest to `digits * 10 ^ exponent`. Numbers far out of range need no arithmetic. -/
def ofDecimal (negative : Bool) (digits : Nat) (exponent : Int) : Binary64 :=
  if digits = 0 then ⟨negative, 0⟩
  else
    let size : Int := exponent + (digits.log2 : Int) * 3 / 10
    if size > 320 then infinity negative
    else if exponent + (digits.log2 : Int) < -400 then ⟨negative, 0⟩
    else if 0 ≤ exponent then ofRatio negative (digits * Nat.pow 10 exponent.toNat) 1
    else ofRatio negative digits (Nat.pow 10 (-exponent).toNat)

def ofInt (i : Int) : Binary64 := ofRatio (i < 0) i.natAbs 1

def toInt? (x : Binary64) : Option Int :=
  if !x.isFinite then none
  else
    let (num, den) := x.ratio
    if num % den = 0 then some (if x.negative then -((num / den : Nat) : Int) else (num / den : Nat))
    else none

def isPositive (x : Binary64) : Bool := !x.negative && !x.isZero && !x.isNaN

def neg (x : Binary64) : Binary64 := { x with negative := !x.negative }

/-- Compares two numbers that are not NaN; the zeros are equal. -/
def cmp (x y : Binary64) : Ordering :=
  let key (z : Binary64) : Int := if z.negative then -(z.magnitude : Int) else z.magnitude
  compare (key x) (key y)

def sortLe (x y : Binary64) : Bool := y.isNaN || (!x.isNaN && (x.cmp y).isLE)

def toFloat (x : Binary64) : Float :=
  Float.ofBits (UInt64.ofNat (x.magnitude + if x.negative then Nat.pow 2 63 else 0))

def ofFloat (f : Float) : Binary64 :=
  let n := f.toBits.toNat
  ⟨Nat.pow 2 63 ≤ n, n % Nat.pow 2 63⟩

end Binary64
end CodeAgent
