import CodeAgent.Number.Binary64
import CodeAgent.Text.Case
import CodeAgent.Text.Word

namespace CodeAgent.Decimal

def width (n : Nat) : Nat := (Nat.repr n).length

/-- The two neighbours of a ratio on the grid of `digits` significant digits, as whole numbers of
`10 ^ e`. -/
def neighbours (num den : Nat) (e : Int) : Nat × Nat :=
  let (n, d) := if 0 ≤ e then (num, den * Nat.pow 10 e.toNat) else (num * Nat.pow 10 (-e).toNat, den)
  (n / d, n / d + 1)

/-- Whether the lower neighbour is the nearer; a half goes to the even neighbour. -/
private def lowerNearer (num den low : Nat) (e : Int) : Bool :=
  let (n, d) := if 0 ≤ e then (num, den * Nat.pow 10 e.toNat) else (num * Nat.pow 10 (-e).toNat, den)
  let twice := 2 * (n - low * d)
  twice < d || (twice == d && low % 2 == 0)

def leadingExponent (num den : Nat) : Int :=
  let guess : Int := (width num : Int) - width den
  let atLeast (e : Int) : Bool :=
    if 0 ≤ e then den * Nat.pow 10 e.toNat ≤ num else den ≤ num * Nat.pow 10 (-e).toNat
  if atLeast guess then guess else guess - 1

/-- The fewest digits that read back as a finite number other than zero, with the exponent of the
last digit. Digit counts are tried in order; of two neighbours that both read back the nearer is
taken. Seventeen digits always read back. -/
def shortest (x : Binary64) : Nat × Int :=
  let (num, den) := x.ratio
  let lead := leadingExponent num den
  let readsBack (d : Nat) (e : Int) : Bool := Binary64.ofDecimal x.negative d e == x
  let tryCount (count : Nat) : Option (Nat × Int) :=
    let e := lead - (count : Int) + 1
    let (low, high) := neighbours num den e
    match 0 < low && readsBack low e, readsBack high e with
    | true, true => some (if lowerNearer num den low e then low else high, e)
    | true, false => some (low, e)
    | false, true => some (high, e)
    | false, false => none
  match (List.range 17).findSome? fun k => tryCount (k + 1) with
  | some r => r
  | none => (Binary64.roundDiv num den, 0)

def stripZeros (digits : Text) (e : Int) : Text × Int :=
  let kept := Text.dropEndWhile (· = '0') digits
  (kept, e + ((digits.length - kept.length : Nat) : Int))

def zeros (n : Nat) : Text := List.replicate n (CodePoint.ofChar '0')

/-- Digits with the exponent of the last of them: positional from `1e-4` up to `1e16`, with `.0` when whole; else
one digit, the rest after a point, and an exponent of two digits or more. -/
def layout (digits : Text) (e : Int) : Text :=
  let point : Int := e + digits.length
  if -4 < point && point ≤ 16 then
    if point ≤ 0 then "0." ++ zeros (-point).toNat ++ digits
    else if digits.length ≤ point.toNat then digits ++ zeros (point.toNat - digits.length) ++ ".0"
    else digits.take point.toNat ++ "." ++ digits.drop point.toNat
  else
    let exponent := point - 1
    let mark := if exponent < 0 then "e-" else "e+"
    let size := Text.ofNat exponent.natAbs
    digits.take 1 ++ (if digits.length = 1 then ([] : Text) else "." ++ digits.drop 1) ++ mark ++
      zeros (2 - size.length) ++ size

/-- The usual form of a number, with the fewest digits that read back. -/
def display (x : Binary64) : Text :=
  let sign : Text := if x.negative then "-" else ""
  if x.isNaN then "nan"
  else if x.isInfinite then sign ++ "inf"
  else if x.isZero then sign ++ "0.0"
  else
    let (d, e) := shortest x
    let (digits, e) := stripZeros (Text.ofNat d) e
    sign ++ layout digits e

/-- A number with a fixed count of places, rounded on its exact value, a half to the even
neighbour. -/
def fixed (places : Nat) (x : Binary64) : Text :=
  let sign : Text := if x.negative then "-" else ""
  if x.isNaN then "nan"
  else if x.isInfinite then sign ++ "inf"
  else
    let (num, den) := x.ratio
    let n := Binary64.roundDiv (num * Nat.pow 10 places) den
    let digits := Text.ofNat n
    let digits := zeros (places + 1 - digits.length) ++ digits
    sign ++ digits.take (digits.length - places) ++
      (if places = 0 then ([] : Text) else "." ++ digits.drop (digits.length - places))

/-- A run of ASCII digits as a number, read in halves so that long runs stay quick. -/
def ofDigits (digits : Text) : Nat :=
  digits.foldl (fun n c => n * 10 + (c.val - 48)) 0

/-- The digits of a numeral in which single underscores may stand between digits. -/
def groupedDigits? (t : Text) : Option (List Nat) :=
  match t with
  | [] => none
  | c :: r =>
    match c.decimalValue? with
    | none => none
    | some v => go [v] r
where
  go (acc : List Nat) : Text → Option (List Nat)
    | [] => some acc.reverse
    | [c] => c.decimalValue?.map fun v => (v :: acc).reverse
    | c :: d :: r =>
      if c = '_' then
        match d.decimalValue? with
        | some v => go (v :: acc) r
        | none => none
      else match c.decimalValue? with
        | some v => go (v :: acc) (d :: r)
        | none => none

def ofDigitValues (ds : List Nat) : Nat := ds.foldl (fun n d => n * 10 + d) 0

def cutSign (t : Text) : Bool × Text :=
  match t with
  | c :: r => if c = '-' then (true, r) else if c = '+' then (false, r) else (false, t)
  | [] => (false, [])

/-- The longest whole numeral that is read; more digits are refused. -/
def maxDigits : Nat := 4300

/-- A blank that may stand around a numeral; the control characters that separate are none. -/
def isMargin (c : CodePoint) : Bool := c.isBlank && !(28 ≤ c.val && c.val ≤ 31)

/-- A whole number: blanks around it, a sign, digits of any script in groups. -/
def readInt? (t : Text) : Option Int := do
  let (negative, digits) := cutSign (t.trimWith isMargin)
  let ds ← groupedDigits? digits
  if maxDigits < ds.length then none
  else
    let n := ofDigitValues ds
    some (if negative then -(n : Int) else n)

/-- Digit groups at the start of a text, and the rest; an underscore must stand between digits. -/
private def takeGroups : Text → List Nat × Text
  | [] => ([], [])
  | [c] =>
    match c.decimalValue? with
    | some v => ([v], [])
    | none => ([], [c])
  | c :: d :: r =>
    match c.decimalValue? with
    | none => ([], c :: d :: r)
    | some v =>
      if d = '_' && (r.head?.map CodePoint.isDecimal).getD false then
        let (ds, rest) := takeGroups r
        (v :: ds, rest)
      else
        let (ds, rest) := takeGroups (d :: r)
        (v :: ds, rest)

/-- A decimal number: blanks around it, a sign, then digits with an optional point and exponent, or
one of the words for infinity and not-a-number. -/
def readFloat? (t : Text) : Option Binary64 :=
  let (negative, body) := cutSign (t.trimWith isMargin)
  let word := Text.lower body
  if word = ("inf" : Text) || word = ("infinity" : Text) then some (.infinity negative)
  else if word = ("nan" : Text) then some { Binary64.nan with negative := negative }
  else
    let (whole, r) := takeGroups body
    let (fraction, r) :=
      match r with
      | p :: r' => if p = '.' then takeGroups r' else ([], r)
      | [] => ([], [])
    if whole.isEmpty && fraction.isEmpty then none
    else
      let number (e : Int) := Binary64.ofDecimal negative (ofDigitValues (whole ++ fraction))
        (e - fraction.length)
      match r with
      | [] => some (number 0)
      | e :: r' =>
        if e = 'e' || e = 'E' then
          let (negativeExponent, ds) := cutSign r'
          match takeGroups ds with
          | (d :: ds, []) =>
            let n : Int := ofDigitValues (d :: ds)
            some (number (if negativeExponent then -n else n))
          | _ => none
        else none

end CodeAgent.Decimal
