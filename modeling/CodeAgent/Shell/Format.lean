import CodeAgent.Number.Decimal
import CodeAgent.Text.Utf8

namespace CodeAgent.Shell

def octalValue? (c : CodePoint) : Option Nat :=
  if 48 ≤ c.val && c.val ≤ 55 then some (c.val - 48) else none

/-- The value of an octal numeral of at most `n` digits, and what follows it. -/
def octal (t : Text) (n : Nat) : Nat × Text :=
  let digits := (t.take n).takeWhile fun c => (octalValue? c).isSome
  (digits.foldl (fun v c => v * 8 + (octalValue? c).getD 0) 0, t.drop digits.length)

def simpleEscape? (c : CodePoint) : Option Nat :=
  match c.char with
  | 'a' => some 7
  | 'b' => some 8
  | 'f' => some 12
  | 'n' => some 10
  | 'r' => some 13
  | 't' => some 9
  | 'v' => some 11
  | '\\' => some 92
  | _ => none

/-- What a backslash and the text after it stand for; none for the escape that ends all output. -/
def escape (zeroFirst : Bool) : Text → Option (Bytes × Text)
  | [] => some ([92], [])
  | c :: r =>
    if c = 'c' then none
    else match simpleEscape? c with
      | some n => some ([UInt8.ofNat n], r)
      | none =>
        if c = '0' && zeroFirst then
          let (n, rest) := octal r 3
          some ([UInt8.ofNat n], rest)
        else if (octalValue? c).isSome && !zeroFirst then
          let (n, rest) := octal (c :: r) 3
          some ([UInt8.ofNat n], rest)
        else some (92 :: Utf8.encodePoint c, r)

/-- A text with its escapes read, and whether output goes on after it. -/
def unescape (zeroFirst : Bool) : (fuel : Nat) → Text → Bytes × Bool
  | 0, _ | _, [] => ([], true)
  | n + 1, c :: r =>
    if c = '\\' then
      match escape zeroFirst r with
      | none => ([], false)
      | some (bytes, rest) =>
        let (later, goesOn) := unescape zeroFirst n rest
        (bytes ++ later, goesOn)
    else
      let (later, goesOn) := unescape zeroFirst n r
      (Utf8.encodePoint c ++ later, goesOn)

/-- A directive between a percent sign and its letter. -/
structure Directive where
  left : Bool
  zero : Bool
  width : Nat
  places : Option Nat

def directive (t : Text) : Directive × Text :=
  let flags := t.takeWhile fun c => c ∈ ("-0+ #" : Text)
  let t := t.drop flags.length
  let width := t.takeWhile CodePoint.isDigit
  let t := t.drop width.length
  let (places, t) :=
    if Text.startsWith t '.' then
      let digits := (t.drop 1).takeWhile CodePoint.isDigit
      (some (Decimal.ofDigits digits), t.drop (digits.length + 1))
    else (none, t)
  (⟨flags.any (·.is '-'), flags.any (·.is '0'), Decimal.ofDigits width, places⟩, t)

def Directive.pad (d : Directive) (t : Text) : Text :=
  let fill := d.width - t.length
  if d.left then t ++ List.replicate fill (CodePoint.ofChar ' ')
  else List.replicate fill (CodePoint.ofChar (if d.zero then '0' else ' ')) ++ t

def Directive.apply (d : Directive) (letter : CodePoint) (argument : Text) : Bytes :=
  let number := (Decimal.readInt? argument).getD 0
  match letter.char with
  | 's' => Utf8.encodeAny ({ d with zero := false }.pad ((d.places.map argument.take).getD argument))
  | 'b' => (unescape true (argument.length + 1) argument).1
  | 'd' | 'i' | 'u' => Utf8.encodeAny (d.pad (Text.ofInt number))
  | 'x' => Utf8.encodeAny (d.pad (Text.ofString (String.ofList (Nat.toDigits 16 number.natAbs))))
  | 'o' => Utf8.encodeAny (d.pad (Text.ofString (String.ofList (Nat.toDigits 8 number.natAbs))))
  | 'c' => Utf8.encodeAny (d.pad (argument.take 1))
  | _ => []

/-- One pass over a format: the output, the arguments left, and whether output goes on. -/
def formatOnce : (fuel : Nat) → (format : Text) → (arguments : List Text) → Bytes × List Text × Bool
  | 0, _, arguments | _, [], arguments => ([], arguments, true)
  | n + 1, c :: r, arguments =>
    let more (bytes : Bytes) (rest : Text) (arguments : List Text) : Bytes × List Text × Bool :=
      let (later, arguments, goesOn) := formatOnce n rest arguments
      (bytes ++ later, arguments, goesOn)
    if c = '\\' then
      match escape false r with
      | none => ([], arguments, false)
      | some (bytes, rest) => more bytes rest arguments
    else if c = '%' then
      if Text.startsWith r '%' then more [37] (r.drop 1) arguments
      else
        let (d, rest) := directive r
        match rest with
        | [] => ([], arguments, true)
        | letter :: rest => more (d.apply letter (arguments.headD [])) rest (arguments.drop 1)
    else more (Utf8.encodePoint c) r arguments

/-- A format is used again while it takes arguments and some are left. -/
def format : (fuel : Nat) → (pattern : Text) → (arguments : List Text) → Bytes
  | 0, _, _ => []
  | n + 1, pattern, arguments =>
    let (bytes, rest, goesOn) := formatOnce (pattern.length + 1) pattern arguments
    if goesOn && !rest.isEmpty && rest.length < arguments.length then bytes ++ format n pattern rest
    else bytes

end CodeAgent.Shell
