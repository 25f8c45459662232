import CodeAgent.Host
import CodeAgent.Json.Value

namespace CodeAgent.Json

/-- What can be wrong with a document. -/
inductive Problem where
  | value
  | propertyName
  | colon
  | comma
  | openString
  | control
  | escape
  | unicodeEscape
  | extra
  | byteOrderMark
deriving DecidableEq

def Problem.reason : Problem → Text
  | .value => "Expecting value"
  | .propertyName => "Expecting property name enclosed in double quotes"
  | .colon => "Expecting ':' delimiter"
  | .comma => "Expecting ',' delimiter"
  | .openString => "Unterminated string starting at"
  | .control => "Invalid control character at"
  | .escape => "Invalid \\escape"
  | .unicodeEscape => "Invalid \\uXXXX escape"
  | .extra => "Extra data"
  | .byteOrderMark => "Unexpected UTF-8 BOM (decode using utf-8-sig)"

/-- Why reading failed. A document can be malformed at a place; an integer can have too many digits
and brackets can be nested too deeply even where the document is well formed. -/
inductive Fault where
  | malformed (problem : Problem) (rest : Text)
  | longInteger (digits : Nat)
  | tooDeep
deriving DecidableEq

def placeText (whole rest : Text) : Text :=
  let before := whole.take (whole.length - rest.length)
  let column := (before.reverse.takeWhile (· ≠ Text.newline)).length + 1
  let line := (before.filter (· = Text.newline)).length + 1
  "line " ++ Text.ofNat line ++ " column " ++ Text.ofNat column ++
    " (char " ++ Text.ofNat before.length ++ ")"

def Fault.message (whole : Text) : Fault → Text
  | .malformed problem rest => problem.reason ++ ": " ++ placeText whole rest
  | .longInteger n =>
    "Exceeds the limit (4300 digits) for integer string conversion: value has " ++ Text.ofNat n ++
      " digits; use sys.set_int_max_str_digits() to increase the limit"
  | .tooDeep => "maximum recursion depth exceeded while decoding a JSON document"

def isSpace (c : CodePoint) : Bool := c = ' ' || c = '\t' || c = '\n' || c = '\r'

def skipSpace (t : Text) : Text := t.dropWhile isSpace

def hex4? : Text → Option (Nat × Text)
  | a :: b :: c :: d :: r => do
    let a ← a.hexValue?
    let b ← b.hexValue?
    let c ← c.hexValue?
    let d ← d.hexValue?
    some (((a * 16 + b) * 16 + c) * 16 + d, r)
  | _ => none

def isHighSurrogate (n : Nat) : Bool := 0xd800 ≤ n && n < 0xdc00
def isLowSurrogate (n : Nat) : Bool := 0xdc00 ≤ n && n < 0xe000

def joinSurrogates (high low : Nat) : CodePoint :=
  .ofNat (0x10000 + (high - 0xd800) * 0x400 + (low - 0xdc00))

def lowSurrogate? : Text → Option (Nat × Text)
  | b :: u :: r =>
    if b = '\\' && u = 'u' then
      match hex4? r with
      | some (low, r') => if isLowSurrogate low then some (low, r') else none
      | none => none
    else none
  | _ => none

def escaped? : Char → Option Char
  | '"' => some '"'
  | '\\' => some '\\'
  | '/' => some '/'
  | 'b' => some '\x08'
  | 'f' => some '\x0c'
  | 'n' => some '\n'
  | 'r' => some '\r'
  | 't' => some '\t'
  | _ => none

/-- The body of a string after its opening quote. `start` is the text from that quote on. The fuel is
the number of code points that are left. -/
def stringBody (start : Text) : Nat → Text → Text → Except Fault (Text × Text)
  | 0, _, _ => .error (.malformed .openString start)
  | _ + 1, _, [] => .error (.malformed .openString start)
  | n + 1, acc, c :: r =>
    if c = '"' then .ok (acc.reverse, r)
    else if c = '\\' then
      match r with
      | [] => .error (.malformed .openString start)
      | e :: r' =>
        if e = 'u' then
          match hex4? r' with
          | none => .error (.malformed .unicodeEscape r)
          | some (_, []) => .error (.malformed .unicodeEscape r)
          | some (unit, rest) =>
            if isHighSurrogate unit then
              match lowSurrogate? rest with
              | some (low, rest') => stringBody start n (joinSurrogates unit low :: acc) rest'
              | none => stringBody start n (.ofNat unit :: acc) rest
            else stringBody start n (.ofNat unit :: acc) rest
        else match escaped? e.char with
          | some d => stringBody start n (CodePoint.ofChar d :: acc) r'
          | none => .error (.malformed .escape (c :: r))
    else if c.val < 32 then .error (.malformed .control (c :: r))
    else stringBody start n (c :: acc) r

def string (t : Text) : Except Fault (Text × Text) :=
  stringBody t t.length [] (t.drop 1)

def digits (t : Text) : Text × Text := t.span CodePoint.isDigit

def fraction? : Text → Option (Text × Text)
  | p :: d :: r => if p = '.' && d.isDigit then some (digits (d :: r)) else none
  | _ => none

def exponent? : Text → Option (Bool × Text × Text)
  | e :: r =>
    if e = 'e' || e = 'E' then
      let (negative, body) := Decimal.cutSign r
      let (ds, rest) := digits body
      if ds.isEmpty then none else some (negative, ds, rest)
    else none
  | [] => none

/-- The digits in front of a fraction or an exponent. A zero stands alone. -/
def wholePart : Text → Text × Text
  | c :: r => if c = '0' then ([c], r) else digits (c :: r)
  | [] => ([], [])

/-- A number without its sign: no zero in front of another digit. -/
def number (negative : Bool) (start t : Text) : Except Fault (Json × Text) :=
  let (whole, r) := wholePart t
  if whole.isEmpty then .error (.malformed .value start)
  else
    let (fraction, r1) := (fraction? r).getD ([], r)
    match exponent? r1 with
    | some (negativeExponent, ds, rest) =>
      let e : Int := Decimal.ofDigits ds
      let e := if negativeExponent then -e else e
      .ok (.float (.ofDecimal negative (Decimal.ofDigits (whole ++ fraction)) (e - fraction.length)),
        rest)
    | none =>
      if fraction.isEmpty then
        if Decimal.maxDigits < whole.length then .error (.longInteger whole.length)
        else
          let n : Int := Decimal.ofDigits whole
          .ok (.int (if negative then -n else n), r)
      else
        .ok (.float (.ofDecimal negative (Decimal.ofDigits (whole ++ fraction)) (-fraction.length)),
          r1)

def word? (t : Text) : Option (Json × Text) :=
  let try' (w : Text) (v : Json) (next : Option (Json × Text)) : Option (Json × Text) :=
    if w.isPrefixOf t then some (v, t.drop w.length) else next
  try' "null" .null <| try' "true" (.bool true) <| try' "false" (.bool false) <|
  try' "NaN" (.float .nan) <| try' "Infinity" (.float (.infinity false)) <|
  try' "-Infinity" (.float (.infinity true)) none

abbrev Step (α : Type) := Text → Except Fault (α × Text)

def items (item : Step Json) : Nat → List Json → Step (List Json)
  | 0, _, t => .error (.malformed .comma t)
  | n + 1, acc, t => do
    let (v, r) ← item t
    match skipSpace r with
    | c :: r' =>
      if c = ']' then .ok ((v :: acc).reverse, r')
      else if c = ',' then items item n (v :: acc) (skipSpace r')
      else .error (.malformed .comma (c :: r'))
    | [] => .error (.malformed .comma [])

def field (item : Step Json) : Step (Text × Json)
  | c :: r =>
    if c = '"' then do
      let (key, r1) ← string (c :: r)
      match skipSpace r1 with
      | k :: r2 =>
        if k = ':' then do
          let (v, r3) ← item (skipSpace r2)
          .ok ((key, v), r3)
        else .error (.malformed .colon (k :: r2))
      | [] => .error (.malformed .colon [])
    else .error (.malformed .propertyName (c :: r))
  | [] => .error (.malformed .propertyName [])

def fields (item : Step Json) : Nat → List (Text × Json) → Step (List (Text × Json))
  | 0, _, t => .error (.malformed .comma t)
  | n + 1, acc, t => do
    let (f, r) ← field item t
    match skipSpace r with
    | c :: r' =>
      if c = '}' then .ok ((f :: acc).reverse, r')
      else if c = ',' then fields item n (f :: acc) (skipSpace r')
      else .error (.malformed .comma (c :: r'))
    | [] => .error (.malformed .comma [])

/-- One value at the start of a text, with at most `depth` brackets open at once. -/
def value : (depth : Nat) → Step Json
  | _, [] => .error (.malformed .value [])
  | depth, c :: r =>
    if c = '"' then do
      let (t, rest) ← string (c :: r)
      .ok (.str t, rest)
    else if c = '[' then
      match depth with
      | 0 => .error .tooDeep
      | d + 1 =>
        match skipSpace r with
        | e :: r' =>
          if e = ']' then .ok (.arr [], r')
          else do
            let (vs, rest) ← items (value d) (c :: r).length [] (e :: r')
            .ok (.arr vs, rest)
        | [] => .error (.malformed .value [])
    else if c = '{' then
      match depth with
      | 0 => .error .tooDeep
      | d + 1 =>
        match skipSpace r with
        | e :: r' =>
          if e = '}' then .ok (.obj [], r')
          else do
            let (fs, rest) ← fields (value d) (c :: r).length [] (e :: r')
            .ok (.obj (ofPairs fs), rest)
        | [] => .error (.malformed .propertyName [])
    else match word? (c :: r) with
      | some found => .ok found
      | none => if c = '-' then number true (c :: r) r else number false (c :: r) (c :: r)

def read [Host] (t : Text) : Except Fault Json :=
  if (t.head?.map CodePoint.val) = some 0xfeff then .error (.malformed .byteOrderMark t)
  else do
    let (v, r) ← value Host.jsonDepth (skipSpace t)
    match skipSpace r with
    | [] => .ok v
    | rest => .error (.malformed .extra rest)

end CodeAgent.Json
