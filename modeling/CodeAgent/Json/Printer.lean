import CodeAgent.Json.Value

namespace CodeAgent.Json

def unit (n : Nat) : Text := "\\u" ++ Text.hex 4 n

/-- A code point inside a string. Those past the basic plane take two escapes. -/
def escapePoint (c : CodePoint) : Text :=
  if c = '"' then "\\\""
  else if c = '\\' then "\\\\"
  else if c = '\n' then "\\n"
  else if c = '\r' then "\\r"
  else if c = '\t' then "\\t"
  else if c = '\x08' then "\\b"
  else if c = '\x0c' then "\\f"
  else if 32 ≤ c.val && c.val < 127 then [c]
  else if c.val < 0x10000 then unit c.val
  else unit (0xd800 + (c.val - 0x10000) / 0x400) ++ unit (0xdc00 + (c.val - 0x10000) % 0x400)

def writeString (t : Text) : Text := "\"" ++ t.flatMap escapePoint ++ "\""

def writeFloat (x : Binary64) : Text :=
  if x.isNaN then "NaN"
  else if x.isInfinite then (if x.negative then "-Infinity" else "Infinity")
  else Decimal.display x

mutual
def write : Json → Text
  | .null => "null"
  | .bool b => if b then "true" else "false"
  | .int i => Text.ofInt i
  | .float x => writeFloat x
  | .str t => writeString t
  | .arr items => "[" ++ Text.joinWith ", " (writeItems items) ++ "]"
  | .obj fields => "\x7b" ++ Text.joinWith ", " (writeFields fields) ++ "\x7d"

def writeItems : List Json → List Text
  | [] => []
  | v :: r => write v :: writeItems r

def writeFields : List (Text × Json) → List Text
  | [] => []
  | (k, v) :: r => (writeString k ++ ": " ++ write v) :: writeFields r
end

private def lineAt (level : Nat) : Text := "\n" ++ List.replicate (4 * level) (CodePoint.ofChar ' ')

mutual
def writeAt (level : Nat) : Json → Text
  | .arr (v :: r) =>
    "[" ++ lineAt (level + 1) ++
      Text.joinWith ("," ++ lineAt (level + 1)) (writeItemsAt (level + 1) (v :: r)) ++ lineAt level ++ "]"
  | .obj (f :: r) =>
    "\x7b" ++ lineAt (level + 1) ++
      Text.joinWith ("," ++ lineAt (level + 1)) (writeFieldsAt (level + 1) (f :: r)) ++ lineAt level ++ "\x7d"
  | v => write v

def writeItemsAt (level : Nat) : List Json → List Text
  | [] => []
  | v :: r => writeAt level v :: writeItemsAt level r

def writeFieldsAt (level : Nat) : List (Text × Json) → List Text
  | [] => []
  | (k, v) :: r => (writeString k ++ ": " ++ writeAt level v) :: writeFieldsAt level r
end

/-- One item or field a line, four blanks deeper on every level. -/
def writeIndented (v : Json) : Text := writeAt 0 v

end CodeAgent.Json
