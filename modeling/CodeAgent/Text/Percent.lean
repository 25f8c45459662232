import CodeAgent.Text.Utf8

namespace CodeAgent.Text

private def escapeByte (b : UInt8) : Text := (CodePoint.ofChar '%') :: (hex 2 b.toNat).map fun c =>
  if c.isLowerAscii then ⟨c.val - 32, by have := c.lt; omega⟩ else c

def percentEncode (keep : CodePoint → Bool) (t : Text) : Text :=
  t.flatMap fun c => if keep c then [c] else (Utf8.encodePoint c).flatMap escapeByte

def isUnreserved (c : CodePoint) : Bool :=
  c.isAlphaAscii || c.isDigit || c = '_' || c = '.' || c = '-' || c = '~'

/-- A value in the query of an address; a blank becomes a plus sign. -/
def queryValue (t : Text) : Text :=
  (percentEncode (fun c => isUnreserved c || c.is ' ') t).map fun (c : CodePoint) =>
    if c.is ' ' then CodePoint.ofChar '+' else c

def isPathPoint (c : CodePoint) : Bool :=
  32 < c.val && c.val < 127 && c ∉ ("\"#<>?\x60\x7b\x7d" : Text)

end CodeAgent.Text
