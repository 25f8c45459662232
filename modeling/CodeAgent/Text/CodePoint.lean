namespace CodeAgent

/-- A code point of Unicode, surrogates included. -/
structure CodePoint where
  val : Nat
  lt : val < 0x110000
deriving DecidableEq

namespace CodePoint

instance : Inhabited CodePoint := ⟨⟨0xfffd, by decide⟩⟩

def ofChar (c : Char) : CodePoint :=
  ⟨c.toNat, by
    have h := c.valid
    simp only [UInt32.isValidChar, Nat.isValidChar] at h
    simp only [Char.toNat]
    omega⟩

instance : Coe Char CodePoint := ⟨ofChar⟩

def is (c : CodePoint) (ch : Char) : Bool := c = ofChar ch

/-- The code point of a number; a number past the last one gives the replacement character. -/
def ofNat (n : Nat) : CodePoint :=
  if h : n < 0x110000 then ⟨n, h⟩ else default

def isSurrogate (c : CodePoint) : Bool := 0xd800 ≤ c.val && c.val < 0xe000

def char? (c : CodePoint) : Option Char :=
  if h : c.val.isValidChar then some (Char.ofNatAux c.val h) else none

/-- The character to branch on; a surrogate shows as the replacement character. -/
def char (c : CodePoint) : Char := c.char?.getD '\ufffd'

instance : Ord CodePoint := ⟨fun a b => compare a.val b.val⟩

def isDigit (c : CodePoint) : Bool := 48 ≤ c.val && c.val ≤ 57
def isUpperAscii (c : CodePoint) : Bool := 65 ≤ c.val && c.val ≤ 90
def isLowerAscii (c : CodePoint) : Bool := 97 ≤ c.val && c.val ≤ 122
def isAlphaAscii (c : CodePoint) : Bool := c.isUpperAscii || c.isLowerAscii

def hexValue? (c : CodePoint) : Option Nat :=
  if c.isDigit then some (c.val - 48)
  else if 97 ≤ c.val && c.val ≤ 102 then some (c.val - 87)
  else if 65 ≤ c.val && c.val ≤ 70 then some (c.val - 55)
  else none

end CodePoint

abbrev Text := List CodePoint

instance : LawfulBEq Text := inferInstance

namespace Text

def ofString (s : String) : Text := s.toList.map CodePoint.ofChar

instance : Coe String Text := ⟨ofString⟩

def toChars? (t : Text) : Option (List Char) := t.mapM CodePoint.char?

def toString? (t : Text) : Option String := t.toChars?.map String.ofList

def startsWith (t : Text) (ch : Char) : Bool := (t.head?.map (·.is ch)).getD false

/-- Texts are ordered by their code points, a proper start before what continues it. -/
def cmp : Text → Text → Ordering
  | [], [] => .eq
  | [], _ :: _ => .lt
  | _ :: _, [] => .gt
  | a :: s, b :: t => (compare a b).then (cmp s t)

def ble (s t : Text) : Bool := (cmp s t).isLE

end Text
end CodeAgent
