import CodeAgent.Number.Decimal
import CodeAgent.Table
import CodeAgent.Text.Quoted

namespace CodeAgent

inductive Json where
  | null
  | bool (b : Bool)
  | int (i : Int)
  | float (x : Binary64)
  | str (t : Text)
  | arr (items : List Json)
  | obj (fields : List (Text × Json))
deriving Inhabited

namespace Json

abbrev lookup (key : Text) (fields : List (Text × Json)) : Option Json := Table.get? key fields

/-- One field a key: a repeated key keeps its place and takes the later value. -/
abbrev ofPairs (pairs : List (Text × Json)) : List (Text × Json) := Table.ofPairs pairs

def get? (key : Text) : Json → Option Json
  | .obj fields => lookup key fields
  | _ => none

def text? : Json → Option Text
  | .str t => some t
  | _ => none

/-- Values that count as absent in a condition: null, false, zero and what is empty. -/
def isFalsy : Json → Bool
  | .null => true
  | .bool b => !b
  | .int i => i == 0
  | .float x => x.isZero
  | .str t => t.isEmpty
  | .arr items => items.isEmpty
  | .obj fields => fields.isEmpty

mutual
def display : Json → Text
  | .null => "None"
  | .bool b => if b then "True" else "False"
  | .int i => Text.ofInt i
  | .float x => Decimal.display x
  | .str t => Text.quoted t
  | .arr items => "[" ++ Text.joinWith ", " (displayItems items) ++ "]"
  | .obj fields => "\x7b" ++ Text.joinWith ", " (displayFields fields) ++ "\x7d"

def displayItems : List Json → List Text
  | [] => []
  | v :: r => display v :: displayItems r

def displayFields : List (Text × Json) → List Text
  | [] => []
  | (k, v) :: r => (Text.quoted k ++ ": " ++ display v) :: displayFields r
end

/-- A text stands for itself; every other value shows in its display form. -/
def plain : Json → Text
  | .str t => t
  | v => display v

end Json
end CodeAgent
