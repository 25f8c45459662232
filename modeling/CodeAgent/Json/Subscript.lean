import CodeAgent.Json.Value

namespace CodeAgent.Json

/-- Why a step into a value fails. -/
inductive StepFault where
  | noField (key : Text)
  | noPosition (position : Nat)
  | pastEnd (what : Text)
  | fieldOfList
  | fieldOfText
  | notSubscriptable (kind : Text)
deriving DecidableEq

def StepFault.message : StepFault → Text
  | .noField key => Text.quoted key
  | .noPosition position => Text.ofNat position
  | .pastEnd what => what ++ " index out of range"
  | .fieldOfList => "list indices must be integers or slices, not str"
  | .fieldOfText => "string indices must be integers, not 'str'"
  | .notSubscriptable kind => "'" ++ kind ++ "' object is not subscriptable"

private def scalarKind : Json → Text
  | .null => "NoneType"
  | .bool _ => "bool"
  | .int _ => "int"
  | _ => "float"

def atField (key : Text) : Json → Except StepFault Json
  | .obj fields =>
    match lookup key fields with
    | some v => .ok v
    | none => .error (.noField key)
  | .arr _ => .error .fieldOfList
  | .str _ => .error .fieldOfText
  | v => .error (.notSubscriptable (scalarKind v))

/-- The item of a list or the character of a text. An object has names only, never positions. -/
def atPosition (position : Nat) : Json → Except StepFault Json
  | .arr items =>
    match items[position]? with
    | some v => .ok v
    | none => .error (.pastEnd "list")
  | .str t =>
    match t[position]? with
    | some c => .ok (.str [c])
    | none => .error (.pastEnd "string")
  | .obj _ => .error (.noPosition position)
  | v => .error (.notSubscriptable (scalarKind v))

/-- The items a walk over a value meets: those of a list, the names of an object, the characters of a
text. -/
def items? : Json → Option (List Json)
  | .arr items => some items
  | .obj fields => some (fields.map fun (k, _) => .str k)
  | .str t => some (t.map fun c => .str [c])
  | _ => none

end CodeAgent.Json
