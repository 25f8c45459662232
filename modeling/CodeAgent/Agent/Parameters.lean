import CodeAgent.Agent.Invocation
import CodeAgent.Text.Word

namespace CodeAgent

abbrev Checked (α : Type) := Except (List ParameterProblem) α

namespace Checked

def both {α β γ : Type} (f : α → β → γ) (a : Checked α) (b : Checked β) : Checked γ :=
  match a, b with
  | .ok a, .ok b => .ok (f a b)
  | .error p, .ok _ => .error p
  | .ok _, .error q => .error q
  | .error p, .error q => .error (p ++ q)

def within {α : Type} (place : Text) (a : Checked α) : Checked α :=
  match a with
  | .ok a => .ok a
  | .error ps => .error (ps.map fun p => { p with place := place :: p.place })

def fail {α : Type} (fault : ParameterFault) : Checked α := .error [⟨[], fault⟩]

end Checked

namespace Parameter

def string : Json → Checked Text
  | .str t => .ok t
  | _ => Checked.fail .notString

def nonEmptyString : Json → Checked Text
  | .str t =>
    if t.any (·.isSurrogate) then Checked.fail .notUnicode
    else if t.isEmpty then Checked.fail .emptyString else .ok t
  | _ => Checked.fail .notString

/-- Blanks that may stand around a numeral; the separators among the control characters may not. -/
private def isMargin (c : CodePoint) : Bool := c.isBlank && !(28 ≤ c.val && c.val ≤ 31)

/-- Drops zeros and underscores in front of a numeral; one zero stays where no other digit follows. -/
private def dropLeadingZeros (t : Text) : Option Text :=
  match t with
  | [] => none
  | c :: r =>
    if c = '0' then
      let zero : CodePoint := '0'
      match r.dropWhile (fun d => d.is '0' || d.is '_') with
      | [] => t.getLast?.map ([·])
      | d :: rest =>
        if d.isDigit then some (d :: rest)
        else if d = '.' then
          some ((t.take (t.length - rest.length - 1)).getLastD zero :: d :: rest)
        else none
    else if c.isDigit || c = '-' then some t
    else none

/-- A point followed by zeros alone adds nothing to a whole number. -/
private def dropZeroFraction (t : Text) : Text :=
  match t.span (fun c => !c.is '.') with
  | (whole, _ :: zeros) => if zeros.all (·.is '0') then whole else t
  | (whole, []) => whole

private def dropUnderscores (t : Text) : Text :=
  let bar : CodePoint := '_'
  if Text.startsWith t '_' || t.getLast? = some bar || Text.hasInfix "__" t then t
  else t.filter (· ≠ bar)

/-- A whole numeral after cleaning: a sign and digits, no zero in front of another digit. -/
private def plainNumeral? (t : Text) : Option Int :=
  let (negative, digits) :=
    match t with
    | c :: r => if c = '-' then (true, r) else (false, t)
    | [] => (false, [])
  if digits.isEmpty || !digits.all (·.isDigit) then none
  else if 1 < digits.length && Text.startsWith digits '0' then none
  else
    let n : Int := Decimal.ofDigits digits
    some (if negative then -n else n)

def numeral (t : Text) : Except ParameterFault Int :=
  let t := Text.trimWith isMargin t
  if Decimal.maxDigits < t.length then .error .longNumeral
  else
    let unsigned : Option Text :=
      match t with
      | c :: r => if c = '+' then (if Text.startsWith r '-' then none else some r) else some t
      | [] => none
    match unsigned.bind dropLeadingZeros with
    | none => .error .noNumeral
    | some t =>
      match plainNumeral? (dropUnderscores (dropZeroFraction t)) with
      | some i => .ok i
      | none => .error .noNumeral

/-- A whole number: an integer, a truth value, a double that is whole, or a numeral. -/
def integer : Json → Except ParameterFault Int
  | .int i => .ok i
  | .bool b => .ok (if b then 1 else 0)
  | .float x =>
    if !x.isFinite then .error .notFinite
    else match x.toInt? with
      | none => .error .fractional
      | some i => if i.natAbs < Nat.pow 2 63 then .ok i else .error .longNumeral
  | .str t => if t.any (·.isSurrogate) then .error .noNumeral else numeral t
  | _ => .error .notInteger

def atLeast (least : Nat) (v : Json) : Checked Nat :=
  match integer v with
  | .error fault => Checked.fail fault
  | .ok i => if (least : Int) ≤ i then .ok i.toNat else Checked.fail (.below least)

def optional {α : Type} (read : Json → Checked α) : Json → Checked (Option α)
  | .null => .ok none
  | v => match read v with
    | .ok a => .ok (some a)
    | .error ps => .error ps

/-- A record's parameter under the first of its names that is present. -/
def required {α : Type} (names : List Text) (read : Json → Checked α)
    (fields : List (Text × Json)) : Checked α :=
  match names.findSome? fun n => (Json.lookup n fields).map (n, ·) with
  | some (n, v) => Checked.within n (read v)
  | none => Checked.within (names.headD []) (Checked.fail .missing)

def withDefault {α : Type} (default : α) (name : Text) (read : Json → Checked α)
    (fields : List (Text × Json)) : Checked α :=
  match Json.lookup name fields with
  | some v => Checked.within name (read v)
  | none => .ok default

def listItems {α : Type} (read : Json → Checked α) : Nat → List Json → Checked (List α)
  | _, [] => .ok []
  | i, v :: r => Checked.both List.cons (Checked.within (Text.ofNat i) (read v)) (listItems read (i + 1) r)

def nonEmptyList {α : Type} (read : Json → Checked α) : Json → Checked (List α)
  | .arr [] => Checked.fail .emptyList
  | .arr items => listItems read 0 items
  | _ => Checked.fail .notList

def edit : Json → Checked Edit
  | .obj fields =>
    Checked.both Edit.mk (required ["search"] string fields)
      (required ["replace", "replacement"] string fields)
  | _ => Checked.fail (.notRecord "Edit")

def diffChange : Json → Checked DiffChange
  | .obj fields =>
    Checked.both DiffChange.mk (required ["path"] string fields) (required ["diff"] string fields)
  | _ => Checked.fail (.notRecord "DiffChange")

end Parameter

open Parameter in
def Invocation.read (kind : ToolKind) (fields : List (Text × Json)) : Checked Invocation :=
  let path := required ["path"] string fields
  let content := required ["content"] string fields
  match kind with
  | .showFile => path.map .showFile
  | .writeFile => Checked.both .writeFile path content
  | .editFile => Checked.both .editFile path (required ["edits"] (nonEmptyList edit) fields)
  | .replaceLines =>
    let s := required ["startLine", "start_line"] (atLeast 1) fields
    let e := required ["endLine", "end_line"] (atLeast 1) fields
    Checked.both (fun (p, s, e) c => .replaceLines p s e c)
      (Checked.both Prod.mk path (Checked.both Prod.mk s e)) content
  | .insertCode =>
    Checked.both (fun (p, n) c => .insertCode p n c)
      (Checked.both Prod.mk path (required ["line"] (atLeast 0) fields)) content
  | .listDirectory => (withDefault [] "path" string fields).map .listDirectory
  | .searchFiles =>
    Checked.both .searchFiles (required ["pattern"] string fields)
      (withDefault none "include" (optional string) fields)
  | .deleteFile => path.map .deleteFile
  | .createDirectory => path.map .createDirectory
  | .runCommand => (required ["command"] nonEmptyString fields).map .runCommand
  | .validateProject => .ok .validateProject
  | .runTests => .ok .runTests
  | .applyDiffs => (required ["changes"] (nonEmptyList diffChange) fields).map .applyDiffs
  | .getBlastRadius =>
    Checked.both .getBlastRadius path (withDefault none "depth" (optional (atLeast 0)) fields)
  | .semanticSearch =>
    Checked.both .semanticSearch (required ["query"] string fields)
      (withDefault none "limit" (optional (atLeast 1)) fields)

end CodeAgent
