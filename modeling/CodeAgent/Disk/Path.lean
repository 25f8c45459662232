import CodeAgent.Text.Basic
import CodeAgent.Text.Case

namespace CodeAgent

/-- A path. The root is empty, one slash, or exactly two slashes. -/
structure Path where
  root : Text
  parts : List Text
deriving DecidableEq

namespace Path

def slash : CodePoint := '/'

def keeps (part : Text) : Bool := part ≠ [] && part ≠ ("." : Text)

/-- Two slashes in front stand for themselves; any other number is one. -/
def rootOf (t : Text) : Text :=
  match t.takeWhile (· = slash) with
  | [] => []
  | [_, _] => [slash, slash]
  | _ => [slash]

def ofText (t : Text) : Path := ⟨rootOf t, (Text.splitOn slash t).filter keeps⟩

def isAbsolute (p : Path) : Bool := !p.root.isEmpty

def text (p : Path) : Text :=
  match p.root, p.parts with
  | [], [] => "."
  | root, parts => root ++ Text.joinWith [slash] parts

/-- The second path seen from the first; an absolute one stands alone. -/
def join (p q : Path) : Path := if q.isAbsolute then q else { p with parts := p.parts ++ q.parts }

def child (p : Path) (name : Text) : Path := { p with parts := p.parts ++ [name] }

/-- The path without its last component; a root is its own parent. -/
def parent (p : Path) : Path := { p with parts := p.parts.dropLast }

def name (p : Path) : Text := p.parts.getLastD []

private def dot : CodePoint := '.'

/-- Cuts a name before its last dot, unless the dot is its first or last character. -/
def cutSuffix (name : Text) : Text × Text :=
  match Text.cutLast? dot name with
  | some (a :: before, b :: after) => (a :: before, dot :: b :: after)
  | _ => (name, [])

def suffix (p : Path) : Text := (cutSuffix p.name).2
def stem (p : Path) : Text := (cutSuffix p.name).1

/-- Cuts a file name before its last dot, unless only dots stand before it. -/
def splitExtension (name : Text) : Text × Text :=
  match Text.cutLast? dot name with
  | some (before, after) =>
    if before.all (· = dot) then (name, []) else (before, dot :: after)
  | none => (name, [])

/-- The components below a directory, if the path is inside it or is the directory itself. -/
def below? (base p : Path) : Option (List Text) :=
  if base.root = p.root && base.parts.isPrefixOf p.parts then
    some (p.parts.drop base.parts.length)
  else none

/-- A relative path with slashes; the directory itself is a dot. -/
def relativeText (parts : List Text) : Text := Path.text ⟨[], parts⟩

private def cmpParts : List Text → List Text → Ordering
  | [], [] => .eq
  | [], _ :: _ => .lt
  | _ :: _, [] => .gt
  | a :: s, b :: t => (Text.cmp a b).then (cmpParts s t)

def cmp (p q : Path) : Ordering := (Text.cmp p.root q.root).then (cmpParts p.parts q.parts)

def ble (p q : Path) : Bool := (cmp p q).isLE

end Path
end CodeAgent
