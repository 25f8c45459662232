import CodeAgent.Source.Token
import CodeAgent.Text.Identifier

namespace CodeAgent.Source

/-- The form of an expression as far as binding goes. -/
inductive Shape where
  | name (id : Text)
  /-- An attribute or an item of something. -/
  | place
  | starred (inner : Shape)
  | tuple (items : List Shape)
  | list (items : List Shape)
  | lambda
  | value

/-- An expression with the line it starts on. Parentheses around an expression do not count. -/
structure Expr where
  shape : Shape
  line : Nat

namespace Shape

mutual
/-- What a value can be bound to; a starred part only where `star` allows it. -/
def isTarget (star : Bool) : Shape → Bool
  | .name _ | .place => true
  | .starred inner => star && inner.isTarget false
  | .tuple items | .list items => allTargets items
  | .lambda | .value => false

def allTargets : List Shape → Bool
  | [] => true
  | s :: r => s.isTarget true && allTargets r
end

/-- A name, an attribute or an item: what can be annotated or updated. -/
def isSingle : Shape → Bool
  | .name _ | .place => true
  | _ => false

mutual
def isDeletable : Shape → Bool
  | .name _ | .place => true
  | .tuple items | .list items => allDeletable items
  | .starred _ | .lambda | .value => false

def allDeletable : List Shape → Bool
  | [] => true
  | s :: r => s.isDeletable && allDeletable r
end

end Shape

/-- First and last line of a definition. `first` is the line of its own keyword; the lines of its
decorators come extra. -/
structure Lines where
  first : Nat
  decorators : List Nat := []
  last : Nat
deriving DecidableEq

/-- Decorators belong to the definition that they stand before. -/
def Lines.start (l : Lines) : Nat := l.decorators.foldl min l.first

/-- A statement. Every statement below another one is a part of it. -/
inductive Stmt where
  | importModules (modules : List Text)
  | importFrom (module : Text) (level : Nat) (names : List Text)
  | bindLambda (names : List Text) (lines : Lines)
  | function (name : Text) (lines : Lines) (body : List Stmt)
  | classDef (name : Text) (lines : Lines) (body : List Stmt)
  | block (parts : List Stmt)
  | plain

end CodeAgent.Source
