import CodeAgent.Agent.Invocation
import CodeAgent.Text.Word

namespace CodeAgent.Edit

/-- Why an edit of a list cannot be made. -/
inductive Fault where
  | emptySearch
  /-- The search text is there but for its blanks. -/
  | blanksDiffer (search : Text)
  | notFound (search : Text)
deriving DecidableEq

def occursIn (e : Edit) (t : Text) : Bool := Text.hasInfix e.search t

def apply (e : Edit) (t : Text) : Text := Text.replaceFirst e.search e.replacement t

/-- Whether a search text occurs once runs of blanks count as one. -/
def occursCollapsed (e : Edit) (t : Text) : Bool :=
  let search := Text.collapseBlanks e.search
  !search.isEmpty && Text.hasInfix search (Text.collapseBlanks t)

/-- All edits in order, or why the first that cannot be made cannot. -/
def applyAll : List Edit → Text → Except Fault Text
  | [], t => .ok t
  | e :: rest, t =>
    if e.search.isEmpty then .error .emptySearch
    else if e.occursIn t then applyAll rest (e.apply t)
    else if e.occursCollapsed t then .error (.blanksDiffer e.search)
    else .error (.notFound e.search)

/-- All blocks in order, an empty search text standing at the start; or the number, from one, of the
first whose search text does not occur. -/
def applyBlocks (number : Nat) : List Edit → Text → Except Nat Text
  | [], t => .ok t
  | e :: rest, t =>
    if e.occursIn t then applyBlocks (number + 1) rest (e.apply t) else .error number

end CodeAgent.Edit
