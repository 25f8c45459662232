import CodeAgent.Agent.Invocation

namespace CodeAgent.Blocks

def openMark : Text := "<<<< SEARCH"
def divider : Text := "===="
def closeMark : Text := ">>>> REPLACE"

def afterNewline? : Text → Option Text
  | [] => none
  | c :: r =>
    if c = '\n' then some r
    else match r with
      | d :: r' => if c = '\r' && d = '\n' then some r' else none
      | [] => none

def afterMark? (mark t : Text) : Option Text :=
  if mark.isPrefixOf t then some (t.drop mark.length) else none

/-- The shortest text that a line end and then `next` can follow. -/
def upToLine? {β : Type} (next : Text → Option β) (t : Text) : Option (Text × β) :=
  match (afterNewline? t).bind next with
  | some b => some ([], b)
  | none =>
    match t with
    | [] => none
    | c :: r => (upToLine? next r).map fun (s, b) => (c :: s, b)

def optionalPart? {β : Type} (next : Text → Option β) (t : Text) : Option (Text × β) :=
  match upToLine? next t with
  | some found => some found
  | none => (next t).map ([], ·)

def block? (t : Text) : Option (Edit × Text) := do
  let t ← (afterMark? openMark t).bind afterNewline?
  let (search, replacement, rest) ←
    optionalPart? (fun t => ((afterMark? divider t).bind afterNewline?).bind (optionalPart? (afterMark? closeMark))) t
  some (⟨search, replacement⟩, rest)

def parse (t : Text) : List Edit :=
  match t with
  | [] => []
  | c :: r =>
    match block? (c :: r) with
    | some (edit, rest) => if rest.length ≤ r.length then edit :: parse rest else []
    | none => parse r
termination_by t.length
decreasing_by all_goals simp only [List.length_cons]; omega

def attempts (t : Text) : Nat := max (Text.count openMark t) (Text.count closeMark t)

/-- A section as it is written: nothing when it is empty, else the text and a line feed. -/
def renderSection (t : Text) : Text := if t.isEmpty then [] else t ++ [Text.newline]

def renderBlock (b : Edit) : Text :=
  openMark ++ [Text.newline] ++ renderSection b.search ++ divider ++ [Text.newline] ++
    renderSection b.replacement ++ closeMark

def render (bs : List Edit) : Text := Text.unlines (bs.map renderBlock)

end CodeAgent.Blocks
