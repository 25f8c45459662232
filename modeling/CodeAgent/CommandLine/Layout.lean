import CodeAgent.CommandLine.Grammar

namespace CodeAgent.CommandLine

def lineWidth : Nat := 78

def aboutColumn : Nat := 24

def blanks (n : Nat) : Text := List.replicate n (CodePoint.ofChar ' ')

/-- Puts words on lines, as many on each as fit. `used` columns of the first line are taken; later lines
start after a margin. A word that is too long has a line of its own. -/
def fill (width margin : Nat) (used : Nat) (line : List Text) : List Text → List Text
  | [] => if line.isEmpty then [] else [Text.joinWith " " line]
  | w :: rest =>
    if !line.isEmpty && width < used + w.length then
      Text.joinWith " " line :: fill width margin (margin + w.length + 1) [w] rest
    else fill width margin (used + w.length + 1) (line ++ [w]) rest

/-- A row of the help: what is told, indented, and from one column on what it does. -/
def row (indent : Nat) (title about : Text) : Text :=
  let lines := fill (lineWidth - aboutColumn) 0 0 [] (Text.splitOn ' ' about)
  let aside := Text.joinWith ("\n" ++ blanks aboutColumn) lines
  let head := blanks indent ++ title
  if head.length + 2 ≤ aboutColumn then head ++ blanks (aboutColumn - head.length) ++ aside ++ "\n"
  else head ++ "\n" ++ blanks aboutColumn ++ aside ++ "\n"

def choiceList (choices : List (Text × Text)) : Text :=
  "\x7b" ++ Text.joinWith "," (choices.map (·.1)) ++ "\x7d"

namespace Operand

variable {σ : Type}

def usageWords : Operand σ → List Text
  | .none => []
  | .one name _ _ => [name]
  | .command _ _ choices _ => [choiceList choices ++ " ..."]

def rows : Operand σ → List Text
  | .none => []
  | .one name about _ => [row 2 name about]
  | .command _ about choices _ =>
    row 2 (choiceList choices) about :: choices.map fun (name, about) => row 4 name about

end Operand

namespace Grammar

variable {σ : Type} (g : Grammar σ)

def switchWords : List Text :=
  g.switches.map fun s => "[" ++ s.withValue (s.names.headD []) ++ "]"

/-- The usage. Where one line is too short, switches and operands have lines of their own. -/
def usage : Text :=
  let start : Text := "usage: "
  let words := g.program :: g.switchWords ++ g.operand.usageWords
  let whole := start ++ Text.joinWith " " words
  if whole.length ≤ lineWidth then whole ++ "\n"
  else
    let margin := start.length + g.program.length + 1
    let lines := fill lineWidth margin start.length [] (g.program :: g.switchWords) ++
      fill lineWidth margin margin [] g.operand.usageWords
    start ++ Text.joinWith ("\n" ++ blanks margin) lines ++ "\n"

def switchRows : List Text :=
  g.switches.map fun s => row 2 (Text.joinWith ", " (s.names.map s.withValue)) s.about

def part (heading : Text) (rows : List Text) : List Text :=
  if rows.isEmpty then [] else [heading ++ ":\n" ++ rows.flatten]

def help : Text :=
  Text.joinWith "\n" (g.usage :: (if g.about.isEmpty then [] else [g.about ++ "\n"]) ++
    part "positional arguments" g.operand.rows ++ part "options" g.switchRows)

end Grammar
end CodeAgent.CommandLine
