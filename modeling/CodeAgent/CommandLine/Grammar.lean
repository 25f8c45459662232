import CodeAgent.Table
import CodeAgent.Text.Basic
import CodeAgent.Text.Case

namespace CodeAgent.CommandLine

/-- What a switch does. Those for the help and the version end the reading at once. -/
inductive Effect (σ : Type) where
  | help
  | version
  | set (apply : σ → σ)
  | text (apply : Text → σ → σ)
  | number (apply : Int → σ → σ)

structure Switch (σ : Type) where
  /-- Names with two dashes are long and may be cut short; those with one dash have one letter. -/
  names : List Text
  effect : Effect σ
  about : Text

/-- What a command takes besides its switches. -/
inductive Operand (σ : Type) where
  | none
  | one (name about : Text) (apply : Text → σ → σ)
  /-- The name of a command with everything that follows it. -/
  | command (name about : Text) (choices : List (Text × Text)) (apply : List Text → σ → σ)

structure Grammar (σ : Type) where
  program : Text
  about : Text := []
  switches : List (Switch σ)
  operand : Operand σ := .none

namespace Switch

variable {σ : Type}

def takesValue (s : Switch σ) : Bool :=
  match s.effect with
  | .text _ | .number _ => true
  | _ => false

def title (s : Switch σ) : Text := Text.joinWith "/" s.names

/-- The word that stands for the value of a switch: its first name in capitals. -/
def placeholder (s : Switch σ) : Text :=
  Text.upperAscii (((s.names.headD []).dropWhile (·.is '-')).map fun c =>
    if c.is '-' then CodePoint.ofChar '_' else c)

def withValue (s : Switch σ) (name : Text) : Text :=
  if s.takesValue then name ++ " " ++ s.placeholder else name

def help : Switch σ := ⟨["-h", "--help"], .help, "show this help message and exit"⟩

end Switch

def Grammar.names {σ : Type} (g : Grammar σ) : Table Text (Switch σ) :=
  g.switches.flatMap fun s => s.names.map (·, s)

end CodeAgent.CommandLine
