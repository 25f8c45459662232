import CodeAgent.CommandLine.Grammar
import CodeAgent.Number.Decimal
import CodeAgent.Text.Quoted

namespace CodeAgent.CommandLine

/-- Why reading ends early. -/
inductive Stop where
  | help
  | version
  | refused (message : Text)
deriving DecidableEq

inductive Role (σ : Type) where
  | operand
  /-- Two dashes; everything after them is an operand. -/
  | separator
  /-- A switch by one of its names, perhaps with a text attached. -/
  | switch (s : Switch σ) (name : Text) (attached : Option Text)
  | unknown

structure Word (σ : Type) where
  text : Text
  role : Role σ

/-- A dash and a decimal numeral, perhaps with a point. One line end may follow. -/
def isNegativeNumber (t : Text) : Bool :=
  let body := if Text.endsWith [Text.newline] t then t.dropLast else t
  match body with
  | [] => false
  | c :: r =>
    let digits (t : Text) : Bool := t.all (·.isDecimal)
    c.is '-' && match Text.cutFirst? "." r with
      | none => !r.isEmpty && digits r
      | some (whole, places) => digits whole && !places.isEmpty && digits places

def isLong (name : Text) : Bool := ("--" : Text).isPrefixOf name

def Switch.refuse {σ : Type} (s : Switch σ) (reason : Text) : Stop :=
  .refused ("argument " ++ s.title ++ ": " ++ reason)

abbrev Reading (σ : Type) := Switch σ × Text × Option Text

/-- The switches that one argument stands for: any number of flags, and a last one that may have its value
attached. -/
structure Uses (σ : Type) where
  flags : List (Switch σ) := []
  last : Switch σ
  value : Option Text := none

namespace Grammar

variable {σ : Type} (g : Grammar σ)

def switch? (name : Text) : Option (Switch σ) := g.names.get? name

/-- The text before the first equals sign, and what is attached by it. -/
def cutValue (t : Text) : Text × Option Text :=
  match Text.cutFirst? "=" t with
  | some (name, value) => (name, some value)
  | none => (t, none)

/-- The switches that a text may mean which is no name: those whose long name it starts, or the one whose
letter it starts with. -/
def candidates (t : Text) : List (Reading σ) :=
  if isLong t then
    let (start, attached) := cutValue t
    g.names.filterMap fun (name, s) =>
      if start.isPrefixOf name then some (s, name, attached) else none
  else
    g.names.filterMap fun (name, s) =>
      if name = t.take 2 then some (s, name, some (t.drop 2)) else none

/-- The switch that a text names with a value attached by an equals sign. -/
def assigned? (t : Text) : Option (Reading σ) :=
  match cutValue t with
  | (name, some value) => (g.switch? name).map fun s => (s, name, some value)
  | _ => none

def role (t : Text) : Except Stop (Role σ) :=
  if !t.startsWith '-' || t.length = 1 then .ok .operand
  else
    match g.switch? t, g.assigned? t with
    | some s, _ => .ok (.switch s t none)
    | none, some (s, name, attached) => .ok (.switch s name attached)
    | none, none =>
      match g.candidates t with
      | [(s, name, attached)] => .ok (.switch s name attached)
      | [] => .ok (if isNegativeNumber t || t.any (·.is ' ') then .operand else .unknown)
      | several => .error (.refused
          ("ambiguous option: " ++ t ++ " could match " ++ Text.joinWith ", " (several.map (·.2.1))))

def words : List Text → Except Stop (List (Word σ))
  | [] => .ok []
  | t :: rest =>
    if t = ("--" : Text) then .ok (⟨t, .separator⟩ :: rest.map (⟨·, .operand⟩))
    else do
      let role ← g.role t
      return ⟨t, role⟩ :: (← words rest)

/-- Reads letters that follow a switch of one letter: each is a switch of its own until one takes the
letters after it as its value. -/
def cluster (s : Switch σ) : Text → Except Stop (Uses σ)
  | [] => .ok { last := s }
  | c :: rest =>
    if s.takesValue then .ok { last := s, value := some (c :: rest) }
    else
      match g.switch? ['-', c] with
      | none => .error (s.refuse ("ignored explicit argument " ++ Text.quoted (c :: rest)))
      | some next => (cluster next rest).map fun uses => { uses with flags := s :: uses.flags }

def uses (s : Switch σ) (name : Text) : Option Text → Except Stop (Uses σ)
  | none => .ok { last := s }
  | some value =>
    if s.takesValue then .ok { last := s, value := some value }
    else if isLong name || value.isEmpty then
      .error (s.refuse ("ignored explicit argument " ++ Text.quoted value))
    else g.cluster s value

end Grammar

def Switch.apply {σ : Type} (s : Switch σ) (value : Option Text) (values : σ) : Except Stop σ :=
  match s.effect, value with
  | .help, _ => .error .help
  | .version, _ => .error .version
  | .set f, _ => .ok (f values)
  | .text f, some v => .ok (f v values)
  | .number f, some v =>
    match Decimal.readInt? v with
    | some n => .ok (f n values)
    | none => .error (s.refuse ("invalid int value: " ++ Text.quoted v))
  | .text _, none | .number _, none => .error (s.refuse "expected one argument")

def Uses.apply {σ : Type} (u : Uses σ) (value : Option Text) (values : σ) : Except Stop σ := do
  u.last.apply value (← u.flags.foldlM (fun v s => s.apply none v) values)

/-- How far reading has come. -/
structure Progress (σ : Type) where
  values : σ
  /-- What is still to be taken besides switches. -/
  pending : Operand σ
  /-- Arguments that nothing takes. -/
  extras : List Text := []

namespace Progress

variable {σ : Type}

def leave (p : Progress σ) (t : Text) : Progress σ := { p with extras := p.extras ++ [t] }

def give (p : Progress σ) (values : σ) : Progress σ := { p with values, pending := .none }

end Progress

namespace Grammar

variable {σ : Type} (g : Grammar σ)

/-- Takes the words in order. A separator beside the operand goes with it; a command takes the separator
before it for its name. -/
def take (p : Progress σ) : List (Word σ) → Except Stop (Progress σ)
  | [] => .ok p
  | ⟨t, .unknown⟩ :: rest => take (p.leave t) rest
  | ⟨_, .switch s name attached⟩ :: rest =>
    match g.uses s name attached with
    | .error stop => .error stop
    | .ok u =>
      match u.last.takesValue && u.value.isNone, rest with
      | true, ⟨v, .operand⟩ :: rest =>
        match u.apply (some v) p.values with
        | .error stop => .error stop
        | .ok values => take { p with values } rest
      | true, _ => .error (u.last.refuse "expected one argument")
      | false, rest =>
        match u.apply u.value p.values with
        | .error stop => .error stop
        | .ok values => take { p with values } rest
  | ⟨t, .separator⟩ :: rest =>
    match p.pending, rest with
    | .one _ _ apply, ⟨v, .operand⟩ :: rest => take (p.give (apply v p.values)) rest
    | .command _ _ _ apply, ⟨v, .operand⟩ :: rest =>
      .ok (p.give (apply (t :: v :: rest.map (·.text)) p.values))
    | _, rest => take (p.leave t) rest
  | ⟨t, .operand⟩ :: rest =>
    match p.pending, rest with
    | .one _ _ apply, ⟨_, .separator⟩ :: rest | .one _ _ apply, rest =>
      take (p.give (apply t p.values)) rest
    | .command _ _ _ apply, rest => .ok (p.give (apply (t :: rest.map (·.text)) p.values))
    | .none, rest => take (p.leave t) rest

/-- Reads arguments. The values start from what holds without any; arguments that nothing takes are given
beside them. -/
def read (start : σ) (arguments : List Text) : Except Stop (σ × List Text) := do
  let p ← g.take { values := start, pending := g.operand } (← g.words arguments)
  match p.pending with
  | .one name _ _ => .error (.refused ("the following arguments are required: " ++ name))
  | _ => return (p.values, p.extras)

end Grammar
end CodeAgent.CommandLine
