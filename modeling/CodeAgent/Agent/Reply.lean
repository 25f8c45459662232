import CodeAgent.Agent.Parameters
import CodeAgent.Json.Reader
import CodeAgent.Text.Case

namespace CodeAgent.Reply

def openBrace : CodePoint := '\x7b'
def closeBrace : CodePoint := '\x7d'
def doubleQuote : CodePoint := '"'

/-- Faults of reading that are not about the form of the text end the search. -/
inductive Fault where
  | longInteger (digits : Nat)
  | tooDeep
deriving DecidableEq

variable [Host]

/-- A document, nothing if the text is malformed, or a fault that ends the search. -/
def document? (t : Text) : Except Fault (Option Json) :=
  match Json.read t with
  | .ok v => .ok (some v)
  | .error (.malformed ..) => .ok none
  | .error (.longInteger n) => .error (.longInteger n)
  | .error .tooDeep => .error .tooDeep

def toolObject? : Json → Option (List (Text × Json))
  | .obj fields => if (Json.lookup "tool" fields).isSome then some fields else none
  | _ => none

def skipBlanks (t : Text) : Text := t.dropWhile CodePoint.isBlank

def expect? (word t : Text) : Option Text :=
  if word.isPrefixOf t then some (t.drop word.length) else none

/-- What follows an opening brace, the key `tool`, a colon and a string that is not empty. -/
def afterOpening? (t : Text) : Option Text := do
  let r ← expect? "\x7b" t
  let r ← expect? "\"tool\"" (skipBlanks r)
  let r ← expect? ":" (skipBlanks r)
  let r ← expect? "\"" (skipBlanks r)
  match r.span (· ≠ doubleQuote) with
  | ([], _) => none
  | (_, []) => none
  | (_, _ :: rest) => some rest

/-- The places where a call may start, each as the text from there on and the text after its
opening. They do not overlap. -/
def openings (t : Text) : List (Text × Text) :=
  match t with
  | [] => []
  | c :: r =>
    match afterOpening? (c :: r) with
    | some rest =>
      if rest.length ≤ r.length then (c :: r, rest) :: openings rest else openings r
    | none => openings r
termination_by t.length
decreasing_by all_goals simp only [List.length_cons]; omega

def closings (length : Nat) : Text → List Nat
  | [] => []
  | c :: r => if c = closeBrace then (length + 1) :: closings (length + 1) r else closings (length + 1) r

abbrev Found := Option (List (Text × Json) × Nat)

/-- Tries the prefix of one length; only a longer one can take the place of the best so far. -/
def tryPrefix (t : Text) (best : Found) (length : Nat) : Except Fault Found :=
  if length ≤ (best.map (·.2)).getD 0 then .ok best
  else do
    match ← document? (t.take length) with
    | none => .ok best
    | some v =>
      match toolObject? v with
      | some fields => .ok (some (fields, length))
      | none => .ok best

def scanFrom (best : Found) (opening : Text × Text) : Except Fault Found :=
  (closings (opening.1.length - opening.2.length) opening.2).foldlM (tryPrefix opening.1) best

/-- The longest span that starts like a call and is a JSON object with a `tool` field. -/
def scan (t : Text) : Except Fault (Option (List (Text × Json))) := do
  let best ← (openings t).foldlM scanFrom none
  .ok (best.map (·.1))

/-- The text from the first opening brace to the last closing one. -/
def outerSpan? (t : Text) : Option Text :=
  let from_ := t.dropWhile (· ≠ openBrace)
  match Text.dropEndWhile (· ≠ closeBrace) from_ with
  | [] => none
  | span => some span

def callObject? (reply : Text) : Except Fault (Option (List (Text × Json))) :=
  let t := reply.trim
  match outerSpan? t with
  | none => .ok none
  | some span => do
    match ← document? span with
    | some v => .ok (toolObject? v)
    | none => scan t

def validate (fields : List (Text × Json)) : ToolCall :=
  let tool := ((Json.lookup "tool" fields).getD (.str [])).plain
  match ToolKind.ofName? tool with
  | none => .invalid ⟨tool, .unknownTool, fields⟩
  | some kind =>
    match Invocation.read kind fields with
    | .ok invocation => .valid invocation
    | .error problems => .invalid ⟨tool, .parameters problems, fields⟩

def toolCall? (reply : Text) : Except Fault (Option ToolCall) := do
  let found ← callObject? reply
  .ok (found.map validate)

end CodeAgent.Reply
