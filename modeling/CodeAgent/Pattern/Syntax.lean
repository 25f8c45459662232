import CodeAgent.Text.Quoted

namespace CodeAgent.Pattern

/-- How a part of a pattern is to be taken. `lines` lets the anchors match at line feeds, `dotAll` lets
the point match one, and `verbose` makes blanks in the pattern itself void. -/
structure Mode where
  ignoreCase : Bool := false
  lines : Bool := false
  dotAll : Bool := false
  ascii : Bool := false
  verbose : Bool := false
  deriving DecidableEq

inductive Category where
  | digit
  | blank
  | word
  deriving DecidableEq

inductive SetItem where
  | point (c : Nat)
  | range (lo hi : Nat)
  | category (kind : Category) (inverted : Bool)
  deriving DecidableEq

inductive Anchor where
  | lineStart
  | lineEnd
  | textStart
  | textEnd
  | wordEdge
  | notWordEdge
  deriving DecidableEq

inductive Greed where
  | greedy
  | lazy
  | possessive
  deriving DecidableEq

/-- The fewest and the most characters of a match, counted up to `unbounded`. -/
structure Width where
  least : Nat
  most : Nat
  deriving DecidableEq

def unbounded : Nat := Nat.pow 2 64

inductive Node where
  | empty
  | anyPoint (mode : Mode)
  | set (mode : Mode) (negated : Bool) (items : List SetItem)
  | anchor (mode : Mode) (a : Anchor)
  /-- What a group matched, once more. -/
  | again (mode : Mode) (group : Nat) (width : Width)
  | capture (group : Nat) (body : Node)
  /-- A part that is not tried in another way once it has matched. -/
  | atomic (body : Node)
  | look (ahead negated : Bool) (body : Node)
  | choice (a b : Node)
  | append (a b : Node)
  /-- Depends on whether a group has matched. -/
  | condition (group : Nat) (yes : Node) (no : Option Node)
  | loop (greed : Greed) (least : Nat) (most : Option Nat) (body : Node)

namespace Node

def ofList : List Node → Node
  | [] => empty
  | [n] => n
  | n :: r => append n (ofList r)

def width : Node → Width
  | empty | anchor .. | look .. => ⟨0, 0⟩
  | anyPoint _ | set .. => ⟨1, 1⟩
  | again _ _ w => w
  | capture _ b | atomic b => b.width
  | choice a b => ⟨min a.width.least b.width.least, max a.width.most b.width.most⟩
  | append a b => ⟨a.width.least + b.width.least, min unbounded (a.width.most + b.width.most)⟩
  | condition _ yes no =>
    match no with
    | some n => ⟨min yes.width.least n.width.least, max yes.width.most n.width.most⟩
    | none => ⟨0, yes.width.most⟩
  | loop _ least most b =>
    match most with
    | some m => ⟨min unbounded (b.width.least * least), min unbounded (b.width.most * m)⟩
    | none => ⟨min unbounded (b.width.least * least), if b.width.most = 0 then 0 else unbounded⟩

end Node

/-- Why a pattern cannot be used. -/
inductive Cause where
  | endInBackslash
  | badEscape (escape : Text)
  | incompleteEscape (escape : Text)
  | octalTooLarge (escape : Text)
  | unknownCharacter (name : Text)
  | missing (what : Text)
  | unterminatedSet
  | badRange (lo hi : Text)
  | repeatOrder
  | nothingToRepeat
  | multipleRepeat
  | repeatTooLarge
  | numeralTooLong (digits : Nat)
  | unexpectedEnd
  | badGroupName (name : Text)
  | unknownGroup (name : Text)
  | openGroup
  | laterInLookBehind
  | unknownExtension (letters : Text)
  | badGroupNumber
  | invalidReference (group : Nat)
  | redefinition (name : Text) (group earlier : Nat)
  | moreThanTwoBranches
  | flagsNotAtStart
  | localeFlag
  | incompatibleFlags
  | unknownFlag
  | globalFlagOn
  | globalFlagOff
  | typeFlagOff
  | flagOnAndOff
  | unbalanced
  | incompatibleGlobalFlags
  | lookBehindWidth
  | lookBehindTooFar
  | repeatInTemplate (greed : Greed)
  deriving DecidableEq

namespace Cause

def message : Cause → Text
  | endInBackslash => "bad escape (end of pattern)"
  | badEscape e => "bad escape " ++ e
  | incompleteEscape e => "incomplete escape " ++ e
  | octalTooLarge e => "octal escape value " ++ e ++ " outside of range 0-0o377"
  | unknownCharacter n => "undefined character name " ++ n.quoted
  | missing w => "missing " ++ w
  | unterminatedSet => "unterminated character set"
  | badRange lo hi => "bad character range " ++ lo ++ "-" ++ hi
  | repeatOrder => "min repeat greater than max repeat"
  | nothingToRepeat => "nothing to repeat"
  | multipleRepeat => "multiple repeat"
  | repeatTooLarge => "the repetition number is too large"
  | numeralTooLong n =>
    "Exceeds the limit (4300 digits) for integer string conversion: value has " ++ Text.ofNat n ++
    " digits; use sys.set_int_max_str_digits() to increase the limit"
  | unexpectedEnd => "unexpected end of pattern"
  | badGroupName n => "bad character in group name " ++ n.quoted
  | unknownGroup n => "unknown group name " ++ n.quoted
  | openGroup => "cannot refer to an open group"
  | laterInLookBehind => "cannot refer to group defined in the same lookbehind subpattern"
  | unknownExtension l => "unknown extension ?" ++ l
  | badGroupNumber => "bad group number"
  | invalidReference g => "invalid group reference " ++ Text.ofNat g
  | redefinition n g e =>
    "redefinition of group name " ++ n.quoted ++ " as group " ++ Text.ofNat g ++ "; was group " ++
    Text.ofNat e
  | moreThanTwoBranches => "conditional backref with more than two branches"
  | flagsNotAtStart => "global flags not at the start of the expression"
  | localeFlag => "bad inline flags: cannot use 'L' flag with a str pattern"
  | incompatibleFlags => "bad inline flags: flags 'a', 'u' and 'L' are incompatible"
  | unknownFlag => "unknown flag"
  | globalFlagOn => "bad inline flags: cannot turn on global flag"
  | globalFlagOff => "bad inline flags: cannot turn off global flag"
  | typeFlagOff => "bad inline flags: cannot turn off flags 'a', 'u' and 'L'"
  | flagOnAndOff => "bad inline flags: flag turned on and off"
  | unbalanced => "unbalanced parenthesis"
  | incompatibleGlobalFlags => "ASCII and UNICODE flags are incompatible"
  | lookBehindWidth => "look-behind requires fixed-width pattern"
  | lookBehindTooFar => "looks too much behind"
  | repeatInTemplate .greedy => "internal: unsupported template operator MAX_REPEAT"
  | repeatInTemplate .lazy => "internal: unsupported template operator MIN_REPEAT"
  | repeatInTemplate .possessive => "internal: unsupported template operator POSSESSIVE_REPEAT"

/-- Limits of the reader itself, which are not faults of the pattern's form. -/
def isLimit : Cause → Bool
  | repeatTooLarge | numeralTooLong _ | incompatibleGlobalFlags => true
  | _ => false

end Cause

/-- A cause and, if it has one, its place. -/
structure Fault where
  cause : Cause
  position : Option Nat := none
  deriving DecidableEq

/-- Line and column are told only of a pattern with several lines. -/
def Fault.message (pattern : Text) (f : Fault) : Text :=
  f.cause.message ++
  match f.position with
  | none => []
  | some p =>
    " at position " ++ Text.ofNat p ++
    if pattern.contains Text.newline then
      let before := (pattern.take p).reverse
      " (line " ++ Text.ofNat (before.count Text.newline + 1) ++ ", column " ++
      Text.ofNat ((before.takeWhile (· ≠ Text.newline)).length + 1) ++ ")"
    else []

/-- The first thing that keeps a well-formed pattern from use: a look-behind needs one width, and a
template has no repeats. -/
def Node.refusal? (template : Bool) : Node → Option Cause
  | .empty | .anyPoint _ | .set .. | .anchor .. | .again .. => none
  | .capture _ b | .atomic b => b.refusal? template
  | .look ahead _ b =>
    if ahead then b.refusal? template
    else if Nat.pow 2 32 - 1 < b.width.least then some .lookBehindTooFar
    else if b.width.least ≠ b.width.most then some .lookBehindWidth
    else b.refusal? template
  | .choice a b | .append a b => (a.refusal? template).or (b.refusal? template)
  | .condition _ yes no =>
    (yes.refusal? template).or
      (match no with
       | some n => n.refusal? template
       | none => none)
  | .loop greed _ _ b => if template then some (.repeatInTemplate greed) else b.refusal? template

end CodeAgent.Pattern
