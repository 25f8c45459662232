import CodeAgent.Number.Decimal
import CodeAgent.Pattern.Syntax
import CodeAgent.Table
import CodeAgent.Host
import CodeAgent.Text.Identifier
import CodeAgent.Text.Word

namespace CodeAgent.Pattern

/-- What is left of a pattern and what has been seen of it. A group has a width once it is closed. -/
structure Reading where
  length : Nat
  rest : Text
  flags : List Char
  widths : List (Option Width) := [none]
  names : Table Text Nat := []
  lookBehindFrom : Option Nat := none
  conditions : Table Nat Nat := []

abbrev Reader (α : Type) := StateT Reading (Except Fault) α

namespace Reader

def failAt {α : Type} (cause : Cause) (position : Nat) : Reader α := throw ⟨cause, some position⟩

def refuse {α : Type} (cause : Cause) : Reader α := throw ⟨cause, none⟩

def position : Reader Nat := do
  let s ← get
  return s.length - s.rest.length

def fail {α : Type} (cause : Cause) (back : Nat := 0) : Reader α := do
  failAt cause ((← position) - back)

def tokenLength : Text → Nat
  | [] => 0
  | c :: _ => if c = '\\' then 2 else 1

def peek : Reader Text := do
  let s ← get
  return s.rest.take (tokenLength s.rest)

def checkEnd : Reader Unit := do
  let s ← get
  if s.rest = ([CodePoint.ofChar '\\'] : Text) then failAt .endInBackslash (s.length - 1)

def next : Reader Text := do
  let s ← get
  let n := tokenLength s.rest
  set { s with rest := s.rest.drop n }
  checkEnd
  return s.rest.take n

def tokenIs (token : Text) (c : Char) : Bool := token = [CodePoint.ofChar c]

def accept (c : Char) : Reader Bool := do
  if tokenIs (← peek) c then
    let _ ← next
    return true
  else return false

def single (p : CodePoint → Bool) : Text → Bool
  | [c] => p c
  | _ => false

def atMost (p : CodePoint → Bool) : Nat → Reader Text
  | 0 => return []
  | n + 1 => do
    if single p (← peek) then
      let t ← next
      return t ++ (← atMost p n)
    else return []

def digits : Reader Text := do atMost CodePoint.isDigit (← get).rest.length

/-- The text before a closing mark, which is called `name` in faults. -/
def untilMark (mark : Char) (name : Text) : Reader Text := do
  go (← get).rest.length []
where
  go : Nat → Text → Reader Text
    | 0, found => close found
    | n + 1, found => do
      let t ← next
      if t.isEmpty then close found
      else if tokenIs t mark then
        if found.isEmpty then fail (.missing name) 1 else return found
      else go n (found ++ t)
  close (found : Text) : Reader Text :=
    if found.isEmpty then fail (.missing name)
    else fail (.missing ([CodePoint.ofChar mark] ++ ", unterminated name")) found.length

def isName (t : Text) : Bool :=
  match t.toChars? with
  | some cs => Identifier.isValid cs
  | none => false

def checkName (name : Text) : Reader Unit :=
  if isName name then return else fail (.badGroupName name) (name.length + 1)

def isOctal (c : CodePoint) : Bool := 48 ≤ c.val && c.val < 56

def isHex (c : CodePoint) : Bool := c.hexValue?.isSome

def hexNumber (t : Text) : Nat := t.foldl (fun n c => n * 16 + c.hexValue?.getD 0) 0

def octalNumber (t : Text) : Nat := t.foldl (fun n c => n * 8 + (c.val - 48)) 0

/-- What an escape stands for. -/
inductive Meaning where
  | point (c : Nat)
  | category (kind : Category) (inverted : Bool)
  | anchor (a : Anchor)
  | again (group : Nat)

def isClosed (group : Nat) : Reader Bool := do
  return ((← get).widths[group]?.join).isSome

/-- Within a look-behind only the groups before it may be referred to. -/
def checkLookBehind (group : Nat) : Reader Unit := do
  match (← get).lookBehindFrom with
  | none => return
  | some first =>
    unless ← isClosed group do fail .openGroup
    if first ≤ group then fail .laterInLookBehind

def category? (c : CodePoint) : Option Meaning :=
  if c = 'd' then some (.category .digit false)
  else if c = 'D' then some (.category .digit true)
  else if c = 's' then some (.category .blank false)
  else if c = 'S' then some (.category .blank true)
  else if c = 'w' then some (.category .word false)
  else if c = 'W' then some (.category .word true)
  else none

def anchor? (c : CodePoint) : Option Meaning :=
  if c = 'A' then some (.anchor .textStart)
  else if c = 'b' then some (.anchor .wordEdge)
  else if c = 'B' then some (.anchor .notWordEdge)
  else if c = 'Z' then some (.anchor .textEnd)
  else none

def control? (c : CodePoint) : Option Meaning :=
  if c = 'a' then some (.point 7)
  else if c = 'b' then some (.point 8)
  else if c = 'f' then some (.point 12)
  else if c = 'n' then some (.point 10)
  else if c = 'r' then some (.point 13)
  else if c = 't' then some (.point 9)
  else if c = 'v' then some (.point 11)
  else none

/-- An escape by number in a fixed count of hexadecimal digits. -/
def hexEscape (e : Text) (count : Nat) : Reader Meaning := do
  let ds ← atMost isHex count
  if ds.length < count then fail (.incompleteEscape (e ++ ds)) (2 + ds.length)
  else if 0x10ffff < hexNumber ds then fail (.badEscape (e ++ ds)) (2 + ds.length)
  else return .point (hexNumber ds)

variable [Host]

def namedEscape : Reader Meaning := do
  unless ← accept '\x7b' do fail (.missing "\x7b")
  let name ← untilMark '\x7d' "character name"
  match name.toChars?.bind Host.characterNamed? with
  | some n => return .point n
  | none => fail (.unknownCharacter name) (name.length + 4)

def digitEscape (c : CodePoint) : Reader Meaning := do
  let second ← atMost CodePoint.isDigit 1
  let octal := isOctal c && !second.isEmpty && second.all isOctal
  let third ← if octal then atMost isOctal 1 else pure []
  let ds := c :: second ++ third
  if !third.isEmpty then
    if 0o377 < octalNumber ds then fail (.octalTooLarge ('\\' :: ds)) 4
    else return .point (octalNumber ds)
  else
    let group := Decimal.ofDigits ds
    if group < (← get).widths.length then
      unless ← isClosed group do fail .openGroup (ds.length + 1)
      checkLookBehind group
      return .again group
    else fail (.invalidReference group) ds.length

def escape (inSet : Bool) (token : Text) : Reader Meaning := do
  let c := token.getLastD default
  match ((category? c).or (if inSet then none else anchor? c)).or (control? c) with
  | some m => return m
  | none =>
    if c = 'x' then hexEscape token 2
    else if c = 'u' then hexEscape token 4
    else if c = 'U' then hexEscape token 8
    else if c = 'N' then namedEscape
    else if isOctal c && (inSet || c = '0') then
      let ds := c :: (← atMost isOctal 2)
      if 0o377 < octalNumber ds then fail (.octalTooLarge ('\\' :: ds)) (ds.length + 1)
      else return .point (octalNumber ds)
    else if c.isDigit && !inSet then digitEscape c
    else if c.isDigit || c.isAlphaAscii then fail (.badEscape token) 2
    else return .point c.val

def setPoint (token : Text) : Reader SetItem := do
  if token.length = 2 then
    match ← escape true token with
    | .category k inverted => return .category k inverted
    | .point c => return .point c
    | _ => fail (.badEscape token) 2
  else return .point (token.headD default).val

def setItems (start : Nat) : Nat → List SetItem → Reader (List SetItem)
  | 0, _ => failAt .unterminatedSet start
  | n + 1, items => do
    let this ← next
    if this.isEmpty then failAt .unterminatedSet start
    else if tokenIs this ']' && !items.isEmpty then return items
    else
      let low ← setPoint this
      if ← accept '-' then
        let that ← next
        if that.isEmpty then failAt .unterminatedSet start
        else if tokenIs that ']' then return items ++ [low, .point 45]
        else
          match low, ← setPoint that with
          | .point lo, .point hi =>
            if hi < lo then fail (.badRange this that) (this.length + 1 + that.length)
            else setItems start n (items ++ [.range lo hi])
          | _, _ => fail (.badRange this that) (this.length + 1 + that.length)
      else setItems start n (items ++ [low])

def readSet (mode : Mode) : Reader Node := do
  let start := (← position) - 1
  let negated ← accept '^'
  return .set mode negated (← setItems start (← get).rest.length.succ [])

/-- The bounds of a repeat between braces, or nothing if the brace stands for itself. -/
def bounds? : Reader (Option (Nat × Option Nat)) := do
  let before ← get
  if tokenIs (← peek) '\x7d' then return none
  let here ← position
  let low ← digits
  let high ← if ← accept ',' then digits else pure low
  if !(← accept '\x7d') then
    set before
    return none
  let number (t : Text) : Reader Nat := do
    if Decimal.maxDigits < t.length then refuse (.numeralTooLong t.length)
    if Nat.pow 2 32 - 1 ≤ Decimal.ofDigits t then refuse .repeatTooLarge
    return Decimal.ofDigits t
  let least ← number low
  if high.isEmpty then return some (least, none)
  let most ← number high
  if most < least then failAt .repeatOrder here
  return some (least, some most)

def isFlag (t : Text) : Bool :=
  match t with
  | [c] => ['i', 'L', 'm', 's', 'x', 'a', 't', 'u'].any c.is
  | _ => false

def isTypeFlag (c : Char) : Bool := c = 'a' || c = 'u'

def unknownFlag (t : Text) (what : Text) : Reader Unit :=
  match t with
  | [] => fail (.missing what)
  | [c] =>
    fail (if c.isAlphanumeric && (c.char?.map Identifier.isStart).getD false then .unknownFlag
      else .missing what) 1
  | _ => fail (.missing what) t.length

/-- Flags to turn on, up to a mark, which is returned with them. -/
def flagsOn : Nat → Char → List Char → Reader (List Char × Char)
  | 0, _, _ => fail (.missing "-, : or )")
  | n + 1, flag, on => do
    if flag = 'L' then fail .localeFlag
    let on := flag :: on
    if isTypeFlag flag && on.any (fun c => isTypeFlag c && c ≠ flag) then fail .incompatibleFlags
    let t ← next
    match [')', '-', ':'].find? (tokenIs t) with
    | some mark => return (on, mark)
    | none =>
      unless isFlag t do unknownFlag t "-, : or )"
      flagsOn n (t.headD default).char on

def flagsOff : Nat → Char → List Char → Reader (List Char)
  | 0, _, _ => fail (.missing ":")
  | n + 1, flag, off => do
    if isTypeFlag flag || flag = 'L' then fail .typeFlagOff
    let off := flag :: off
    let t ← next
    if tokenIs t ':' then return off
    unless isFlag t do unknownFlag t ":"
    flagsOff n (t.headD default).char off

/-- The flags of a group that turns some on and others off; nothing if they are for the whole pattern. -/
def flags? (first : Char) : Reader (Option (List Char × List Char)) := do
  let room := (← get).rest.length.succ
  let (on, mark) ← if first = '-' then pure ([], '-') else flagsOn room first []
  if mark = ')' then
    modify fun s => { s with flags := on ++ s.flags }
    return none
  if on.contains 't' then fail .globalFlagOn 1
  let off ←
    if mark = '-' then do
      let t ← next
      unless isFlag t do unknownFlag t "flag"
      flagsOff room (t.headD default).char []
    else pure []
  if off.contains 't' then fail .globalFlagOff 1
  if on.any off.contains then fail .flagOnAndOff 1
  return some (on, off)

end Reader

def Mode.ofFlags (flags : List Char) : Mode where
  ignoreCase := flags.contains 'i'
  lines := flags.contains 'm'
  dotAll := flags.contains 's'
  ascii := flags.contains 'a'
  verbose := flags.contains 'x'

def Mode.turn (m : Mode) (on off : List Char) : Mode where
  ignoreCase := (m.ignoreCase || on.contains 'i') && !off.contains 'i'
  lines := (m.lines || on.contains 'm') && !off.contains 'm'
  dotAll := (m.dotAll || on.contains 's') && !off.contains 's'
  ascii := on.contains 'a' || (m.ascii && !on.contains 'u')
  verbose := (m.verbose || on.contains 'x') && !off.contains 'x'

namespace Reader

/-- How an item behaves before a repeat sign. -/
inductive Role where
  | anchor
  | repeated
  | other
  deriving DecidableEq

/-- What an opening parenthesis begins: nothing to keep, or an item. -/
inductive Opened where
  | void
  | wholeFlags
  | item (node : Node)

/-- The readers of what stands inside a group: alternatives, or one branch. -/
structure Inside where
  choice : Mode → Reader Node
  branch : Mode → Reader Node

def closeGroup (start : Nat) : Reader Unit := do
  unless ← accept ')' do failAt (.missing "), unterminated subpattern") start

def capture (inside : Inside) (mode : Mode) (start : Nat) (name : Option Text) : Reader Node := do
  let group := (← get).widths.length
  modify fun s => { s with widths := s.widths ++ [none] }
  match name with
  | none => pure ()
  | some n =>
    match (← get).names.get? n with
    | some earlier => fail (.redefinition n group earlier) (n.length + 1)
    | none => modify fun s => { s with names := s.names.set n group }
  let body ← inside.choice mode
  closeGroup start
  modify fun s => { s with widths := s.widths.set group (some body.width) }
  return .capture group body

def look (inside : Inside) (mode : Mode) (start : Nat) (ahead negated : Bool) : Reader Node := do
  let outer := (← get).lookBehindFrom
  if !ahead && outer.isNone then
    modify fun s => { s with lookBehindFrom := some s.widths.length }
  let body ← inside.choice mode
  if !ahead && outer.isNone then modify fun s => { s with lookBehindFrom := none }
  closeGroup start
  return .look ahead negated body

def againNamed (mode : Mode) : Reader Node := do
  let name ← untilMark ')' "group name"
  checkName name
  match (← get).names.get? name with
  | none => fail (.unknownGroup name) (name.length + 1)
  | some group =>
    match (← get).widths[group]?.join with
    | none => fail .openGroup (name.length + 1)
    | some width =>
      checkLookBehind group
      return .again mode group width

/-- The group of a condition, by name or number. A number may be of a later group. -/
def conditionGroup : Reader Nat := do
  let name ← untilMark ')' "group name"
  let back := name.length + 1
  if isName name then
    match (← get).names.get? name with
    | none => fail (.unknownGroup name) back
    | some group => return group
  else
    match Decimal.readInt? name with
    | some (.ofNat 0) => fail .badGroupNumber back
    | some (.ofNat group) =>
      if 1073741823 ≤ group then fail (.invalidReference group) back
      let s ← get
      if (s.conditions.get? group).isNone then
        set { s with conditions := s.conditions.set group ((← position) - back) }
      return group
    | _ => fail (.badGroupName name) back

def condition (inside : Inside) (mode : Mode) (start : Nat) : Reader Node := do
  let group ← conditionGroup
  checkLookBehind group
  let yes ← inside.branch mode
  let no ←
    if ← accept '|' then do
      let no ← inside.branch mode
      if tokenIs (← peek) '|' then fail .moreThanTwoBranches
      pure (some no)
    else pure none
  closeGroup start
  return .condition group yes no

def comment (start : Nat) : Nat → Reader Unit
  | 0 => failAt (.missing "), unterminated comment") start
  | n + 1 => do
    let t ← next
    if t.isEmpty then failAt (.missing "), unterminated comment") start
    else if tokenIs t ')' then return
    else comment start n

def namedGroup (inside : Inside) (mode : Mode) (start : Nat) : Reader Opened := do
  let t ← next
  if tokenIs t '<' then
    let name ← untilMark '>' "group name"
    checkName name
    return .item (← capture inside mode start name)
  else if tokenIs t '=' then return .item (← againNamed mode)
  else if t.isEmpty then fail .unexpectedEnd
  else fail (.unknownExtension ('P' :: t)) (t.length + 2)

def opened (inside : Inside) (mode : Mode) : Reader Opened := do
  let start := (← position) - 1
  if !(← accept '?') then return .item (← capture inside mode start none)
  let t ← next
  let is := tokenIs t
  if t.isEmpty then fail .unexpectedEnd
  if is 'P' then namedGroup inside mode start
  else if is ':' then
    let body ← inside.choice mode
    closeGroup start
    return .item body
  else if is '#' then
    comment start (← get).rest.length.succ
    return .void
  else if is '=' || is '!' then return .item (← look inside mode start true (is '!'))
  else if is '<' then
    let u ← next
    if u.isEmpty then fail .unexpectedEnd
    if !(tokenIs u '=' || tokenIs u '!') then fail (.unknownExtension ('<' :: u)) (u.length + 2)
    return .item (← look inside mode start false (tokenIs u '!'))
  else if is '(' then return .item (← condition inside mode start)
  else if is '>' then
    let body ← inside.choice mode
    closeGroup start
    return .item (.atomic body)
  else if isFlag t || is '-' then
    match ← flags? (t.headD default).char with
    | none => return .wholeFlags
    | some (on, off) =>
      let body ← inside.choice (mode.turn on off)
      closeGroup start
      return .item body
  else fail (.unknownExtension t) (t.length + 1)

def repeatLast (place : Nat) (least : Nat) (most : Option Nat) (items : List (Role × Node)) :
    Reader (List (Role × Node)) := do
  match items with
  | [] => failAt .nothingToRepeat place
  | (.anchor, _) :: _ => failAt .nothingToRepeat place
  | (.repeated, _) :: _ => failAt .multipleRepeat place
  | (.other, node) :: before =>
    let t ← peek
    let greed := if tokenIs t '?' then Greed.lazy else if tokenIs t '+' then .possessive else .greedy
    unless greed = .greedy do let _ ← next
    return (.repeated, .loop greed least most node) :: before

/-- Skips to the end of a line, which ends a comment in a verbose pattern. -/
def lineComment : Nat → Reader Unit
  | 0 => return
  | n + 1 => do
    let t ← next
    if t.isEmpty || tokenIs t '\n' then return
    lineComment n

variable [Host]

def escaped (mode : Mode) (token : Text) : Reader (Role × Node) := do
  match ← escape false token with
  | .point c => return (.other, .set mode false [.point c])
  | .category k inverted => return (.other, .set mode false [.category k inverted])
  | .anchor a => return (.anchor, .anchor mode a)
  | .again group =>
    return (.other, .again mode group (((← get).widths[group]?.join).getD ⟨0, 0⟩))

/-- The mode to go on with: at the top the flags of the whole pattern rule. -/
def currentMode (top : Bool) (mode : Mode) : Reader Mode := do
  if top then return .ofFlags (← get).flags else return mode

/-- One branch, its items read so far last first. Flags for the whole pattern may stand only before the
first item of all. -/
def branch (inside : Inside) (top first : Bool) :
    Nat → Mode → List (Role × Node) → Reader Node
  | 0, _, items => return .ofList (items.reverse.map (·.2))
  | n + 1, mode, items => do
    let t ← peek
    let is := tokenIs t
    if t.isEmpty || is '|' || is ')' then return .ofList (items.reverse.map (·.2))
    let place ← position
    let _ ← next
    if mode.verbose && [' ', '\t', '\n', '\r', '\x0b', '\x0c'].any is then
      branch inside top first n mode items
    else if mode.verbose && is '#' then
      lineComment (← get).rest.length.succ
      branch inside top first n mode items
    else if t.length = 2 then branch inside top first n mode ((← escaped mode t) :: items)
    else if is '[' then branch inside top first n mode ((.other, ← readSet mode) :: items)
    else if is '?' then branch inside top first n mode (← repeatLast place 0 (some 1) items)
    else if is '*' then branch inside top first n mode (← repeatLast place 0 none items)
    else if is '+' then branch inside top first n mode (← repeatLast place 1 none items)
    else if is '\x7b' then
      match ← bounds? with
      | some (least, most) => branch inside top first n mode (← repeatLast place least most items)
      | none => branch inside top first n mode ((.other, .set mode false [.point 123]) :: items)
    else if is '.' then branch inside top first n mode ((.other, .anyPoint mode) :: items)
    else if is '^' then branch inside top first n mode ((.anchor, .anchor mode .lineStart) :: items)
    else if is '$' then branch inside top first n mode ((.anchor, .anchor mode .lineEnd) :: items)
    else if is '(' then
      match ← opened inside mode with
      | .void => branch inside top first n mode items
      | .item node => branch inside top first n mode ((.other, node) :: items)
      | .wholeFlags =>
        if !first || !items.isEmpty then failAt .flagsNotAtStart place
        branch inside top first n (← currentMode top mode) items
    else branch inside top first n mode ((.other, .set mode false [.point (t.headD default).val]) :: items)

def branches (inside : Inside) (top : Bool) : Nat → Bool → Mode → Reader Node
  | 0, _, _ => return .empty
  | n + 1, first, mode => do
    let a ← branch inside top (top && first) (← get).rest.length.succ mode []
    if ← accept '|' then
      return .choice a (← branches inside top n false (← currentMode top mode))
    else return a

/-- The readers of the inside of groups nested at most so deep. -/
def nested : Nat → Inside
  | 0 => ⟨fun _ => return .empty, fun _ => return .empty⟩
  | n + 1 =>
    { choice := fun mode => do branches (nested n) false (← get).rest.length.succ false mode
      branch := fun mode => do branch (nested n) false false (← get).rest.length.succ mode [] }

def whole : Reader Node := do
  checkEnd
  let size := (← get).length
  let node ← branches (nested size) true size.succ true (.ofFlags (← get).flags)
  let s ← get
  if s.flags.contains 'a' && s.flags.contains 'u' then refuse .incompatibleGlobalFlags
  unless s.rest.isEmpty do fail .unbalanced
  match s.conditions.find? (s.widths.length ≤ ·.1) with
  | some (group, place) => failAt (.invalidReference group) place
  | none => pure ()
  match node.refusal? (s.flags.contains 't') with
  | some cause => refuse cause
  | none => return node

end Reader

variable [Host]

/-- Reads a pattern; letters match without regard to case if `ignoreCase` says so. -/
def Node.read (ignoreCase : Bool) (pattern : Text) : Except Fault Node :=
  (Reader.whole.run ⟨pattern.length, pattern, if ignoreCase then ['i'] else [], [none], [], none, []⟩).map
    (·.1)

end CodeAgent.Pattern
