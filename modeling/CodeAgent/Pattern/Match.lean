import CodeAgent.Pattern.Fold
import CodeAgent.Pattern.Syntax
import CodeAgent.Table
import CodeAgent.Text.Word

namespace CodeAgent.Pattern

def Category.holds (ascii : Bool) (kind : Category) (c : CodePoint) : Bool :=
  match kind with
  | .digit => if ascii then c.isDigit else c.isDecimal
  | .blank => if ascii then (9 ≤ c.val && c.val ≤ 13) || c.val = 32 else c.isBlank
  | .word =>
    c.is '_' || (if ascii then c.isAlphaAscii || c.isDigit else c.isAlphanumeric)

def SetItem.holds (mode : Mode) (item : SetItem) (c : CodePoint) : Bool :=
  if mode.ignoreCase then
    let low := lowerPoint mode.ascii c.val
    match item with
    | .point p => (family mode.ascii (lowerPoint mode.ascii p)).contains low
    | .range lo hi =>
      (family mode.ascii low).any fun l =>
        (capitals mode.ascii l).any fun y => decide (lo ≤ y ∧ y ≤ hi)
    | .category k inverted => k.holds mode.ascii (.ofNat low) != inverted
  else match item with
    | .point p => c.val = p
    | .range lo hi => lo ≤ c.val && c.val ≤ hi
    | .category k inverted => k.holds mode.ascii c != inverted

def Node.test? : Node → Option (CodePoint → Bool)
  | .anyPoint mode => some fun c => mode.dotAll || c ≠ Text.newline
  | .set mode negated items => some fun c => items.any (·.holds mode c) != negated
  | _ => none

abbrev Line := Array CodePoint

/-- The place reached in a line and what each group has matched. -/
structure Progress where
  place : Nat
  groups : Table Nat (Nat × Nat) := []

/-- A part of a pattern, given what to do with each of its outcomes. -/
abbrev Matcher := Progress → (Progress → Option Progress) → Option Progress

def Anchor.holds (mode : Mode) (row : Line) (place : Nat) : Anchor → Bool
  | .lineStart =>
    place = 0 || (mode.lines && row[place - 1]? = some Text.newline)
  | .lineEnd =>
    place = row.size ||
      ((mode.lines || place + 1 = row.size) && row[place]? = some Text.newline)
  | .textStart => place = 0
  | .textEnd => place = row.size
  | .wordEdge => 0 < row.size && before != after
  | .notWordEdge => 0 < row.size && before == after
where
  isWord (c : Option CodePoint) : Bool := (c.map (Category.word.holds mode.ascii)).getD false
  before : Bool := 0 < place && isWord row[place - 1]?
  after : Bool := isWord row[place]?

def sameStretch (mode : Mode) (row : Line) (a b : Nat) : Nat → Bool
  | 0 => true
  | n + 1 =>
    match row[a]?, row[b]? with
    | some x, some y =>
      (if mode.ignoreCase then lowerPoint mode.ascii x.val = lowerPoint mode.ascii y.val else x = y) &&
        sameStretch mode row (a + 1) (b + 1) n
    | _, _ => false

def runLength (test : CodePoint → Bool) (row : Line) (place : Nat) : Nat → Nat
  | 0 => 0
  | n + 1 =>
    match row[place]? with
    | some c => if test c then runLength test row (place + 1) n + 1 else 0
    | none => 0

/-- Tries what follows after `count` characters, then after fewer, down to `least`. -/
def fromLongest (p : Progress) (k : Progress → Option Progress) (least : Nat) : Nat → Option Progress
  | 0 => if least = 0 then k p else none
  | count + 1 =>
    if count + 1 < least then none
    else match k { p with place := p.place + (count + 1) } with
      | some r => some r
      | none => fromLongest p k least count

/-- Tries what follows after `least` characters, then after more. -/
def fromShortest (p : Progress) (k : Progress → Option Progress) (least : Nat) : Nat → Option Progress
  | 0 => k { p with place := p.place + least }
  | more + 1 =>
    match k { p with place := p.place + least } with
    | some r => some r
    | none => fromShortest p k (least + 1) more

def repeatTest (greed : Greed) (least : Nat) (most : Option Nat) (test : CodePoint → Bool) (row : Line) :
    Matcher := fun p k =>
  let room := row.size - p.place
  let count := runLength test row p.place (match most with | some m => min m room | none => room)
  if count < least then none
  else match greed with
    | .greedy => fromLongest p k least count
    | .lazy => fromShortest p k least (count - least)
    | .possessive => k { p with place := p.place + count }

/-- A repeat that prefers more. Beyond the fewest rounds a round that took nothing ends the repeat. -/
def repeatGreedy (body : Matcher) (least : Nat) (most : Option Nat) :
    (room count : Nat) → (last : Option Nat) → Matcher
  | 0, _, _ => fun p k => k p
  | room + 1, count, last => fun p k =>
    if count < least then body p fun q => repeatGreedy body least most room (count + 1) last q k
    else if most.all (count < ·) && last ≠ some p.place then
      match body p fun q => repeatGreedy body least most room (count + 1) (some p.place) q k with
      | some r => some r
      | none => k p
    else k p

def repeatLazy (body : Matcher) (least : Nat) (most : Option Nat) :
    (room count : Nat) → (last : Option Nat) → Matcher
  | 0, _, _ => fun p k => k p
  | room + 1, count, last => fun p k =>
    if count < least then body p fun q => repeatLazy body least most room (count + 1) last q k
    else match k p with
      | some r => some r
      | none =>
        if most.all (count < ·) && last ≠ some p.place then
          body p fun q => repeatLazy body least most room (count + 1) (some p.place) q k
        else none

/-- The outcome of as many rounds as can be made, each taken as it first matches. -/
def repeatPossessive (body : Matcher) (least : Nat) (most : Option Nat) :
    (room count : Nat) → (last : Option Nat) → Progress → Option Progress
  | 0, _, _ => some
  | room + 1, count, last => fun p =>
    if count < least then (body p some).bind (repeatPossessive body least most room (count + 1) last)
    else if most.all (count < ·) && last ≠ some p.place then
      match body p some with
      | some q => repeatPossessive body least most room (count + 1) (some p.place) q
      | none => some p
    else some p

/-- A repeat of any part. Each round beyond the fewest takes a character or is the last. -/
def repeatPart (greed : Greed) (least : Nat) (most : Option Nat) (body : Matcher) (row : Line) : Matcher :=
  fun p k =>
    let room := least + (row.size - p.place) + 2
    match greed with
    | .greedy => repeatGreedy body least most room 0 none p k
    | .lazy => repeatLazy body least most room 0 none p k
    | .possessive => (repeatPossessive body least most room 0 none p).bind k

def Node.matcher (row : Line) : Node → Matcher
  | .empty => fun p k => k p
  | .anyPoint mode => one (.anyPoint mode)
  | .set mode negated items => one (.set mode negated items)
  | .anchor mode a => fun p k => if a.holds mode row p.place then k p else none
  | .again mode group _ => fun p k =>
    match p.groups.get? group with
    | some (a, b) =>
      if sameStretch mode row a p.place (b - a) then k { p with place := p.place + (b - a) } else none
    | none => none
  | .capture group body => fun p k =>
    body.matcher row p fun q => k { q with groups := q.groups.set group (p.place, q.place) }
  | .atomic body => fun p k => (body.matcher row p some).bind k
  | .look ahead negated body => fun p k =>
    let back := if ahead then 0 else body.width.least
    let found := if p.place < back then none else body.matcher row { p with place := p.place - back } some
    match found with
    | some q => if negated then none else k { q with place := p.place }
    | none => if negated then k p else none
  | .choice a b => fun p k =>
    match a.matcher row p k with
    | some r => some r
    | none => b.matcher row p k
  | .append a b => fun p k => a.matcher row p fun q => b.matcher row q k
  | .condition group yes no => fun p k =>
    if (p.groups.get? group).isSome then yes.matcher row p k
    else match no with
      | some n => n.matcher row p k
      | none => k p
  | .loop greed least most body =>
    match body.test? with
    | some test => repeatTest greed least most test row
    | none => repeatPart greed least most (body.matcher row) row
where
  one (n : Node) : Matcher := fun p k =>
    match n.test?, row[p.place]? with
    | some test, some c => if test c then k { p with place := p.place + 1 } else none
    | _, _ => none

def Node.occursIn (n : Node) (text : Text) : Bool :=
  let row : Line := text.toArray
  let found := n.matcher row
  (List.range (row.size + 1)).any fun i => (found ⟨i, []⟩ some).isSome

end CodeAgent.Pattern
