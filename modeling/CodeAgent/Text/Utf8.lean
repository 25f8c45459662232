import CodeAgent.Text.Basic

namespace CodeAgent

abbrev Bytes := List UInt8

namespace Utf8

/-- Why a stretch of bytes is not UTF-8. -/
inductive Fault where
  | startByte
  | continuation
  | truncated
deriving DecidableEq

def Fault.reason : Fault → Text
  | .startByte => "invalid start byte"
  | .continuation => "invalid continuation byte"
  | .truncated => "unexpected end of data"

/-- A piece of the input: a code point, or a stretch that no code point explains. -/
inductive Segment where
  | point (c : CodePoint)
  | bad (fault : Fault) (bytes : Bytes)
deriving DecidableEq

def isTail (b : UInt8) : Bool := 0x80 ≤ b && b < 0xc0

def tail (b : UInt8) : Nat := b.toNat % 64

/-- The bounds on the second byte of a sequence: no overlong form, no surrogate, no number past the
last code point. -/
def secondOk (b b1 : UInt8) : Bool :=
  isTail b1 &&
    (if b = 0xe0 then 0xa0 ≤ b1 else if b = 0xed then b1 < 0xa0
     else if b = 0xf0 then 0x90 ≤ b1 else if b = 0xf4 then b1 < 0x90 else true)

/-- The segment that starts with byte `b`, and how many of the following bytes belong to it. -/
def segmentAt (b : UInt8) (r : Bytes) : Segment × Nat :=
  if b < 0x80 then (.point (.ofNat b.toNat), 0)
  else if b < 0xc2 || 0xf5 ≤ b then (.bad .startByte [b], 0)
  else if b < 0xe0 then
    match r with
    | [] => (.bad .truncated [b], 0)
    | b1 :: _ =>
      if isTail b1 then (.point (.ofNat (b.toNat % 32 * 64 + tail b1)), 1)
      else (.bad .continuation [b], 0)
  else if b < 0xf0 then
    match r with
    | [] => (.bad .truncated [b], 0)
    | b1 :: r1 =>
      if !secondOk b b1 then (.bad .continuation [b], 0)
      else match r1 with
        | [] => (.bad .truncated [b, b1], 1)
        | b2 :: _ =>
          if isTail b2 then (.point (.ofNat (b.toNat % 16 * 4096 + tail b1 * 64 + tail b2)), 2)
          else (.bad .continuation [b, b1], 1)
  else
    match r with
    | [] => (.bad .truncated [b], 0)
    | b1 :: r1 =>
      if !secondOk b b1 then (.bad .continuation [b], 0)
      else match r1 with
        | [] => (.bad .truncated [b, b1], 1)
        | b2 :: r2 =>
          if !isTail b2 then (.bad .continuation [b, b1], 1)
          else match r2 with
            | [] => (.bad .truncated [b, b1, b2], 2)
            | b3 :: _ =>
              if isTail b3 then
                (.point (.ofNat (b.toNat % 8 * 262144 + tail b1 * 4096 + tail b2 * 64 + tail b3)), 3)
              else (.bad .continuation [b, b1, b2], 2)

/-- The segments of bytes after a number of bytes that a segment before them took. -/
def segmentsAfter : (taken : Nat) → Bytes → List Segment
  | _, [] => []
  | n + 1, _ :: r => segmentsAfter n r
  | 0, b :: r => (segmentAt b r).1 :: segmentsAfter (segmentAt b r).2 r

def segments (bytes : Bytes) : List Segment := segmentsAfter 0 bytes

/-- Reading with one replacement character for each bad stretch. -/
def decodeLossy (bytes : Bytes) : Text :=
  (segments bytes).map fun
    | .point c => c
    | .bad _ _ => default

def encodePoint (c : CodePoint) : Bytes :=
  let n := c.val
  if n < 0x80 then [.ofNat n]
  else if n < 0x800 then [.ofNat (0xc0 + n / 64), .ofNat (0x80 + n % 64)]
  else if n < 0x10000 then
    [.ofNat (0xe0 + n / 4096), .ofNat (0x80 + n / 64 % 64), .ofNat (0x80 + n % 64)]
  else
    [.ofNat (0xf0 + n / 262144), .ofNat (0x80 + n / 4096 % 64), .ofNat (0x80 + n / 64 % 64),
     .ofNat (0x80 + n % 64)]

/-- Where strict reading stopped. -/
structure DecodeFault where
  position : Nat
  fault : Fault
  bytes : Bytes
deriving DecidableEq

def DecodeFault.message (f : DecodeFault) : Text :=
  "'utf-8' codec can't decode " ++
    (match f.bytes with
     | [b] => "byte 0x" ++ Text.hex 2 b.toNat ++ " in position " ++ Text.ofNat f.position
     | bs => "bytes in position " ++ Text.ofNat f.position ++ "-" ++
        Text.ofNat (f.position + bs.length - 1)) ++
    ": " ++ f.fault.reason

def collect (position : Nat) (acc : Text) : List Segment → Except DecodeFault Text
  | [] => .ok acc.reverse
  | .point c :: r => collect (position + (encodePoint c).length) (c :: acc) r
  | .bad fault bytes :: _ => .error ⟨position, fault, bytes⟩

def decode (bytes : Bytes) : Except DecodeFault Text := collect 0 [] (segments bytes)

/-- A run of surrogates that writing stopped at. -/
structure EncodeFault where
  position : Nat
  run : Text
deriving DecidableEq

def EncodeFault.message (f : EncodeFault) : Text :=
  "'utf-8' codec can't encode " ++
    (match f.run with
     | [c] => "character '\\u" ++ Text.hex 4 c.val ++ "' in position " ++ Text.ofNat f.position
     | cs => "characters in position " ++ Text.ofNat f.position ++ "-" ++
        Text.ofNat (f.position + cs.length - 1)) ++
    ": surrogates not allowed"

def encode (t : Text) : Except EncodeFault Bytes :=
  match t.span (!·.isSurrogate) with
  | (_, []) => .ok (t.flatMap encodePoint)
  | (before, rest) => .error ⟨before.length, rest.takeWhile (·.isSurrogate)⟩

/-- The bytes of a text, surrogates included; what a file name uses. -/
def encodeAny (t : Text) : Bytes := t.flatMap encodePoint

end Utf8
end CodeAgent
