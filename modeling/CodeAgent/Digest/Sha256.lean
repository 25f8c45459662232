import CodeAgent.Text.Utf8

namespace CodeAgent.Sha256

private def roundConstants : Array UInt32 := #[
  0x428a2f98, 0x71374491, 0xb5c0fbcf, 0xe9b5dba5, 0x3956c25b, 0x59f111f1, 0x923f82a4, 0xab1c5ed5,
  0xd807aa98, 0x12835b01, 0x243185be, 0x550c7dc3, 0x72be5d74, 0x80deb1fe, 0x9bdc06a7, 0xc19bf174,
  0xe49b69c1, 0xefbe4786, 0x0fc19dc6, 0x240ca1cc, 0x2de92c6f, 0x4a7484aa, 0x5cb0a9dc, 0x76f988da,
  0x983e5152, 0xa831c66d, 0xb00327c8, 0xbf597fc7, 0xc6e00bf3, 0xd5a79147, 0x06ca6351, 0x14292967,
  0x27b70a85, 0x2e1b2138, 0x4d2c6dfc, 0x53380d13, 0x650a7354, 0x766a0abb, 0x81c2c92e, 0x92722c85,
  0xa2bfe8a1, 0xa81a664b, 0xc24b8b70, 0xc76c51a3, 0xd192e819, 0xd6990624, 0xf40e3585, 0x106aa070,
  0x19a4c116, 0x1e376c08, 0x2748774c, 0x34b0bcb5, 0x391c0cb3, 0x4ed8aa4a, 0x5b9cca4f, 0x682e6ff3,
  0x748f82ee, 0x78a5636f, 0x84c87814, 0x8cc70208, 0x90befffa, 0xa4506ceb, 0xbef9a3f7, 0xc67178f2]

/-- The eight words of the running hash. -/
structure State where
  (a b c d e f g h : UInt32)

def initial : State :=
  ⟨0x6a09e667, 0xbb67ae85, 0x3c6ef372, 0xa54ff53a, 0x510e527f, 0x9b05688c, 0x1f83d9ab, 0x5be0cd19⟩

private def rotr (x n : UInt32) : UInt32 := (x >>> n) ||| (x <<< (32 - n))

private def word (block : Array UInt8) (i : Nat) : UInt32 :=
  let at' := fun k => (block[i + k]?.getD 0).toUInt32
  (at' 0 <<< 24) ||| (at' 1 <<< 16) ||| (at' 2 <<< 8) ||| at' 3

private def schedule (block : Array UInt8) (start : Nat) : Array UInt32 :=
  let first := (List.range 16).foldl (fun w i => w.push (word block (start + 4 * i))) (Array.mkEmpty 64)
  (List.range 48).foldl (fun w i =>
    let x := w[i + 1]?.getD 0
    let y := w[i + 14]?.getD 0
    let s0 := rotr x 7 ^^^ rotr x 18 ^^^ (x >>> 3)
    let s1 := rotr y 17 ^^^ rotr y 19 ^^^ (y >>> 10)
    w.push (w[i]?.getD 0 + s0 + w[i + 9]?.getD 0 + s1)) first

private def mix (s : State) (k w : UInt32) : State :=
  let s1 := rotr s.e 6 ^^^ rotr s.e 11 ^^^ rotr s.e 25
  let ch := (s.e &&& s.f) ^^^ ((s.e ^^^ 0xffffffff) &&& s.g)
  let t1 := s.h + s1 + ch + k + w
  let s0 := rotr s.a 2 ^^^ rotr s.a 13 ^^^ rotr s.a 22
  let maj := (s.a &&& s.b) ^^^ (s.a &&& s.c) ^^^ (s.b &&& s.c)
  ⟨t1 + s0 + maj, s.a, s.b, s.c, s.d + t1, s.e, s.f, s.g⟩

private def compress (s : State) (block : Array UInt8) (start : Nat) : State :=
  let w := schedule block start
  let r := (List.range 64).foldl (fun r i => mix r (roundConstants[i]?.getD 0) (w[i]?.getD 0)) s
  ⟨s.a + r.a, s.b + r.b, s.c + r.c, s.d + r.d, s.e + r.e, s.f + r.f, s.g + r.g, s.h + r.h⟩

/-- The message, a one bit, zeros, and the bit length in eight bytes, in blocks of sixty-four. -/
def padded (bytes : Bytes) : Array UInt8 :=
  let n := bytes.length
  let zeros := (119 - n % 64) % 64
  (bytes ++ 0x80 :: List.replicate zeros 0 ++
    (List.range 8).map fun i => UInt8.ofNat (8 * n / Nat.pow 256 (7 - i))).toArray

def hash (bytes : Bytes) : State :=
  let message := padded bytes
  (List.range (message.size / 64)).foldl (fun s i => compress s message (64 * i)) initial

def hexDigest (bytes : Bytes) : Text :=
  let s := hash bytes
  [s.a, s.b, s.c, s.d, s.e, s.f, s.g, s.h].flatMap fun x => Text.hex 8 x.toNat

end CodeAgent.Sha256
