/-!
# SHA-256

The SHA-256 digest of a byte string (FIPS 180-4): the message is padded with
a one bit, zeros and its bit length to a multiple of 64 bytes, and each block
is mixed into eight 32-bit words by 64 rounds.

    (sha256 m).size = 32
    (({} : Sha256Stream).update a |>.update b).finalize = sha256 (a ++ b)
-/

namespace ModMirror.Digest

/-- Round constants: the first 32 bits of the fractional parts of the cube
roots of the first 64 primes. -/
def roundConstants : Array UInt32 := #[
  0x428a2f98, 0x71374491, 0xb5c0fbcf, 0xe9b5dba5, 0x3956c25b, 0x59f111f1, 0x923f82a4, 0xab1c5ed5,
  0xd807aa98, 0x12835b01, 0x243185be, 0x550c7dc3, 0x72be5d74, 0x80deb1fe, 0x9bdc06a7, 0xc19bf174,
  0xe49b69c1, 0xefbe4786, 0x0fc19dc6, 0x240ca1cc, 0x2de92c6f, 0x4a7484aa, 0x5cb0a9dc, 0x76f988da,
  0x983e5152, 0xa831c66d, 0xb00327c8, 0xbf597fc7, 0xc6e00bf3, 0xd5a79147, 0x06ca6351, 0x14292967,
  0x27b70a85, 0x2e1b2138, 0x4d2c6dfc, 0x53380d13, 0x650a7354, 0x766a0abb, 0x81c2c92e, 0x92722c85,
  0xa2bfe8a1, 0xa81a664b, 0xc24b8b70, 0xc76c51a3, 0xd192e819, 0xd6990624, 0xf40e3585, 0x106aa070,
  0x19a4c116, 0x1e376c08, 0x2748774c, 0x34b0bcb5, 0x391c0cb3, 0x4ed8aa4a, 0x5b9cca4f, 0x682e6ff3,
  0x748f82ee, 0x78a5636f, 0x84c87814, 0x8cc70208, 0x90befffa, 0xa4506ceb, 0xbef9a3f7, 0xc67178f2]

/-- Initial hash value: the first 32 bits of the fractional parts of the
square roots of the first 8 primes. -/
def initialState : Array UInt32 := #[
  0x6a09e667, 0xbb67ae85, 0x3c6ef372, 0xa54ff53a, 0x510e527f, 0x9b05688c, 0x1f83d9ab, 0x5be0cd19]

def rotr (x : UInt32) (n : UInt32) : UInt32 := (x >>> n) ||| (x <<< (32 - n))

/-- The big-endian word at byte `off`. -/
def wordAt (b : ByteArray) (off : Nat) : UInt32 :=
  ((b.get! off).toUInt32 <<< 24) ||| ((b.get! (off + 1)).toUInt32 <<< 16) |||
    ((b.get! (off + 2)).toUInt32 <<< 8) ||| (b.get! (off + 3)).toUInt32

/-- The 64-word message schedule of the block at byte `off`. -/
def schedule (b : ByteArray) (off : Nat) : Array UInt32 :=
  let first := (List.range 16).foldl (fun w t => w.push (wordAt b (off + 4 * t))) (Array.mkEmpty 64)
  (List.range' 16 48).foldl (fun w t =>
    let w15 := w.getD (t - 15) 0
    let w2 := w.getD (t - 2) 0
    let s0 := rotr w15 7 ^^^ rotr w15 18 ^^^ (w15 >>> 3)
    let s1 := rotr w2 17 ^^^ rotr w2 19 ^^^ (w2 >>> 10)
    w.push (w.getD (t - 16) 0 + s0 + w.getD (t - 7) 0 + s1)) first

/-- Working variables of one compression. -/
structure Rounds where
  a : UInt32
  b : UInt32
  c : UInt32
  d : UInt32
  e : UInt32
  f : UInt32
  g : UInt32
  h : UInt32

/-- One round with constant `k` and schedule word `w`. -/
def Rounds.step (r : Rounds) (k w : UInt32) : Rounds :=
  let s1 := rotr r.e 6 ^^^ rotr r.e 11 ^^^ rotr r.e 25
  let ch := (r.e &&& r.f) ^^^ ((~~~ r.e) &&& r.g)
  let t1 := r.h + s1 + ch + k + w
  let s0 := rotr r.a 2 ^^^ rotr r.a 13 ^^^ rotr r.a 22
  let maj := (r.a &&& r.b) ^^^ (r.a &&& r.c) ^^^ (r.b &&& r.c)
  let t2 := s0 + maj
  ⟨t1 + t2, r.a, r.b, r.c, r.d + t1, r.e, r.f, r.g⟩

/-- Mixes the block at byte `off` into the state. -/
def compress (state : Array UInt32) (b : ByteArray) (off : Nat) : Array UInt32 :=
  let w := schedule b off
  let s (i : Nat) := state.getD i 0
  let start : Rounds := ⟨s 0, s 1, s 2, s 3, s 4, s 5, s 6, s 7⟩
  let r := (List.range 64).foldl (fun r t => r.step (roundConstants.getD t 0) (w.getD t 0)) start
  #[s 0 + r.a, s 1 + r.b, s 2 + r.c, s 3 + r.d, s 4 + r.e, s 5 + r.f, s 6 + r.g, s 7 + r.h]

/-- Big-endian bytes of `n`, `count` of them. -/
def bigEndian (n count : Nat) : List UInt8 :=
  (List.range count).reverse.map fun i => (n / Nat.pow 2 (8 * i) % 256).toUInt8

/-- The message with its padding: a one bit, zeros, and the 64-bit bit length. -/
def pad (m : ByteArray) : ByteArray :=
  let zeros := (119 - m.size % 64) % 64
  m ++ ByteArray.mk (#[0x80] ++ (List.replicate zeros (0 : UInt8)).toArray ++ (bigEndian (8 * m.size) 8).toArray)

/-- The digest of a byte string. -/
def sha256 (m : ByteArray) : ByteArray :=
  let p := pad m
  let state := (List.range (p.size / 64)).foldl (fun st i => compress st p (64 * i)) initialState
  ByteArray.mk (state.toList.flatMap (fun w => bigEndian w.toNat 4)).toArray

/-- Lowercase hexadecimal text of bytes, two digits each. -/
def hexOf (b : ByteArray) : String :=
  let digit (n : Nat) : Char := if n < 10 then Char.ofNat (48 + n) else Char.ofNat (87 + n)
  String.ofList (b.toList.flatMap fun x => [digit (x.toNat / 16), digit (x.toNat % 16)])

/-- A SHA-256 computation fed in pieces, known by the bytes fed so far: pieces
fed one after the other give the digest of their concatenation. -/
structure Sha256Stream where
  fed : ByteArray := ByteArray.empty

namespace Sha256Stream

def update (s : Sha256Stream) (b : ByteArray) : Sha256Stream := ⟨s.fed ++ b⟩

def finalize (s : Sha256Stream) : ByteArray := sha256 s.fed

@[simp] theorem update_update (s : Sha256Stream) (a b : ByteArray) : (s.update a).update b = s.update (a ++ b) := by
  simp [update, ByteArray.append_assoc]

@[simp] theorem update_empty (s : Sha256Stream) : s.update ByteArray.empty = s := by
  simp [update]

end Sha256Stream

end ModMirror.Digest
