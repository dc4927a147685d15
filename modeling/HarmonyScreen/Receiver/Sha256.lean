import HarmonyScreen.Receiver.Bytes

namespace HarmonyScreen.Receiver.Protocol

def kSha256Constants : List UInt32 := [
  0x428a2f98, 0x71374491, 0xb5c0fbcf, 0xe9b5dba5,
  0x3956c25b, 0x59f111f1, 0x923f82a4, 0xab1c5ed5,
  0xd807aa98, 0x12835b01, 0x243185be, 0x550c7dc3,
  0x72be5d74, 0x80deb1fe, 0x9bdc06a7, 0xc19bf174,
  0xe49b69c1, 0xefbe4786, 0x0fc19dc6, 0x240ca1cc,
  0x2de92c6f, 0x4a7484aa, 0x5cb0a9dc, 0x76f988da,
  0x983e5152, 0xa831c66d, 0xb00327c8, 0xbf597fc7,
  0xc6e00bf3, 0xd5a79147, 0x06ca6351, 0x14292967,
  0x27b70a85, 0x2e1b2138, 0x4d2c6dfc, 0x53380d13,
  0x650a7354, 0x766a0abb, 0x81c2c92e, 0x92722c85,
  0xa2bfe8a1, 0xa81a664b, 0xc24b8b70, 0xc76c51a3,
  0xd192e819, 0xd6990624, 0xf40e3585, 0x106aa070,
  0x19a4c116, 0x1e376c08, 0x2748774c, 0x34b0bcb5,
  0x391c0cb3, 0x4ed8aa4a, 0x5b9cca4f, 0x682e6ff3,
  0x748f82ee, 0x78a5636f, 0x84c87814, 0x8cc70208,
  0x90befffa, 0xa4506ceb, 0xbef9a3f7, 0xc67178f2]

def rotateRight (value count : UInt32) : UInt32 :=
  (value >>> count) ||| (value <<< (32 - count))

/-- The `while` loop of the padding: zeros up to the last eight bytes of a block. -/
def pushZeros (message : Bytes) : Bytes :=
  if message.length % 64 = 56 then message else pushZeros (message ++ [0])
termination_by (120 - message.length % 64) % 64
decreasing_by
  rename_i h
  rw [List.length_append, List.length_singleton]
  omega

/-- The message behind the data: the marker bit, zeros up to the last eight
bytes of a block, and the length in bits. -/
def sha256Padding (size : Nat) : Bytes :=
  0x80 :: List.replicate ((119 - size % 64) % 64) 0 ++ bigEndian 8 (size * 8)

/-- `words`: the block's sixteen words, and each later one from those before it. -/
def sha256Words (block : Bytes) : Array UInt32 :=
  (List.range 48).foldl (fun words index =>
    let w15 := words.getD (index + 1) 0
    let w2 := words.getD (index + 14) 0
    let s0 := rotateRight w15 7 ^^^ rotateRight w15 18 ^^^ (w15 >>> 3)
    let s1 := rotateRight w2 17 ^^^ rotateRight w2 19 ^^^ (w2 >>> 10)
    words.push (words.getD index 0 + s0 + words.getD (index + 9) 0 + s1))
    ((List.range 16).map fun index => (readBig ((block.drop (index * 4)).take 4)).toUInt32).toArray

structure Sha256State where
  a : UInt32
  b : UInt32
  c : UInt32
  d : UInt32
  e : UInt32
  f : UInt32
  g : UInt32
  h : UInt32

namespace Sha256State

def initial : Sha256State :=
  ⟨0x6a09e667, 0xbb67ae85, 0x3c6ef372, 0xa54ff53a, 0x510e527f, 0x9b05688c, 0x1f83d9ab, 0x5be0cd19⟩

def round (s : Sha256State) (constant word : UInt32) : Sha256State :=
  let sigma1 := rotateRight s.e 6 ^^^ rotateRight s.e 11 ^^^ rotateRight s.e 25
  let choose := (s.e &&& s.f) ^^^ (~~~s.e &&& s.g)
  let temporary1 := s.h + sigma1 + choose + constant + word
  let sigma0 := rotateRight s.a 2 ^^^ rotateRight s.a 13 ^^^ rotateRight s.a 22
  let majority := (s.a &&& s.b) ^^^ (s.a &&& s.c) ^^^ (s.b &&& s.c)
  let temporary2 := sigma0 + majority
  ⟨temporary1 + temporary2, s.a, s.b, s.c, s.d + temporary1, s.e, s.f, s.g⟩

def add (s t : Sha256State) : Sha256State :=
  ⟨s.a + t.a, s.b + t.b, s.c + t.c, s.d + t.d, s.e + t.e, s.f + t.f, s.g + t.g, s.h + t.h⟩

def block (hash : Sha256State) (bytes : Bytes) : Sha256State :=
  hash.add ((kSha256Constants.zip (sha256Words bytes).toList).foldl
    (fun s cw => s.round cw.1 cw.2) hash)

def digest (s : Sha256State) : Bytes :=
  [s.a, s.b, s.c, s.d, s.e, s.f, s.g, s.h].flatMap fun word => bigEndian 4 word.toNat

end Sha256State

def sha256 (data : Bytes) : Bytes :=
  let message := data ++ sha256Padding data.length
  ((List.range (message.length / 64)).foldl
    (fun hash offset => Sha256State.block hash ((message.drop (offset * 64)).take 64))
    Sha256State.initial).digest

example : sha256 (ascii "abc") = [
    0xba, 0x78, 0x16, 0xbf, 0x8f, 0x01, 0xcf, 0xea, 0x41, 0x41, 0x40, 0xde, 0x5d, 0xae, 0x22, 0x23,
    0xb0, 0x03, 0x61, 0xa3, 0x96, 0x17, 0x7a, 0x9c, 0xb4, 0x10, 0xff, 0x61, 0xf2, 0x00, 0x15, 0xad] := by
  decide +kernel

def hmacSha256 (key message : Bytes) : Bytes :=
  let key := if key.length > 64 then sha256 key else key
  let keyBlock := key ++ List.replicate (64 - key.length) 0
  let inner := keyBlock.map (· ^^^ 0x36) ++ message
  let outer := keyBlock.map (· ^^^ 0x5c) ++ sha256 inner
  sha256 outer

/-- One of `0123456789abcdef`. -/
def hexDigit (value : UInt8) : UInt8 := if value < 10 then 0x30 + value else 0x57 + value

def lowerHex (data : Bytes) : Bytes :=
  data.flatMap fun (value : UInt8) => [hexDigit (value >>> 4), hexDigit (value &&& 0x0f)]

def hexValue (character : UInt8) : Option UInt8 :=
  if 0x30 ≤ character ∧ character ≤ 0x39 then some (character - 0x30)
  else if 0x61 ≤ character ∧ character ≤ 0x66 then some (character - 0x57)
  else none

def decodeHexPairs : Bytes → Option Bytes
  | [] => some []
  | [_] => none
  | high :: low :: rest =>
    match hexValue high, hexValue low, decodeHexPairs rest with
    | some h, some l, some output => some ((h * 16 + l) :: output)
    | _, _, _ => none

def decodeLowerHex (value : Bytes) (byteCount : Nat) : Option Bytes :=
  if value.length ≠ byteCount * 2 then none else decodeHexPairs value

@[simp] theorem length_digest (s : Sha256State) : s.digest.length = 32 := by
  simp [Sha256State.digest]

@[simp] theorem length_sha256 (data : Bytes) : (sha256 data).length = 32 := by
  simp [sha256]

@[simp] theorem length_hmacSha256 (key message : Bytes) :
    (hmacSha256 key message).length = 32 := by
  simp [hmacSha256]

@[simp] theorem length_lowerHex (data : Bytes) : (lowerHex data).length = data.length * 2 := by
  induction data with
  | nil => rfl
  | cons value data ih =>
    have hcons : lowerHex (value :: data) =
        hexDigit (value >>> 4) :: hexDigit (value &&& 0x0f) :: lowerHex data := rfl
    rw [hcons, List.length_cons, List.length_cons, List.length_cons, ih]
    omega

end HarmonyScreen.Receiver.Protocol
