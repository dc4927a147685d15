import Mathlib.Data.Nat.Nth
import Mathlib.Data.Nat.Prime.Nth
import HarmonyScreen.Lib.Bits

namespace HarmonyScreen.Lib

namespace SecureHash

/-- A word of the secure hash standard, FIPS 180-4. -/
abbrev Word := BitVec 32

section Constants

theorem exists_root (k n : Nat) : ∃ m, n < (m + 1) ^ (k + 1) := by
  refine ⟨n, ?_⟩
  calc n < n + 1 := Nat.lt_succ_self n
    _ = (n + 1) ^ 1 := (pow_one _).symm
    _ ≤ (n + 1) ^ (k + 1) := Nat.pow_le_pow_right (Nat.succ_pos n) (Nat.succ_pos k)

/-- The whole part of the root of degree `k + 1`. -/
def root (k n : Nat) : Nat := Nat.find (exists_root k n)

theorem root_eq {k n m : Nat} (hle : m ^ (k + 1) ≤ n) (hlt : n < (m + 1) ^ (k + 1)) :
    root k n = m := by
  rw [root, Nat.find_eq_iff]
  refine ⟨hlt, fun l hl => ?_⟩
  rw [not_lt]
  exact (Nat.pow_le_pow_left hl (k + 1)).trans hle

/-- The first thirty-two bits of the fractional part of a root of degree `k + 1`. -/
def fraction (k n : Nat) : Word := BitVec.ofNat 32 (root k (n * 2 ^ (32 * (k + 1))))

theorem fraction_eq {k n m : Nat} (hle : m ^ (k + 1) ≤ n * 2 ^ (32 * (k + 1)))
    (hlt : n * 2 ^ (32 * (k + 1)) < (m + 1) ^ (k + 1)) : fraction k n = BitVec.ofNat 32 m := by
  rw [fraction, root_eq hle hlt]

end Constants

section Padding

theorem exists_zeros (length : Nat) : ∃ k, (length + 1 + k) % 512 = 448 :=
  ⟨(960 - (length + 1) % 512) % 512, by omega⟩

/-- The smallest number of zero bits that brings a message to 448 bits behind a whole block. -/
def zeros (length : Nat) : Nat := Nat.find (exists_zeros length)

theorem zeros_eq {length k : Nat} (hk : k < 512) (h : (length + 1 + k) % 512 = 448) :
    zeros length = k := by
  rw [zeros, Nat.find_eq_iff]
  refine ⟨h, fun l hl => ?_⟩
  omega

/-- What stands behind a message of this many bits. -/
def padding (length : Nat) : Bits :=
  true :: List.replicate (zeros length) false ++ Bits.binary 64 length

/-- The words of block `i`. -/
def block (padded : Bits) (i : Nat) (t : Fin 16) : Word :=
  BitVec.ofNat 32 (Bits.number ((padded.drop (512 * i + 32 * t)).take 32))

end Padding

/-- A hash algorithm: its state from block to block, and the words that it ends with. -/
structure Algorithm (σ : Type) where
  initial : σ
  compress : σ → (Fin 16 → Word) → σ
  output : σ → List Word

namespace Algorithm
variable {σ : Type} (A : Algorithm σ)

def hash (message : Bits) : Bits :=
  let padded := message ++ padding message.length
  let final := (List.range (padded.length / 512)).foldl
    (fun state i => A.compress state (block padded i)) A.initial
  (A.output final).flatMap fun w => Bits.binary 32 w.toNat

/-- The hash of a message of bytes. -/
def digest (data : List UInt8) : List UInt8 := Bits.toBytes (A.hash (Bits.ofBytes data))

end Algorithm

section Functions

def ch (x y z : Word) : Word := (x &&& y) ^^^ (~~~x &&& z)
def parity (x y z : Word) : Word := x ^^^ y ^^^ z
def maj (x y z : Word) : Word := (x &&& y) ^^^ (x &&& z) ^^^ (y &&& z)

end Functions

namespace Sha256

def upperSigma0 (x : Word) : Word := x.rotateRight 2 ^^^ x.rotateRight 13 ^^^ x.rotateRight 22
def upperSigma1 (x : Word) : Word := x.rotateRight 6 ^^^ x.rotateRight 11 ^^^ x.rotateRight 25
def lowerSigma0 (x : Word) : Word := x.rotateRight 7 ^^^ x.rotateRight 18 ^^^ x >>> 3
def lowerSigma1 (x : Word) : Word := x.rotateRight 17 ^^^ x.rotateRight 19 ^^^ x >>> 10

/-- From the cube roots of the first sixty-four primes. -/
noncomputable def constant (t : Nat) : Word := fraction 2 (Nat.nth Nat.Prime t)

def schedule (block : Fin 16 → Word) (t : Nat) : Word :=
  if h : t < 16 then block ⟨t, h⟩
  else
    lowerSigma1 (schedule block (t - 2)) + schedule block (t - 7) +
      lowerSigma0 (schedule block (t - 15)) + schedule block (t - 16)
termination_by t

structure State where
  a : Word
  b : Word
  c : Word
  d : Word
  e : Word
  f : Word
  g : Word
  h : Word

namespace State

/-- From the square roots of the first eight primes. -/
noncomputable def initial : State :=
  let word i := fraction 1 (Nat.nth Nat.Prime i)
  ⟨word 0, word 1, word 2, word 3, word 4, word 5, word 6, word 7⟩

def step (s : State) (k w : Word) : State :=
  let t₁ := s.h + upperSigma1 s.e + ch s.e s.f s.g + k + w
  let t₂ := upperSigma0 s.a + maj s.a s.b s.c
  ⟨t₁ + t₂, s.a, s.b, s.c, s.d + t₁, s.e, s.f, s.g⟩

def add (s t : State) : State :=
  ⟨s.a + t.a, s.b + t.b, s.c + t.c, s.d + t.d, s.e + t.e, s.f + t.f, s.g + t.g, s.h + t.h⟩

end State

end Sha256

/-- SHA-256 -/
noncomputable def sha256 : Algorithm Sha256.State where
  initial := .initial
  compress s block := s.add ((List.range 64).foldl
    (fun s t => s.step (Sha256.constant t) (Sha256.schedule block t)) s)
  output s := [s.a, s.b, s.c, s.d, s.e, s.f, s.g, s.h]

namespace Sha1

def function (t : Nat) : Word → Word → Word → Word :=
  if t < 20 then ch else if t < 40 then parity else if t < 60 then maj else parity

def constant (t : Nat) : Word :=
  if t < 20 then 0x5a827999 else if t < 40 then 0x6ed9eba1
  else if t < 60 then 0x8f1bbcdc else 0xca62c1d6

def schedule (block : Fin 16 → Word) (t : Nat) : Word :=
  if h : t < 16 then block ⟨t, h⟩
  else
    (schedule block (t - 3) ^^^ schedule block (t - 8) ^^^ schedule block (t - 14) ^^^
      schedule block (t - 16)).rotateLeft 1
termination_by t

structure State where
  a : Word
  b : Word
  c : Word
  d : Word
  e : Word

namespace State

def initial : State := ⟨0x67452301, 0xefcdab89, 0x98badcfe, 0x10325476, 0xc3d2e1f0⟩

def step (s : State) (t : Nat) (w : Word) : State :=
  ⟨s.a.rotateLeft 5 + function t s.b s.c s.d + s.e + constant t + w,
    s.a, s.b.rotateLeft 30, s.c, s.d⟩

def add (s t : State) : State := ⟨s.a + t.a, s.b + t.b, s.c + t.c, s.d + t.d, s.e + t.e⟩

end State

end Sha1

/-- SHA-1 -/
def sha1 : Algorithm Sha1.State where
  initial := .initial
  compress s block := s.add ((List.range 80).foldl
    (fun s t => s.step t (Sha1.schedule block t)) s)
  output s := [s.a, s.b, s.c, s.d, s.e]

/-- RFC 2104, over a hash function on blocks of `blockSize` bytes. -/
def hmac (hash : List UInt8 → List UInt8) (blockSize : Nat) (key text : List UInt8) : List UInt8 :=
  let key := if key.length > blockSize then hash key else key
  let key := key ++ List.replicate (blockSize - key.length) 0
  let ipad := List.replicate blockSize 0x36
  let opad := List.replicate blockSize 0x5c
  hash (key.zipWith (· ^^^ ·) opad ++ hash (key.zipWith (· ^^^ ·) ipad ++ text))

section Schedule

/-- An array that is filled place after place, each from those before it. -/
theorem filled_upTo {α β : Type} (stands : α → β) (default : α) (schedule : Nat → β)
    (next : Array α → Nat → α) (first : Array α)
    (hfirst : ∀ t < first.size, stands (first.getD t default) = schedule t)
    (hnext : ∀ (filled : Array α) (n : Nat),
      (∀ t < first.size + n, stands (filled.getD t default) = schedule t) →
      stands (next filled n) = schedule (first.size + n)) (n : Nat) :
    ((List.range n).foldl (fun filled i => filled.push (next filled i)) first).size =
        first.size + n ∧
      ∀ t < first.size + n, stands (((List.range n).foldl
        (fun filled i => filled.push (next filled i)) first).getD t default) = schedule t := by
  induction n with
  | zero => exact ⟨rfl, hfirst⟩
  | succ n ih =>
    rw [List.range_succ, List.foldl_append, List.foldl_cons, List.foldl_nil]
    obtain ⟨hsize, hwords⟩ := ih
    refine ⟨by rw [Array.size_push, hsize, Nat.add_assoc], fun t ht => ?_⟩
    rw [Array.getD_eq_getD_getElem?, Array.getElem?_push, hsize]
    split
    · rename_i hlast
      rw [Option.getD_some, hnext _ n hwords, hlast]
    · rw [← Array.getD_eq_getD_getElem?]
      exact hwords t (by omega)

end Schedule

section Digest
variable {σ : Type} {A : Algorithm σ}

theorem padding_bytes (count : Nat) :
    padding (8 * count) = Bits.ofBytes
      ((0x80 : UInt8) :: List.replicate ((119 - count % 64) % 64) 0) ++ Bits.binary 64 (8 * count) := by
  have hzeros : zeros (8 * count) = 7 + 8 * ((119 - count % 64) % 64) :=
    zeros_eq (by omega) (by omega)
  rw [padding, hzeros, Bits.ofBytes_cons, Bits.ofBytes_zeros, List.replicate_add]
  rfl

theorem block_bytes (data : List UInt8) (i : Nat) :
    block (Bits.ofBytes data) i = block (Bits.ofBytes ((data.drop (64 * i)).take 64)) 0 := by
  funext t
  have hplace : 512 * i + 32 * (t : Nat) = 8 * (64 * i + 4 * t) := by ring
  have hfirst : 512 * 0 + 32 * (t : Nat) = 8 * (4 * t) := by ring
  have hword := Bits.take_ofBytes (data.drop (64 * i + 4 * t)) 4
  have hsame := Bits.take_ofBytes (((data.drop (64 * i)).take 64).drop (4 * t)) 4
  rw [block, block, hplace, hfirst, Bits.drop_ofBytes, Bits.drop_ofBytes, hword, hsame]
  rw [List.drop_take, List.drop_drop, List.take_take, Nat.min_eq_left (by omega)]

/-- A loop over the blocks of a padded message, on a state that stands for that of the
algorithm, computes its digest. -/
theorem Algorithm.digest_eq {τ : Type} (stands : τ → σ) {start : τ}
    {compress : τ → List UInt8 → τ} {output : τ → List UInt8}
    (hstart : stands start = A.initial)
    (hcompress : ∀ s bytes, stands (compress s bytes) =
      A.compress (stands s) (block (Bits.ofBytes bytes) 0))
    (houtput : ∀ s, Bits.ofBytes (output s) =
      (A.output (stands s)).flatMap fun w => Bits.binary 32 w.toNat)
    {data tail : List UInt8} (htail : Bits.ofBytes tail = padding (8 * data.length)) :
    output ((List.range ((data ++ tail).length / 64)).foldl
      (fun s i => compress s (((data ++ tail).drop (i * 64)).take 64)) start) = A.digest data := by
  have hpadded : Bits.ofBytes data ++ padding (Bits.ofBytes data).length =
      Bits.ofBytes (data ++ tail) := by
    rw [Bits.length_ofBytes, ← htail, Bits.ofBytes_append]
  have hcount : (Bits.ofBytes (data ++ tail)).length / 512 = (data ++ tail).length / 64 := by
    rw [Bits.length_ofBytes]
    omega
  have hloop : ∀ n, stands ((List.range n).foldl
      (fun s i => compress s (((data ++ tail).drop (i * 64)).take 64)) start) =
      (List.range n).foldl
        (fun s i => A.compress s (block (Bits.ofBytes (data ++ tail)) i)) A.initial := by
    intro n
    induction n with
    | zero => exact hstart
    | succ n ih =>
      rw [List.range_succ, List.foldl_append, List.foldl_append, ← ih]
      simp only [List.foldl_cons, List.foldl_nil]
      rw [hcompress, block_bytes (data ++ tail) n, Nat.mul_comm]
  rw [Algorithm.digest, Algorithm.hash, hpadded]
  rw [hcount, ← hloop, ← houtput, Bits.toBytes_ofBytes]

end Digest

end SecureHash

end HarmonyScreen.Lib
