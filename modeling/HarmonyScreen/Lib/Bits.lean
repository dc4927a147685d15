import Mathlib.Data.List.Basic
import Mathlib.Data.Nat.Bitwise
import Mathlib.Tactic.Ring

namespace HarmonyScreen.Lib

/-- A text of bits, the most significant first. -/
abbrev Bits := List Bool

namespace Bits

/-- The number that a text of bits stands for. -/
def number (bits : Bits) : Nat := bits.foldl (fun n b => 2 * n + b.toNat) 0

/-- The last `count` bits of a number. -/
def binary (count n : Nat) : Bits := (List.range count).map fun i => n.testBit (count - 1 - i)

def ofBytes (data : List UInt8) : Bits := data.flatMap fun b => binary 8 b.toNat

/-- The whole bytes of a text. -/
def toBytes (bits : Bits) : List UInt8 :=
  (List.range (bits.length / 8)).map fun i => (number ((bits.drop (8 * i)).take 8)).toUInt8

@[simp] theorem length_binary (count n : Nat) : (binary count n).length = count := by
  simp [binary]

@[simp] theorem length_ofBytes (data : List UInt8) : (ofBytes data).length = 8 * data.length := by
  induction data with
  | nil => rfl
  | cons b data ih =>
    rw [ofBytes, List.flatMap_cons, List.length_append, length_binary, List.length_cons]
    change 8 + (ofBytes data).length = _
    rw [ih]
    ring

theorem ofBytes_append (data more : List UInt8) :
    ofBytes (data ++ more) = ofBytes data ++ ofBytes more := List.flatMap_append

theorem ofBytes_cons (b : UInt8) (data : List UInt8) :
    ofBytes (b :: data) = binary 8 b.toNat ++ ofBytes data := rfl

theorem ofBytes_zeros (count : Nat) :
    ofBytes (List.replicate count 0) = List.replicate (8 * count) false := by
  induction count with
  | zero => rfl
  | succ count ih =>
    rw [List.replicate_succ, ofBytes_cons, ih, Nat.mul_succ, Nat.add_comm, List.replicate_add]
    rfl

theorem foldl_number (bits : Bits) (n : Nat) :
    bits.foldl (fun n b => 2 * n + b.toNat) n = n * 2 ^ bits.length + number bits := by
  induction bits generalizing n with
  | nil => simp [number]
  | cons b bits ih =>
    simp only [List.foldl_cons, List.length_cons, number]
    rw [ih, ih (2 * 0 + b.toNat)]
    ring

theorem number_append (bits more : Bits) :
    number (bits ++ more) = number bits * 2 ^ more.length + number more := by
  rw [number, List.foldl_append, foldl_number]
  rfl

theorem binary_succ (count n : Nat) :
    binary (count + 1) n = n.testBit count :: binary count n := by
  rw [binary, List.range_succ_eq_map, List.map_cons, List.map_map, binary]
  congr 1
  apply List.map_congr_left
  intro i hi
  simp only [List.mem_range] at hi
  rw [Function.comp_apply]
  congr 1
  omega

/-- Only the last bits of a number are written. -/
theorem binary_mod (count n : Nat) : binary count (n % 2 ^ count) = binary count n := by
  apply List.map_congr_left
  intro i hi
  rw [List.mem_range] at hi
  rw [Nat.testBit_mod_two_pow, decide_eq_true (by omega), Bool.true_and]

/-- The first bits are those of the quotient. -/
theorem binary_add (count more n : Nat) :
    binary (count + more) n = binary count (n / 2 ^ more) ++ binary more n := by
  induction count with
  | zero => simp [binary]
  | succ count ih =>
    rw [Nat.succ_add, binary_succ, ih, binary_succ, List.cons_append, Nat.testBit_div_two_pow,
      Nat.add_comm]

theorem number_binary (count n : Nat) : number (binary count n) = n % 2 ^ count := by
  induction count with
  | zero => simp [binary, number, Nat.mod_one]
  | succ count ih =>
    rw [binary_succ, ← List.singleton_append, number_append, ih, length_binary, pow_succ, Nat.mod_mul]
    have hbit : number [n.testBit count] = n / 2 ^ count % 2 := by
      rw [number, List.foldl_cons, List.foldl_nil, Nat.mul_zero, Nat.zero_add, Nat.testBit_eq_decide_div_mod_eq]
      rcases Nat.mod_two_eq_zero_or_one (n / 2 ^ count) with h | h <;> simp [h]
    rw [hbit]
    ring

theorem drop_ofBytes (data : List UInt8) (count : Nat) :
    (ofBytes data).drop (8 * count) = ofBytes (data.drop count) := by
  induction data generalizing count with
  | nil => simp [ofBytes]
  | cons b data ih =>
    cases count with
    | zero => rfl
    | succ count =>
      rw [ofBytes_cons, List.drop_append, length_binary, List.drop_of_length_le (by simp),
        List.nil_append, List.drop_succ_cons, ← ih]
      congr 1

theorem take_ofBytes (data : List UInt8) (count : Nat) :
    (ofBytes data).take (8 * count) = ofBytes (data.take count) := by
  induction data generalizing count with
  | nil => simp [ofBytes]
  | cons b data ih =>
    cases count with
    | zero => rfl
    | succ count =>
      rw [ofBytes_cons, List.take_append, length_binary, List.take_of_length_le (by simp),
        List.take_succ_cons, ofBytes_cons, ← ih]
      congr 1

theorem number_ofBytes_singleton (b : UInt8) : number (ofBytes [b]) = b.toNat := by
  rw [ofBytes_cons, ofBytes, List.flatMap_nil, List.append_nil, number_binary]
  exact Nat.mod_eq_of_lt b.toNat_lt

/-- Bytes read back from their bits. -/
theorem toBytes_ofBytes (data : List UInt8) : toBytes (ofBytes data) = data := by
  have hlength : (ofBytes data).length / 8 = data.length := by
    rw [length_ofBytes]
    omega
  apply List.ext_getElem
  · rw [toBytes, List.length_map, List.length_range, hlength]
  · intro i _ hi
    have hone : (data.drop i).take 1 = [data[i]] := by
      rw [List.drop_eq_getElem_cons hi, List.take_succ_cons, List.take_zero]
    have htake := take_ofBytes (data.drop i) 1
    rw [hone] at htake
    simp only [toBytes, List.getElem_map, List.getElem_range, drop_ofBytes]
    rw [htake, number_ofBytes_singleton]
    exact UInt8.ofNat_toNat

end Bits

end HarmonyScreen.Lib
