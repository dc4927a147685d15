import Mathlib.Tactic.Ring
import Mathlib.Tactic.Linarith

namespace HarmonyScreen.Receiver

/-- `std::vector<std::byte>`, `std::string` and `std::string_view` alike. -/
abbrev Bytes := List UInt8

def ascii (s : String) : Bytes := s.toUTF8.data.toList

/-- Big-endian value; `ReadU16`, `ReadU32` and `ReadU64` on two, four and eight bytes. -/
def readBig (source : Bytes) : Nat := source.foldl (fun value b => value * 256 + b.toNat) 0

/-- The low `count` bytes of a value, most significant first. -/
def bigEndian : (count : Nat) → Nat → Bytes
  | 0, _ => []
  | count + 1, value => (value / 256 ^ count).toUInt8 :: bigEndian count value

@[simp] theorem length_bigEndian (count value : Nat) :
    (bigEndian count value).length = count := by
  induction count with
  | zero => rfl
  | succ count ih => simp [bigEndian, ih]

theorem foldl_big (source : Bytes) (acc : Nat) :
    source.foldl (fun value b => value * 256 + b.toNat) acc =
      acc * 256 ^ source.length + readBig source := by
  induction source generalizing acc with
  | nil => simp [readBig]
  | cons b source ih =>
    simp only [List.foldl_cons, List.length_cons, readBig]
    rw [ih, ih (0 * 256 + b.toNat)]
    ring

theorem readBig_cons (b : UInt8) (source : Bytes) :
    readBig (b :: source) = b.toNat * 256 ^ source.length + readBig source := by
  simp [readBig, List.foldl_cons, foldl_big source b.toNat]

theorem readBig_lt (source : Bytes) : readBig source < 256 ^ source.length := by
  induction source with
  | nil => simp [readBig]
  | cons b source ih =>
    have hb := b.toNat_lt
    rw [readBig_cons, List.length_cons, pow_succ]
    nlinarith [Nat.pos_of_ne_zero (pow_ne_zero source.length (by decide : (256 : ℕ) ≠ 0))]

/-- Reading back a value that fits gives it unchanged. -/
theorem readBig_bigEndian (count value : Nat) :
    readBig (bigEndian count value) = value % 256 ^ count := by
  induction count with
  | zero => simp [bigEndian, readBig, Nat.mod_one]
  | succ count ih =>
    rw [bigEndian, readBig_cons, ih, length_bigEndian, pow_succ, Nat.mod_mul]
    simp [Nat.toUInt8, Nat.mul_comm, Nat.add_comm]

/-- Only the low bytes of a value are written. -/
theorem bigEndian_mod (count value : Nat) :
    bigEndian count (value % 256 ^ count) = bigEndian count value := by
  induction count generalizing value with
  | zero => rfl
  | succ count ih =>
    have hdiv : value % 256 ^ (count + 1) / 256 ^ count = value / 256 ^ count % 256 := by
      rw [pow_succ, Nat.mod_mul_right_div_self]
    rw [bigEndian, bigEndian, ← ih, ← ih value, hdiv, pow_succ, Nat.mod_mul_right_mod]
    exact congrArg (· :: _) (UInt8.toNat_inj.mp (by simp [Nat.toUInt8]))

/-- Writing back what was read gives the same bytes. -/
theorem bigEndian_readBig (source : Bytes) : bigEndian source.length (readBig source) = source := by
  induction source with
  | nil => rfl
  | cons b source ih =>
    have hlt := readBig_lt source
    have hpos : 0 < 256 ^ source.length := Nat.pow_pos (by decide)
    have hhead : readBig (b :: source) / 256 ^ source.length = b.toNat := by
      rw [readBig_cons, Nat.add_comm, Nat.add_mul_div_right _ _ hpos, Nat.div_eq_of_lt hlt]
      omega
    have htail : readBig (b :: source) % 256 ^ source.length = readBig source := by
      rw [readBig_cons, Nat.mul_add_mod_of_lt hlt]
    rw [List.length_cons, bigEndian, hhead, ← bigEndian_mod, htail, ih]
    simp [Nat.toUInt8]

end HarmonyScreen.Receiver
