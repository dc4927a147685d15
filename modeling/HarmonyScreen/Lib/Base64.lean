import HarmonyScreen.Lib.Bits

namespace HarmonyScreen.Lib

namespace Base64

/-- The digit of RFC 4648 for a value, as an ASCII code. -/
def digit (value : Nat) : UInt8 :=
  if value < 26 then (0x41 + value).toUInt8
  else if value < 52 then (0x61 + (value - 26)).toUInt8
  else if value < 62 then (0x30 + (value - 52)).toUInt8
  else if value = 62 then 0x2b
  else 0x2f

/-- The values of the whole groups of six bits. -/
def groups (bits : Bits) : List Nat :=
  (List.range (bits.length / 6)).map fun i => Bits.number ((bits.drop (6 * i)).take 6)

/-- Zero bits are added on the right to form a whole number of groups. -/
def values (bits : Bits) : List Nat :=
  groups (bits ++ List.replicate ((6 - bits.length % 6) % 6) false)

/-- `=` fills the last quantum. -/
def encode (data : List UInt8) : List UInt8 :=
  let digits := (values (Bits.ofBytes data)).map digit
  digits ++ List.replicate ((4 - digits.length % 4) % 4) 0x3d

theorem groups_append (count : Nat) {first : Bits} (h : first.length = 6 * count) (more : Bits) :
    groups (first ++ more) = groups first ++ groups more := by
  have hcount : (first ++ more).length / 6 = count + more.length / 6 := by
    rw [List.length_append, h]
    omega
  have hfirst : first.length / 6 = count := by omega
  rw [groups, groups, groups, hcount, hfirst, List.range_add, List.map_append, List.map_map]
  congr 1
  · apply List.map_congr_left
    intro i hi
    rw [List.mem_range] at hi
    have hle : (6 : Nat) ≤ first.length - 6 * i := by omega
    rw [List.drop_append, List.take_append_of_le_length (by rw [List.length_drop]; exact hle)]
  · apply List.map_congr_left
    intro i _
    have hdrop : 6 * (count + i) = first.length + 6 * i := by omega
    rw [Function.comp_apply, hdrop, List.drop_length_add_append]

theorem groups_six (n : Nat) : groups (Bits.binary 6 n) = [n % 64] := by
  have hone : (Bits.binary 6 n).length / 6 = 1 := by rw [Bits.length_binary]
  rw [groups, hone, List.range_one, List.map_singleton, Nat.mul_zero, List.drop_zero,
    List.take_of_length_le (by rw [Bits.length_binary]), Bits.number_binary]
  rfl

theorem groups_binary (count n : Nat) :
    groups (Bits.binary (6 * count) n) =
      (List.range count).map fun i => n / 2 ^ (6 * (count - 1 - i)) % 64 := by
  induction count with
  | zero => simp [groups, Bits.binary]
  | succ count ih =>
    have hsum : 6 * (count + 1) = 6 + 6 * count := by omega
    rw [hsum, Bits.binary_add, groups_append 1 (Bits.length_binary 6 _), groups_six, ih,
      List.range_succ_eq_map, List.map_cons, List.map_map, List.singleton_append]
    congr 1
    apply List.map_congr_left
    intro i _
    rw [Function.comp_apply, show count + 1 - 1 - (i + 1) = count - 1 - i by omega]

theorem values_append (count : Nat) {first : Bits} (h : first.length = 6 * count) (more : Bits) :
    values (first ++ more) = groups first ++ values more := by
  have hmod : (first ++ more).length % 6 = more.length % 6 := by
    rw [List.length_append, h]
    omega
  rw [values, values, hmod, List.append_assoc, groups_append count h]

/-- The bits of three bytes, and of fewer with zeros behind. -/
theorem ofBytes_three (a b c : UInt8) : Bits.ofBytes [a, b, c] =
    Bits.binary 24 (a.toNat * 2 ^ 16 + b.toNat * 2 ^ 8 + c.toNat) := by
  have hb := b.toNat_lt
  have hc := c.toNat_lt
  have hfirst : (a.toNat * 2 ^ 16 + b.toNat * 2 ^ 8 + c.toNat) / 2 ^ 16 = a.toNat := by omega
  have hsecond : (a.toNat * 2 ^ 16 + b.toNat * 2 ^ 8 + c.toNat) / 2 ^ 8 % 2 ^ 8 = b.toNat := by omega
  have hthird : (a.toNat * 2 ^ 16 + b.toNat * 2 ^ 8 + c.toNat) % 2 ^ 8 = c.toNat := by omega
  rw [show 24 = 8 + (8 + 8) from rfl, Bits.binary_add, Bits.binary_add, hfirst,
    ← Bits.binary_mod 8 (_ / 2 ^ 8), hsecond, ← Bits.binary_mod 8 (_ + _), hthird]
  rfl

/-- The four digits of three bytes. -/
def quantum (a b c : UInt8) : List UInt8 := (groups (Bits.ofBytes [a, b, c])).map digit

theorem quantum_eq (a b c : UInt8) {value : Nat}
    (h : value = a.toNat * 2 ^ 16 + b.toNat * 2 ^ 8 + c.toNat) :
    quantum a b c = [digit (value / 2 ^ 18 % 64), digit (value / 2 ^ 12 % 64),
      digit (value / 2 ^ 6 % 64), digit (value % 64)] := by
  rw [quantum, ofBytes_three, ← h, show 24 = 6 * 4 from rfl, groups_binary]
  simp [List.range_succ]

theorem length_quantum (a b c : UInt8) : (quantum a b c).length = 4 := by
  rw [quantum_eq a b c rfl]
  rfl

theorem encode_three (a b c : UInt8) (rest : List UInt8) :
    encode (a :: b :: c :: rest) = quantum a b c ++ encode rest := by
  have hsplit : Bits.ofBytes (a :: b :: c :: rest) = Bits.ofBytes [a, b, c] ++ Bits.ofBytes rest := by
    rw [← Bits.ofBytes_append]
    rfl
  have hthree : (Bits.ofBytes [a, b, c]).length = 6 * 4 := by rw [Bits.length_ofBytes]; rfl
  have hdigits : (values (Bits.ofBytes (a :: b :: c :: rest))).map digit =
      quantum a b c ++ (values (Bits.ofBytes rest)).map digit := by
    rw [hsplit, values_append 4 hthree, List.map_append]
    rfl
  rw [encode, encode]
  simp only [hdigits, List.length_append, length_quantum, List.append_assoc]
  rw [Nat.add_mod_left]

theorem length_groups (bits : Bits) : (groups bits).length = bits.length / 6 := by
  rw [groups, List.length_map, List.length_range]

/-- Fewer bytes have fewer digits, those of the bytes with zeros behind. -/
theorem values_take {data : List UInt8} {zeros : Nat} (digits : Nat)
    (hbits : 8 * data.length + (6 - 8 * data.length % 6) % 6 = 6 * digits)
    (hzeros : data.length + zeros = 3) :
    values (Bits.ofBytes data) =
      (groups (Bits.ofBytes (data ++ List.replicate zeros 0))).take digits := by
  have hpadded : (Bits.ofBytes data ++
      List.replicate ((6 - 8 * data.length % 6) % 6) false).length = 6 * digits := by
    rw [List.length_append, Bits.length_ofBytes, List.length_replicate, hbits]
  have hcount : 8 * zeros = (6 - 8 * data.length % 6) % 6 +
      (8 * zeros - (6 - 8 * data.length % 6) % 6) := by omega
  rw [Bits.ofBytes_append, Bits.ofBytes_zeros, hcount, List.replicate_add, ← List.append_assoc,
    groups_append digits hpadded, List.take_left', values, Bits.length_ofBytes]
  rw [length_groups, hpadded]
  omega

theorem encode_two (a b : UInt8) : encode [a, b] = (quantum a b 0).take 3 ++ [0x3d] := by
  have hvalues : values (Bits.ofBytes [a, b]) =
      (groups (Bits.ofBytes ([a, b] ++ List.replicate 1 0))).take 3 := values_take 3 (by simp) rfl
  have hdigits : (values (Bits.ofBytes [a, b])).map digit = (quantum a b 0).take 3 := by
    rw [hvalues, List.map_take]
    rfl
  have hlength : ((quantum a b 0).take 3).length = 3 := by rw [List.length_take, length_quantum]; rfl
  rw [encode]
  simp only [hdigits, hlength]
  rfl

theorem encode_one (a : UInt8) : encode [a] = (quantum a 0 0).take 2 ++ [0x3d, 0x3d] := by
  have hvalues : values (Bits.ofBytes [a]) =
      (groups (Bits.ofBytes ([a] ++ List.replicate 2 0))).take 2 := values_take 2 (by simp) rfl
  have hdigits : (values (Bits.ofBytes [a])).map digit = (quantum a 0 0).take 2 := by
    rw [hvalues, List.map_take]
    rfl
  have hlength : ((quantum a 0 0).take 2).length = 2 := by rw [List.length_take, length_quantum]; rfl
  rw [encode]
  simp only [hdigits, hlength]
  rfl

end Base64

end HarmonyScreen.Lib
