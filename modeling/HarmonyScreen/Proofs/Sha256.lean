import HarmonyScreen.Lib.SecureHash
import HarmonyScreen.Receiver.NativeProtocol

namespace HarmonyScreen.Proofs.Sha256
open Lib Receiver Protocol

section Bytes

theorem ofBytes_bigEndian (count value : Nat) :
    Bits.ofBytes (bigEndian count value) = Bits.binary (8 * count) value := by
  induction count with
  | zero => rfl
  | succ count ih =>
    have hbyte : Bits.binary 8 ((value / 256 ^ count).toUInt8).toNat =
        Bits.binary 8 (value / 2 ^ (8 * count)) := by
      rw [pow_mul, Nat.toUInt8, UInt8.toNat_ofNat']
      exact Bits.binary_mod 8 _
    rw [bigEndian, Bits.ofBytes_cons, ih, hbyte, ← Bits.binary_add]
    congr 1
    omega

theorem number_ofBytes (source : Bytes) : Bits.number (Bits.ofBytes source) = readBig source := by
  induction source with
  | nil => rfl
  | cons b source ih =>
    rw [Bits.ofBytes_cons, Bits.number_append, ih, Bits.number_binary, Bits.length_ofBytes,
      readBig_cons, Nat.mod_eq_of_lt b.toNat_lt, pow_mul]
    rfl

theorem pushZeros_eq (message : Bytes) : pushZeros message =
    message ++ List.replicate ((120 - message.length % 64) % 64) 0 := by
  fun_induction pushZeros message with
  | case1 message h =>
    rw [h]
    simp
  | case2 message h ih =>
    have hcount : (120 - message.length % 64) % 64 =
        (120 - (message ++ [(0 : UInt8)]).length % 64) % 64 + 1 := by
      rw [List.length_append, List.length_singleton]
      omega
    rw [ih, hcount, List.replicate_succ, List.append_assoc, List.singleton_append]

theorem sha256Padding_eq (data : Bytes) : data ++ sha256Padding data.length =
    pushZeros (data ++ [0x80]) ++ bigEndian 8 (data.length * 8) := by
  have hcount : (120 - (data ++ [(0x80 : UInt8)]).length % 64) % 64 =
      (119 - data.length % 64) % 64 := by
    rw [List.length_append, List.length_singleton]
    omega
  rw [pushZeros_eq, hcount, sha256Padding]
  simp only [List.append_assoc, List.cons_append, List.nil_append]

theorem ofBytes_sha256Padding (size : Nat) :
    Bits.ofBytes (sha256Padding size) = SecureHash.padding (8 * size) := by
  rw [SecureHash.padding_bytes, sha256Padding, List.cons_append, ← List.cons_append,
    Bits.ofBytes_append, ofBytes_bigEndian, Nat.mul_comm size]

end Bytes

section Words

theorem rotateRight_toBitVec (value count : UInt32) (hpos : 0 < count.toNat)
    (h : count.toNat < 32) :
    (rotateRight value count).toBitVec = value.toBitVec.rotateRight count.toNat := by
  have hle : count ≤ 32 := UInt32.le_iff_toNat_le.mpr (by simpa using h.le)
  have hright : (count.toBitVec % 32#32).toNat = count.toNat := by
    rw [BitVec.toNat_umod]
    exact Nat.mod_eq_of_lt h
  have hleft : ((32 - count).toBitVec % 32#32).toNat = 32 - count.toNat := by
    rw [BitVec.toNat_umod]
    have hsub : (32 - count).toNat = 32 - count.toNat := UInt32.toNat_sub_of_le _ _ hle
    change (32 - count).toNat % 32 = _
    rw [hsub]
    omega
  rw [rotateRight, UInt32.toBitVec_or, UInt32.toBitVec_shiftRight, UInt32.toBitVec_shiftLeft,
    BitVec.rotateRight_def, Nat.mod_eq_of_lt h]
  change value.toBitVec >>> (count.toBitVec % 32#32).toNat |||
    value.toBitVec <<< ((32 - count).toBitVec % 32#32).toNat = _
  rw [hright, hleft]

/-- The state of the code as the standard writes it. -/
def stands (s : Sha256State) : SecureHash.Sha256.State :=
  ⟨s.a.toBitVec, s.b.toBitVec, s.c.toBitVec, s.d.toBitVec, s.e.toBitVec, s.f.toBitVec,
    s.g.toBitVec, s.h.toBitVec⟩

theorem stands_round (s : Sha256State) (constant word : UInt32) :
    stands (s.round constant word) = (stands s).step constant.toBitVec word.toBitVec := by
  simp [stands, Sha256State.round, SecureHash.Sha256.State.step, SecureHash.Sha256.upperSigma0,
    SecureHash.Sha256.upperSigma1, SecureHash.ch, SecureHash.maj, rotateRight_toBitVec]

theorem stands_add (s t : Sha256State) : stands (s.add t) = (stands s).add (stands t) := by
  simp [stands, Sha256State.add, SecureHash.Sha256.State.add]

theorem ofBytes_digest (s : Sha256State) : Bits.ofBytes s.digest =
    (SecureHash.sha256.output (stands s)).flatMap fun w => Bits.binary 32 w.toNat := by
  simp only [Sha256State.digest, SecureHash.sha256, stands, List.flatMap_cons, List.flatMap_nil,
    Bits.ofBytes_append, ofBytes_bigEndian]
  rfl

end Words

section Constants

def primes : List Nat := [
  2, 3, 5, 7, 11, 13, 17, 19, 23, 29, 31, 37, 41, 43, 47, 53,
  59, 61, 67, 71, 73, 79, 83, 89, 97, 101, 103, 107, 109, 113, 127, 131,
  137, 139, 149, 151, 157, 163, 167, 173, 179, 181, 191, 193, 197, 199, 211, 223,
  227, 229, 233, 239, 241, 251, 257, 263, 269, 271, 277, 281, 283, 293, 307, 311]

/-- No divisor up to the square root, for numbers below 18². -/
def Undivided (n : Nat) : Prop := 2 ≤ n ∧ ∀ m < 18, 2 ≤ m → m * m ≤ n → n % m ≠ 0

instance : DecidablePred Undivided := fun _ => inferInstanceAs (Decidable (_ ∧ _))

theorem undivided_iff {n : Nat} (hn : n < 18 * 18) : Undivided n ↔ n.Prime := by
  rw [Nat.prime_def_le_sqrt, Undivided]
  refine and_congr_right fun _ => ⟨fun h m htwo hle hdvd => ?_, fun h m _ htwo hle hmod => ?_⟩
  · have hsquare := Nat.le_sqrt.mp hle
    exact h m (Nat.mul_self_lt_mul_self_iff.mp (hsquare.trans_lt hn)) htwo hsquare
      (Nat.mod_eq_zero_of_dvd hdvd)
  · exact h m htwo (Nat.le_sqrt.mpr hle) (Nat.dvd_of_mod_eq_zero hmod)

/-- From a number of the table to the next one there is one prime, which is the first. -/
theorem primes_consecutive : ∀ t < 64, primes.getD t 0 < 18 * 18 ∧ Undivided (primes.getD t 0) ∧
    (t < 63 → primes.getD t 0 ≤ primes.getD (t + 1) 0 ∧
      Nat.count (fun k => Undivided (primes.getD t 0 + k))
        (primes.getD (t + 1) 0 - primes.getD t 0) = 1) := by
  decide +kernel

theorem count_undivided {t : Nat} (ht : t < 64) : Nat.count Undivided (primes.getD t 0) = t := by
  induction t with
  | zero => decide
  | succ t ih =>
    have hbefore := Nat.lt_of_succ_lt ht
    obtain ⟨hle, hone⟩ := (primes_consecutive t hbefore).2.2 (Nat.lt_of_succ_lt_succ ht)
    rw [← Nat.add_sub_of_le hle, Nat.count_add, ih hbefore, hone]

theorem nth_prime {t : Nat} (ht : t < 64) : Nat.nth Nat.Prime t = primes.getD t 0 := by
  obtain ⟨hsmall, hundivided, -⟩ := primes_consecutive t ht
  have hcount : Nat.count Nat.Prime (primes.getD t 0) = t := by
    refine Eq.trans (Nat.le_antisymm ?_ ?_) (count_undivided ht)
    · exact Nat.count_mono_left fun k hk => (undivided_iff (hk.trans hsmall)).mpr
    · exact Nat.count_mono_left fun k hk => (undivided_iff (hk.trans hsmall)).mp
  have hnth := Nat.nth_count ((undivided_iff hsmall).mp hundivided)
  rwa [hcount] at hnth

/-- The table holds the fractional parts of the cube roots. -/
theorem constant_eq {t : Nat} (ht : t < 64) :
    (kSha256Constants.getD t 0).toBitVec = SecureHash.Sha256.constant t := by
  have htable : ∀ t < 64, ∃ whole < 7,
      (whole * 2 ^ 32 + (kSha256Constants.getD t 0).toNat) ^ 3 ≤ primes.getD t 0 * 2 ^ 96 ∧
        primes.getD t 0 * 2 ^ 96 <
          (whole * 2 ^ 32 + (kSha256Constants.getD t 0).toNat + 1) ^ 3 := by
    decide +kernel
  obtain ⟨whole, -, hle, hlt⟩ := htable t ht
  rw [SecureHash.Sha256.constant, nth_prime ht, SecureHash.fraction_eq hle hlt]
  apply BitVec.eq_of_toNat_eq
  rw [BitVec.toNat_ofNat, Nat.mul_add_mod_self_right]
  exact (Nat.mod_eq_of_lt (kSha256Constants.getD t 0).toNat_lt).symm

/-- The first state holds the fractional parts of the square roots. -/
theorem stands_initial : stands Sha256State.initial = SecureHash.sha256.initial := by
  have hword : ∀ (i whole : Nat) (word : UInt32), i < 64 →
      (whole * 2 ^ 32 + word.toNat) ^ 2 ≤ primes.getD i 0 * 2 ^ 64 →
      primes.getD i 0 * 2 ^ 64 < (whole * 2 ^ 32 + word.toNat + 1) ^ 2 →
      word.toBitVec = SecureHash.fraction 1 (Nat.nth Nat.Prime i) := by
    intro i whole word hi hle hlt
    rw [nth_prime hi, SecureHash.fraction_eq hle hlt]
    apply BitVec.eq_of_toNat_eq
    rw [BitVec.toNat_ofNat, Nat.mul_add_mod_self_right]
    exact (Nat.mod_eq_of_lt word.toNat_lt).symm
  simp only [stands, Sha256State.initial, SecureHash.sha256, SecureHash.Sha256.State.initial]
  congr 1
  · exact hword 0 1 _ (by decide) (by decide) (by decide)
  · exact hword 1 1 _ (by decide) (by decide) (by decide)
  · exact hword 2 2 _ (by decide) (by decide) (by decide)
  · exact hword 3 2 _ (by decide) (by decide) (by decide)
  · exact hword 4 3 _ (by decide) (by decide) (by decide)
  · exact hword 5 3 _ (by decide) (by decide) (by decide)
  · exact hword 6 4 _ (by decide) (by decide) (by decide)
  · exact hword 7 4 _ (by decide) (by decide) (by decide)

end Constants

section Blocks

variable (bytes : Bytes)

/-- The words of the standard for the bytes of a block. -/
def words (t : Nat) : SecureHash.Word :=
  SecureHash.Sha256.schedule (SecureHash.block (Bits.ofBytes bytes) 0) t

def nextWord (words : Array UInt32) (index : Nat) : UInt32 :=
  let w15 := words.getD (index + 1) 0
  let w2 := words.getD (index + 14) 0
  let s0 := rotateRight w15 7 ^^^ rotateRight w15 18 ^^^ (w15 >>> 3)
  let s1 := rotateRight w2 17 ^^^ rotateRight w2 19 ^^^ (w2 >>> 10)
  words.getD index 0 + s0 + words.getD (index + 9) 0 + s1

def firstWords : Array UInt32 :=
  ((List.range 16).map fun index => (readBig ((bytes.drop (index * 4)).take 4)).toUInt32).toArray

theorem firstWords_toBitVec {t : Nat} (ht : t < 16) :
    ((firstWords bytes).getD t 0).toBitVec = SecureHash.block (Bits.ofBytes bytes) 0 ⟨t, ht⟩ := by
  have htake := Bits.take_ofBytes (bytes.drop (4 * t)) 4
  have hplace : 512 * 0 + 32 * t = 8 * (4 * t) := by omega
  rw [SecureHash.block, hplace, Bits.drop_ofBytes, htake, number_ofBytes, firstWords,
    Nat.mul_comm 4 t]
  simp [ht]
  rfl

/-- The word of the schedule, from the sixteen before it. -/
theorem nextWord_toBitVec {array : Array UInt32} {n : Nat}
    (h : ∀ t < 16 + n, (array.getD t 0).toBitVec = words bytes t) :
    (nextWord array n).toBitVec = words bytes (16 + n) := by
  have h₁ : 16 + n - 2 = n + 14 := by omega
  have h₂ : 16 + n - 7 = n + 9 := by omega
  have h₃ : 16 + n - 15 = n + 1 := by omega
  have h₄ : 16 + n - 16 = n := by omega
  rw [words, SecureHash.Sha256.schedule, dif_neg (by omega), h₁, h₂, h₃, h₄]
  change _ = SecureHash.Sha256.lowerSigma1 (words bytes (n + 14)) + words bytes (n + 9) +
    SecureHash.Sha256.lowerSigma0 (words bytes (n + 1)) + words bytes n
  rw [← h (n + 14) (by omega), ← h (n + 9) (by omega), ← h (n + 1) (by omega), ← h n (by omega)]
  simp only [nextWord, UInt32.toBitVec_add, UInt32.toBitVec_xor, SecureHash.Sha256.lowerSigma0,
    SecureHash.Sha256.lowerSigma1, UInt32.toBitVec_shiftRight]
  rw [rotateRight_toBitVec _ 7 (by decide) (by decide),
    rotateRight_toBitVec _ 18 (by decide) (by decide),
    rotateRight_toBitVec _ 17 (by decide) (by decide),
    rotateRight_toBitVec _ 19 (by decide) (by decide)]
  have hs0 : ∀ w : SecureHash.Word, w >>> (UInt32.toBitVec 3 % 32) = w >>> 3 := fun _ => rfl
  have hs1 : ∀ w : SecureHash.Word, w >>> (UInt32.toBitVec 10 % 32) = w >>> 10 := fun _ => rfl
  have reorder : ∀ a b c d : SecureHash.Word, a + b + c + d = d + c + b + a := by
    intro a b c d
    ac_rfl
  rw [hs0, hs1]
  exact reorder _ _ _ _

theorem sha256Words_toBitVec : (sha256Words bytes).size = 64 ∧
    ∀ t < 64, ((sha256Words bytes).getD t 0).toBitVec = words bytes t :=
  SecureHash.filled_upTo UInt32.toBitVec 0 (words bytes) nextWord (firstWords bytes)
    (fun t ht => by
      have hsixteen : t < 16 := ht
      rw [words, SecureHash.Sha256.schedule, dif_pos hsixteen, firstWords_toBitVec bytes hsixteen])
    (fun _ _ hfilled => nextWord_toBitVec bytes hfilled) 48

theorem stands_block (s : Sha256State) : stands (s.block bytes) =
    SecureHash.sha256.compress (stands s) (SecureHash.block (Bits.ofBytes bytes) 0) := by
  obtain ⟨hsize, hwords⟩ := sha256Words_toBitVec bytes
  have hzip : kSha256Constants.zip (sha256Words bytes).toList =
      (List.range 64).map fun t => (kSha256Constants.getD t 0, (sha256Words bytes).getD t 0) := by
    have hlength : kSha256Constants.length = 64 := rfl
    apply List.ext_getElem
    · rw [List.length_zip, hlength, Array.length_toList, hsize, List.length_map, List.length_range]
      rfl
    · intro t ht _
      rw [List.length_zip, hlength, Array.length_toList, hsize] at ht
      rw [List.getElem_zip, List.getElem_map, List.getElem_range,
        List.getD_eq_getElem _ _ (by omega), Array.getElem_toList, Array.getD_eq_getD_getElem?,
        Array.getElem?_eq_getElem (by omega), Option.getD_some]
      rfl
  have hrounds : ∀ n ≤ 64, stands (((List.range n).map fun t =>
      (kSha256Constants.getD t 0, (sha256Words bytes).getD t 0)).foldl
        (fun s cw => s.round cw.1 cw.2) s) =
      (List.range n).foldl (fun s t => s.step (SecureHash.Sha256.constant t) (words bytes t))
        (stands s) := by
    intro n hn
    induction n with
    | zero => rfl
    | succ n ih =>
      rw [List.range_succ, List.map_append, List.foldl_append, List.foldl_append, ← ih (by omega)]
      simp only [List.map_cons, List.map_nil, List.foldl_cons, List.foldl_nil]
      rw [stands_round, constant_eq (by omega), hwords n (by omega)]
  rw [Sha256State.block, stands_add, hzip, hrounds 64 (Nat.le_refl 64)]
  rfl

/-- The code computes SHA-256 of the standard. -/
theorem sha256_eq (data : Bytes) : sha256 data = SecureHash.sha256.digest data :=
  SecureHash.Algorithm.digest_eq stands stands_initial (fun s bytes => stands_block bytes s)
    ofBytes_digest (ofBytes_sha256Padding data.length)

theorem hmacSha256_eq (key message : Bytes) :
    hmacSha256 key message = SecureHash.hmac SecureHash.sha256.digest 64 key message := by
  have hpad : ∀ (block : Bytes) (pad : UInt8), block.length = 64 →
      block.map (· ^^^ pad) = block.zipWith (· ^^^ ·) (List.replicate 64 pad) := by
    intro block pad hlength
    apply List.ext_getElem
    · simp [hlength]
    · intro i _ _
      rw [List.getElem_map, List.getElem_zipWith, List.getElem_replicate]
  have hblock : ∀ key : Bytes, key.length ≤ 64 →
      (key ++ List.replicate (64 - key.length) 0).length = 64 := by
    intro key hkey
    rw [List.length_append, List.length_replicate]
    omega
  rw [hmacSha256, SecureHash.hmac, ← sha256_eq]
  simp only [← sha256_eq]
  rw [hpad _ 0x36 (hblock _ ?_), hpad _ 0x5c (hblock _ ?_)]
  all_goals
    split
    · simp
    · omega

end Blocks

section Proofs

/-- The hexadecimal text of bytes, with the digits of an alphabet. -/
def hexText (alphabet data : Bytes) : Bytes :=
  data.flatMap fun b => [alphabet.getD (b.toNat / 16) 0, alphabet.getD (b.toNat % 16) 0]

theorem lowerHex_eq (data : Bytes) : lowerHex data = hexText (ascii "0123456789abcdef") data := by
  have hdigits : ∀ b : Fin 256, [hexDigit (UInt8.ofFin b >>> 4), hexDigit (UInt8.ofFin b &&& 0x0f)] =
      [(ascii "0123456789abcdef").getD ((UInt8.ofFin b).toNat / 16) 0,
        (ascii "0123456789abcdef").getD ((UInt8.ofFin b).toNat % 16) 0] := by
    decide +kernel
  induction data with
  | nil => rfl
  | cons b data ih =>
    have hcons : lowerHex (b :: data) =
        [hexDigit (b >>> 4), hexDigit (b &&& 0x0f)] ++ lowerHex data := rfl
    rw [hcons, ih, hexText, hexText, List.flatMap_cons]
    congr 1
    exact hdigits b.toFin

/-- The value of two digits is written as these digits again. -/
theorem hexPair {high low : UInt8} (hhigh : isHex high = true) (hlow : isHex low = true) :
    ∃ h l, hexValue high = some h ∧ hexValue low = some l ∧
      lowerHex [h * 16 + l] = [high, low] := by
  have hvalue : ∀ c : Fin 256, isHex (UInt8.ofFin c) = true → ∃ v : Fin 16,
      hexValue (UInt8.ofFin c) = some (UInt8.ofNat v) ∧ hexDigit (UInt8.ofNat v) = UInt8.ofFin c := by
    decide +kernel
  have hpair : ∀ h l : Fin 16,
      (UInt8.ofNat h * 16 + UInt8.ofNat l) >>> 4 = UInt8.ofNat h ∧
        (UInt8.ofNat h * 16 + UInt8.ofNat l) &&& 0x0f = UInt8.ofNat l := by
    decide +kernel
  obtain ⟨h, hh, hhdigit⟩ := hvalue high.toFin hhigh
  obtain ⟨l, hl, hldigit⟩ := hvalue low.toFin hlow
  refine ⟨_, _, hh, hl, ?_⟩
  have hcons : ∀ b, lowerHex [b] = [hexDigit (b >>> 4), hexDigit (b &&& 0x0f)] := fun _ => rfl
  rw [hcons, (hpair h l).1, (hpair h l).2, hhdigit, hldigit]
  rfl

/-- Digits are decoded to the bytes that they are the text of. -/
theorem decodeHexPairs_some (count : Nat) (value : Bytes) (hlength : value.length = count * 2)
    (hdigits : value.all isHex = true) :
    ∃ key, decodeHexPairs value = some key ∧ key.length = count ∧ lowerHex key = value := by
  induction count generalizing value with
  | zero =>
    obtain rfl := List.length_eq_zero_iff.mp (hlength.trans (Nat.zero_mul 2))
    exact ⟨[], rfl, rfl, rfl⟩
  | succ count ih =>
    rcases value with _ | ⟨high, _ | ⟨low, rest⟩⟩
    · simp at hlength
    · simp at hlength
      omega
    · simp only [List.all_cons, Bool.and_eq_true] at hdigits
      obtain ⟨hhigh, hlow, hrest⟩ := hdigits
      obtain ⟨h, l, hh, hl, hpair⟩ := hexPair hhigh hlow
      obtain ⟨key, hdecode, hkey, htext⟩ := ih rest (by simp at hlength; omega) hrest
      refine ⟨(h * 16 + l) :: key, by simp [decodeHexPairs, hh, hl, hdecode],
        by rw [List.length_cons, hkey], ?_⟩
      have hcons : lowerHex ((h * 16 + l) :: key) = lowerHex [h * 16 + l] ++ lowerHex key := by
        simp [lowerHex]
      rw [hcons, hpair, htext]
      rfl

/-- The digest is SHA-256, the code over it is HMAC, and a proof is the text of the code of its
message under the bytes that the secret is the text of. -/
theorem proofs_are_hmac :
    (∀ data, sha256 data = SecureHash.sha256.digest data) ∧
      (∀ key message,
        hmacSha256 key message = SecureHash.hmac SecureHash.sha256.digest 64 key message) ∧
      ∀ secret : Bytes, secret.length = 64 → secret.all isHex = true →
        ∃ key : Bytes, key.length = 32 ∧ hexText (ascii "0123456789abcdef") key = secret ∧
          (∀ proofMode sessionId senderId nonce deviceId message,
            pairProofMessage proofMode sessionId senderId nonce deviceId = message → message ≠ [] →
            computePairProof secret proofMode sessionId senderId nonce deviceId =
              hexText (ascii "0123456789abcdef")
                (SecureHash.hmac SecureHash.sha256.digest 64 key message)) ∧
          ∀ senderId deviceId sourceEpoch nonce contract message,
            authProofMessage senderId deviceId sourceEpoch nonce contract = message →
            message ≠ [] →
            computeAuthProof secret senderId deviceId sourceEpoch nonce contract =
              hexText (ascii "0123456789abcdef")
                (SecureHash.hmac SecureHash.sha256.digest 64 key message) := by
  refine ⟨sha256_eq, hmacSha256_eq, fun secret hlength hdigits => ?_⟩
  obtain ⟨key, hdecode, hkey, htext⟩ := decodeHexPairs_some 32 secret hlength hdigits
  have hsome : decodeLowerHex secret 32 = some key := by
    rw [decodeLowerHex, if_neg (by omega), hdecode]
  refine ⟨key, hkey, by rw [← lowerHex_eq, htext], ?_, ?_⟩
  · rintro proofMode sessionId senderId nonce deviceId message rfl hmessage
    rw [← lowerHex_eq, ← hmacSha256_eq, computePairProof]
    simp only [hsome, if_neg hmessage]
  · rintro senderId deviceId sourceEpoch nonce contract message rfl hmessage
    rw [← lowerHex_eq, ← hmacSha256_eq, computeAuthProof]
    simp only [hsome, if_neg hmessage]

theorem pair_proof_of_zero_secret : ∃ key : Bytes, key.length = 32 ∧
    hexText (ascii "0123456789abcdef") key = List.replicate 64 0x30 ∧
    computePairProof (List.replicate 64 0x30) (ascii "qr") (List.replicate 32 0x61)
      (List.replicate 16 0x62) (List.replicate 64 0x63) (List.replicate 32 0x64) =
        hexText (ascii "0123456789abcdef") (SecureHash.hmac SecureHash.sha256.digest 64 key
          (pairProofMessage (ascii "qr") (List.replicate 32 0x61) (List.replicate 16 0x62)
            (List.replicate 64 0x63) (List.replicate 32 0x64))) := by
  obtain ⟨key, hkey, htext, hpair, -⟩ := proofs_are_hmac.2.2 (List.replicate 64 0x30)
    List.length_replicate (by decide +kernel)
  exact ⟨key, hkey, htext, hpair _ _ _ _ _ _ rfl (by decide +kernel)⟩

end Proofs

end HarmonyScreen.Proofs.Sha256
