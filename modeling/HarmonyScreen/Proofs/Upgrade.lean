import HarmonyScreen.Lib.Base64
import HarmonyScreen.Proofs.Sha256
import HarmonyScreen.Receiver.Upgrade

namespace HarmonyScreen.Proofs.Upgrade
open Lib Receiver Protocol WebSocket Sha256

section Sha1

theorem rotateLeft_toBitVec (value count : UInt32) (hpos : 0 < count.toNat)
    (h : count.toNat < 32) :
    (rotateLeft value count).toBitVec = value.toBitVec.rotateLeft count.toNat := by
  have hle : count ≤ 32 := UInt32.le_iff_toNat_le.mpr (by simpa using h.le)
  have hleft : (count.toBitVec % 32#32).toNat = count.toNat := by
    rw [BitVec.toNat_umod]
    exact Nat.mod_eq_of_lt h
  have hright : ((32 - count).toBitVec % 32#32).toNat = 32 - count.toNat := by
    rw [BitVec.toNat_umod]
    have hsub : (32 - count).toNat = 32 - count.toNat := UInt32.toNat_sub_of_le _ _ hle
    change (32 - count).toNat % 32 = _
    rw [hsub]
    omega
  rw [rotateLeft, UInt32.toBitVec_or, UInt32.toBitVec_shiftRight, UInt32.toBitVec_shiftLeft,
    BitVec.rotateLeft_def, Nat.mod_eq_of_lt h]
  change value.toBitVec <<< (count.toBitVec % 32#32).toNat |||
    value.toBitVec >>> ((32 - count).toBitVec % 32#32).toNat = _
  rw [hright, hleft]

/-- At no place are both halves of the choice set. -/
theorem choose_eq (x y z : SecureHash.Word) : (x &&& y) ||| (~~~x &&& z) = SecureHash.ch x y z := by
  apply BitVec.eq_of_getLsbD_eq
  intro i hi
  simp only [SecureHash.ch, BitVec.getLsbD_or, BitVec.getLsbD_and, BitVec.getLsbD_xor,
    BitVec.getLsbD_not, hi, decide_true, Bool.true_and]
  cases x.getLsbD i <;> cases y.getLsbD i <;> cases z.getLsbD i <;> rfl

theorem majority_eq (x y z : SecureHash.Word) :
    (x &&& y) ||| (x &&& z) ||| (y &&& z) = SecureHash.maj x y z := by
  apply BitVec.eq_of_getLsbD_eq
  intro i _
  simp only [SecureHash.maj, BitVec.getLsbD_or, BitVec.getLsbD_and, BitVec.getLsbD_xor]
  cases x.getLsbD i <;> cases y.getLsbD i <;> cases z.getLsbD i <;> rfl

def stands (s : Sha1State) : SecureHash.Sha1.State :=
  ⟨s.a.toBitVec, s.b.toBitVec, s.c.toBitVec, s.d.toBitVec, s.e.toBitVec⟩

theorem stands_round (s : Sha1State) (index : Nat) (word : UInt32) :
    stands (s.round index word) = (stands s).step index word.toBitVec := by
  unfold Sha1State.round SecureHash.Sha1.State.step SecureHash.Sha1.function
    SecureHash.Sha1.constant
  dsimp only
  have hrotate : ∀ w : UInt32, (rotateLeft w 5).toBitVec = w.toBitVec.rotateLeft 5 :=
    fun w => rotateLeft_toBitVec w 5 (by decide) (by decide)
  have hthirty : ∀ w : UInt32, (rotateLeft w 30).toBitVec = w.toBitVec.rotateLeft 30 :=
    fun w => rotateLeft_toBitVec w 30 (by decide) (by decide)
  split
  · simp only [stands, UInt32.toBitVec_add, hrotate, hthirty, UInt32.toBitVec_or, UInt32.toBitVec_and,
      UInt32.toBitVec_not, choose_eq]
    rfl
  split
  · simp only [stands, UInt32.toBitVec_add, hrotate, hthirty, UInt32.toBitVec_xor]
    rfl
  split
  · simp only [stands, UInt32.toBitVec_add, hrotate, hthirty, UInt32.toBitVec_or, UInt32.toBitVec_and,
      majority_eq]
    rfl
  · simp only [stands, UInt32.toBitVec_add, hrotate, hthirty, UInt32.toBitVec_xor]
    rfl

theorem stands_add (s t : Sha1State) : stands (s.add t) = (stands s).add (stands t) := by
  simp [stands, Sha1State.add, SecureHash.Sha1.State.add]

theorem ofBytes_digest (s : Sha1State) : Bits.ofBytes s.digest =
    (SecureHash.sha1.output (stands s)).flatMap fun w => Bits.binary 32 w.toNat := by
  simp only [Sha1State.digest, SecureHash.sha1, stands, List.flatMap_cons, List.flatMap_nil,
    Bits.ofBytes_append, ofBytes_bigEndian]
  rfl

theorem sha1Words_toBitVec (bytes : Bytes) : ∀ t < 80, ((sha1Words bytes 64).getD t 0).toBitVec =
    SecureHash.Sha1.schedule (SecureHash.block (Bits.ofBytes bytes) 0) t := by
  refine (SecureHash.filled_upTo UInt32.toBitVec 0
    (SecureHash.Sha1.schedule (SecureHash.block (Bits.ofBytes bytes) 0)) sha1Word
    (firstWords bytes) (fun t ht => ?_) (fun filled n hfilled => ?_) 64).2
  · have hsixteen : t < 16 := ht
    rw [SecureHash.Sha1.schedule, dif_pos hsixteen, firstWords_toBitVec bytes hsixteen]
  · change ∀ t < 16 + n, _ at hfilled
    change _ = SecureHash.Sha1.schedule _ (16 + n)
    have h₁ : 16 + n - 3 = n + 13 := by omega
    have h₂ : 16 + n - 8 = n + 8 := by omega
    have h₃ : 16 + n - 14 = n + 2 := by omega
    have h₄ : 16 + n - 16 = n := by omega
    rw [SecureHash.Sha1.schedule, dif_neg (by omega), h₁, h₂, h₃, h₄, ← hfilled (n + 13) (by omega),
      ← hfilled (n + 8) (by omega), ← hfilled (n + 2) (by omega), ← hfilled n (by omega), sha1Word,
      rotateLeft_toBitVec _ 1 (by decide) (by decide)]
    simp only [UInt32.toBitVec_xor]
    rfl

theorem stands_block (s : Sha1State) (bytes : Bytes) : stands (s.block bytes) =
    SecureHash.sha1.compress (stands s) (SecureHash.block (Bits.ofBytes bytes) 0) := by
  have hrounds : ∀ n ≤ 80, stands ((List.range n).foldl
      (fun s index => s.round index ((sha1Words bytes 64).getD index 0)) s) =
      (List.range n).foldl (fun s t => s.step t
        (SecureHash.Sha1.schedule (SecureHash.block (Bits.ofBytes bytes) 0) t)) (stands s) := by
    intro n hn
    induction n with
    | zero => rfl
    | succ n ih =>
      rw [List.range_succ, List.foldl_append, List.foldl_append, ← ih (by omega)]
      simp only [List.foldl_cons, List.foldl_nil]
      rw [stands_round, sha1Words_toBitVec bytes n (by omega)]
  rw [Sha1State.block, stands_add, hrounds 80 (Nat.le_refl 80)]
  rfl

theorem sha1_eq (input : Bytes) : sha1 input = SecureHash.sha1.digest input := by
  have hmessage := sha256Padding_eq input
  rw [sha1, ← hmessage]
  exact SecureHash.Algorithm.digest_eq stands rfl stands_block ofBytes_digest
    (ofBytes_sha256Padding input.length)

end Sha1

section Base64

theorem base64Alphabet_eq {value : Nat} (h : value < 64) :
    base64Alphabet.getD value 0 = Base64.digit value := by
  have htable : ∀ value < 64, base64Alphabet.getD value 0 = Base64.digit value := by decide
  exact htable value h

/-- What the loop writes for the three bytes at a place. -/
def quad (a b c : UInt8) : Bytes :=
  let value := (a.toNat <<< 16) ||| (b.toNat <<< 8) ||| c.toNat
  [base64Alphabet.getD ((value >>> 18) &&& 0x3f) 0,
    base64Alphabet.getD ((value >>> 12) &&& 0x3f) 0,
    base64Alphabet.getD ((value >>> 6) &&& 0x3f) 0,
    base64Alphabet.getD (value &&& 0x3f) 0]

theorem quad_eq (a b c : UInt8) : quad a b c = Base64.quantum a b c := by
  have hvalue : (a.toNat <<< 16) ||| (b.toNat <<< 8) ||| c.toNat =
      a.toNat * 2 ^ 16 + b.toNat * 2 ^ 8 + c.toNat := by
    have houter : a.toNat <<< 16 = (a.toNat <<< 8) <<< 8 := by rw [← Nat.shiftLeft_add]
    rw [houter, ← Nat.shiftLeft_or_distrib, ← Nat.shiftLeft_add_eq_or_of_lt b.toNat_lt,
      ← Nat.shiftLeft_add_eq_or_of_lt c.toNat_lt]
    simp only [Nat.shiftLeft_eq]
    ring
  have hbits : ∀ n : Nat, n &&& 0x3f = n % 64 := fun n => Nat.and_two_pow_sub_one_eq_mod n 6
  rw [Base64.quantum_eq a b c hvalue, quad]
  simp only [hbits, Nat.shiftRight_eq_div_pow]
  rw [base64Alphabet_eq (Nat.mod_lt _ (by decide)), base64Alphabet_eq (Nat.mod_lt _ (by decide)),
    base64Alphabet_eq (Nat.mod_lt _ (by decide)), base64Alphabet_eq (Nat.mod_lt _ (by decide))]

/-- The body of the loop. -/
def quadAt (data : Bytes) (index : Nat) : Bytes :=
  let digits := quad (data.getD (index * 3) 0) (data.getD (index * 3 + 1) 0)
    (data.getD (index * 3 + 2) 0)
  [digits.getD 0 0, digits.getD 1 0,
    if index * 3 + 1 < data.length then digits.getD 2 0 else 0x3d,
    if index * 3 + 2 < data.length then digits.getD 3 0 else 0x3d]

theorem base64_quads (data : Bytes) :
    base64 data = (List.range ((data.length + 2) / 3)).flatMap (quadAt data) := rfl

theorem quadAt_zero (a b c : UInt8) (rest : Bytes) : quadAt (a :: b :: c :: rest) 0 = quad a b c := by
  simp [quadAt, quad]

theorem quadAt_succ (a b c : UInt8) (rest : Bytes) (index : Nat) :
    quadAt (a :: b :: c :: rest) (index + 1) = quadAt rest index := by
  have hplace : ∀ k, (a :: b :: c :: rest).getD ((index + 1) * 3 + k) 0 =
      rest.getD (index * 3 + k) 0 := by
    intro k
    rw [show (index + 1) * 3 + k = index * 3 + k + 3 by ring]
    rfl
  have hfirst : (a :: b :: c :: rest).getD ((index + 1) * 3) 0 = rest.getD (index * 3) 0 := hplace 0
  have hless : ∀ k, (index + 1) * 3 + k < (a :: b :: c :: rest).length ↔
      index * 3 + k < rest.length := by
    intro k
    simp only [List.length_cons]
    omega
  simp only [quadAt, hplace, hfirst, hless]

theorem base64_three (a b c : UInt8) (rest : Bytes) :
    base64 (a :: b :: c :: rest) = quad a b c ++ base64 rest := by
  have hcount : ((a :: b :: c :: rest).length + 2) / 3 = (rest.length + 2) / 3 + 1 := by
    simp only [List.length_cons]
    omega
  rw [base64_quads, base64_quads, hcount, List.range_succ_eq_map, List.flatMap_cons, quadAt_zero,
    List.flatMap_map]
  simp only [Nat.succ_eq_add_one, quadAt_succ]

theorem base64_eq (data : Bytes) : base64 data = Base64.encode data := by
  match data with
  | [] => rfl
  | [a] =>
    rw [Base64.encode_one, ← quad_eq, base64_quads]
    simp [quadAt, quad]
  | [a, b] =>
    rw [Base64.encode_two, ← quad_eq, base64_quads]
    simp [quadAt, quad]
  | a :: b :: c :: rest => rw [base64_three, Base64.encode_three, quad_eq, base64_eq rest]

end Base64

section Lines

/-- The lines of a text that end with a line end. -/
def lines : Bytes → List Bytes
  | [] => []
  | [_] => []
  | b :: c :: rest =>
    if b = 0x0d ∧ c = 0x0a then [] :: lines rest
    else
      match lines (c :: rest) with
      | [] => []
      | line :: more => (b :: line) :: more

/-- The name and the value of a line, if it has a colon. -/
def fieldOf (line : Bytes) : Option (Bytes × Bytes) :=
  if 0x3a ∈ line then
    some (line.takeWhile (· ≠ 0x3a), ((line.dropWhile (· ≠ 0x3a)).drop 1).dropWhile (· = 0x20))
  else none

/-- The value of the first line in front of the blank one that has this name in lower case. -/
def valueIn (target : Bytes) (lines : List Bytes) : Option Bytes :=
  (((lines.takeWhile (· ≠ [])).filterMap fieldOf).find? fun f => lower f.1 = target).map Prod.snd

/-- A header of a request: the first line is not one. -/
def headerValue (request name : Bytes) : Option Bytes :=
  valueIn (lower name) ((lines request).drop 1)

theorem findFirst_crlf (b c : UInt8) (rest : Bytes) : findFirst crlf (b :: c :: rest) =
    if b = 0x0d ∧ c = 0x0a then some 0 else (findFirst crlf (c :: rest)).map (· + 1) := by
  have hstarts : crlf.isPrefixOf (b :: c :: rest) = true ↔ b = 0x0d ∧ c = 0x0a := by
    simp only [crlf, List.isPrefixOf, Bool.and_true, Bool.and_eq_true, beq_iff_eq]
    constructor
    · rintro ⟨rfl, rfl⟩
      exact ⟨rfl, rfl⟩
    · rintro ⟨rfl, rfl⟩
      exact ⟨rfl, rfl⟩
  rw [findFirst]
  simp only [hstarts]

theorem lines_of_none {text : Bytes} (h : findFirst crlf text = none) : lines text = [] := by
  fun_induction lines text with
  | case1 => rfl
  | case2 b => rfl
  | case3 b c rest hend ih =>
    rw [findFirst_crlf, if_pos hend] at h
    cases h
  | case4 b c rest hend hlines ih => rfl
  | case5 b c rest hend line more hlines ih =>
    rw [findFirst_crlf, if_neg hend, Option.map_eq_none_iff] at h
    rw [ih h] at hlines
    cases hlines

theorem lines_of_some {text : Bytes} {i : Nat} (h : findFirst crlf text = some i) :
    i + 2 ≤ text.length ∧ lines text = text.take i :: lines (text.drop (i + 2)) := by
  induction text generalizing i with
  | nil => cases h
  | cons b text ih =>
    cases text with
    | nil => simp [findFirst, crlf] at h
    | cons c rest =>
      rw [findFirst_crlf] at h
      split at h
      · rename_i hend
        cases h
        refine ⟨by simp, ?_⟩
        rw [lines, if_pos hend]
        rfl
      · rename_i hend
        obtain ⟨j, hj, rfl⟩ := Option.map_eq_some_iff.mp h
        obtain ⟨hlength, hlines⟩ := ih hj
        refine ⟨by simp only [List.length_cons] at hlength ⊢; omega, ?_⟩
        rw [lines, if_neg hend, hlines]
        rfl

theorem findFirst_crlf_drop {text : Bytes} (h : findFirst crlf text = none) :
    findFirst crlf (text.drop 1) = none := by
  rcases text with _ | ⟨b, _ | ⟨c, rest⟩⟩
  · exact h
  · rfl
  · rw [findFirst_crlf] at h
    split at h
    · cases h
    · exact Option.map_eq_none_iff.mp h

/-- The first place of a character. -/
theorem findFirst_some {text : Bytes} {c : UInt8} {j : Nat} (h : findFirst [c] text = some j) :
    j < text.length ∧ text.take j = text.takeWhile (· ≠ c) ∧
      text.drop j = text.dropWhile (· ≠ c) ∧ text[j]? = some c := by
  induction text generalizing j with
  | nil => cases h
  | cons b text ih =>
    rw [findFirst] at h
    by_cases hb : c = b
    · subst hb
      simp only [List.isPrefixOf, beq_self_eq_true, Bool.and_self, if_true] at h
      cases h
      simp
    · have hno : List.isPrefixOf [c] (b :: text) = false := by simp [List.isPrefixOf, hb]
      rw [hno] at h
      obtain ⟨k, hk, rfl⟩ := Option.map_eq_some_iff.mp h
      obtain ⟨hlt, htake, hdrop, hget⟩ := ih hk
      have hne : b ≠ c := fun heq => hb heq.symm
      refine ⟨by simpa using hlt, ?_, ?_, by simpa using hget⟩
      · rw [List.take_succ_cons, htake, List.takeWhile_cons_of_pos (by simpa using hne)]
      · rw [List.drop_succ_cons, hdrop, List.dropWhile_cons_of_pos (by simpa using hne)]

theorem findFirst_none {text : Bytes} {c : UInt8} (h : findFirst [c] text = none) : c ∉ text := by
  induction text with
  | nil => simp
  | cons b text ih =>
    rw [findFirst] at h
    split at h
    · cases h
    · rename_i hno
      simp only [List.isPrefixOf, Bool.and_true, beq_iff_eq] at hno
      simp only [List.mem_cons, not_or]
      exact ⟨hno, ih (Option.map_eq_none_iff.mp h)⟩

end Lines

section Header

theorem take_drop_cons {request : Bytes} {a stop : Nat} {c : UInt8} (hlt : a < stop)
    (hget : request[a]? = some c) : (request.drop a).take (stop - a) =
      c :: (request.drop (a + 1)).take (stop - (a + 1)) := by
  obtain ⟨ha, rfl⟩ := List.getElem?_eq_some_iff.mp hget
  rw [List.drop_eq_getElem_cons ha, show stop - a = stop - (a + 1) + 1 by omega,
    List.take_succ_cons]

theorem skipSpaces_eq {request : Bytes} {a stop : Nat} (hle : a ≤ stop)
    (hstop : stop ≤ request.length) : ∃ v, skipSpaces request a stop = some v ∧ v ≤ stop ∧
      (request.drop v).take (stop - v) =
        ((request.drop a).take (stop - a)).dropWhile (· = 0x20) := by
  fun_induction skipSpaces request a stop with
  | case1 a hlt hnone =>
    rw [List.getElem?_eq_none_iff] at hnone
    omega
  | case2 a hlt hget ih =>
    obtain ⟨v, hv, hvle, htake⟩ := ih (by omega)
    refine ⟨v, hv, hvle, ?_⟩
    rw [htake, take_drop_cons hlt hget, List.dropWhile_cons_of_pos (by simp)]
  | case3 a hlt c hget hspace =>
    refine ⟨a, rfl, by omega, ?_⟩
    rw [take_drop_cons hlt hget, List.dropWhile_cons_of_neg (by simpa using hspace)]
  | case4 a hlt =>
    refine ⟨a, rfl, hle, ?_⟩
    rw [show stop - a = 0 by omega, List.take_zero, List.dropWhile_nil]

theorem fieldOf_found {text : Bytes} {i j : Nat} (hji : j < i)
    (hfirst : findFirst [0x3a] text = some j) : fieldOf (text.take i) =
      some (text.take j, ((text.drop (j + 1)).take (i - (j + 1))).dropWhile (· = 0x20)) := by
  obtain ⟨hj, htake, hdrop, hget⟩ := findFirst_some hfirst
  have hline : text.take i = text.take j ++ 0x3a :: (text.drop (j + 1)).take (i - (j + 1)) := by
    rw [← take_drop_cons hji hget, ← List.take_add, show j + (i - j) = i by omega]
  have hno : ∀ c ∈ text.take j, decide (c ≠ 0x3a) = true := by
    rw [htake]
    exact fun c hc => by simpa using List.all_eq_true.mp List.all_takeWhile c hc
  rw [fieldOf, if_pos (by rw [hline]; simp), hline, List.takeWhile_append_of_pos hno,
    List.dropWhile_append_of_pos hno, List.takeWhile_cons_of_neg (by simp),
    List.dropWhile_cons_of_neg (by simp), List.append_nil]
  rfl

/-- What the loop finds in one line, at `start` up to `start + i`. -/
theorem namedColon_eq (request target : Bytes) (start i : Nat) (hlength : start + i ≤ request.length) :
    ∃ found, namedColon request target start (start + i) = some found ∧
      (found = none → ∀ f, fieldOf ((request.drop start).take i) = some f → lower f.1 ≠ target) ∧
      ∀ colon, found = some colon → colon < start + i ∧ ∃ f,
        fieldOf ((request.drop start).take i) = some f ∧ lower f.1 = target ∧
        f.2 = ((request.drop (colon + 1)).take (start + i - (colon + 1))).dropWhile (· = 0x20) := by
  have hnever : ((0x3a : UInt8) ∉ (request.drop start).take i) → ∀ f,
      fieldOf ((request.drop start).take i) = some f → lower f.1 ≠ target := by
    intro hno f hf
    rw [fieldOf, if_neg hno] at hf
    cases hf
  unfold namedColon find
  cases hfirst : findFirst [0x3a] (request.drop start) with
  | none =>
    refine ⟨none, rfl, fun _ => hnever ?_, fun colon hcolon => nomatch hcolon⟩
    exact fun hmem => findFirst_none hfirst (List.mem_of_mem_take hmem)
  | some j =>
    dsimp only [Option.map_some]
    by_cases hji : j < i
    · have hfield := fieldOf_found hji hfirst
      rw [List.drop_drop] at hfield
      rw [if_pos (by omega), substr, if_neg (by omega), Option.map_some,
        Nat.add_sub_cancel_left start j]
      refine ⟨_, rfl, fun hnone f hf => ?_, fun colon hcolon => ?_⟩
      · rw [hfield] at hf
        cases hf
        by_contra hsame
        rw [if_pos hsame] at hnone
        cases hnone
      · by_cases hsame : lower ((request.drop start).take j) = target
        · rw [if_pos hsame] at hcolon
          cases hcolon
          refine ⟨by omega, _, hfield, hsame, ?_⟩
          rw [show start + i - (start + j + 1) = i - (j + 1) by omega, Nat.add_assoc]
        · rw [if_neg hsame] at hcolon
          cases hcolon
    · obtain ⟨hj, htake, -⟩ := findFirst_some hfirst
      rw [if_neg (by omega)]
      refine ⟨none, rfl, fun _ => hnever fun hmem => ?_, fun colon hcolon => nomatch hcolon⟩
      have hbefore : (0x3a : UInt8) ∈ (request.drop start).take j :=
        (List.take_prefix_take_left (by omega)).subset hmem
      rw [htake] at hbefore
      simpa using List.all_eq_true.mp List.all_takeWhile _ hbefore

theorem valueIn_cons_other {target line : Bytes} (more : List Bytes) (hne : line ≠ [])
    (hother : ∀ f, fieldOf line = some f → lower f.1 ≠ target) :
    valueIn target (line :: more) = valueIn target more := by
  rw [valueIn, valueIn, List.takeWhile_cons_of_pos (by simpa using hne), List.filterMap_cons]
  cases hf : fieldOf line with
  | none => rfl
  | some f =>
    dsimp only
    rw [List.find?_cons_of_neg (by simpa using hother f hf)]

theorem valueIn_cons_same {target line : Bytes} {f : Bytes × Bytes} (more : List Bytes)
    (hf : fieldOf line = some f) (hsame : lower f.1 = target) :
    valueIn target (line :: more) = some f.2 := by
  have hne : line ≠ [] := by
    rintro rfl
    cases hf
  rw [valueIn, List.takeWhile_cons_of_pos (by simpa using hne), List.filterMap_cons, hf,
    List.find?_cons_of_pos (by simpa using hsame), Option.map_some]

theorem headerFrom_eq (request target : Bytes) (start : Nat) :
    headerFrom request target start = some (valueIn target (lines (request.drop start))) := by
  fun_induction headerFrom request target start with
  | case1 start hlt hfind =>
    have hnone : findFirst crlf (request.drop start) = none := Option.map_eq_none_iff.mp hfind
    rw [lines_of_none hnone]
    rfl
  | case2 start hlt hfind =>
    obtain ⟨i, hi, hzero⟩ := Option.map_eq_some_iff.mp hfind
    obtain rfl : i = 0 := by omega
    rw [(lines_of_some hi).2, List.take_zero]
    rfl
  | case3 start hlt stop hfind hne hnamed =>
    obtain ⟨i, hi, rfl⟩ := Option.map_eq_some_iff.mp hfind
    have hlength := (lines_of_some hi).1
    rw [List.length_drop] at hlength
    obtain ⟨found, hfound, -⟩ := namedColon_eq request target start i (by omega)
    rw [hfound] at hnamed
    cases hnamed
  | case4 start hlt stop hfind hne hnamed ih =>
    obtain ⟨i, hi, rfl⟩ := Option.map_eq_some_iff.mp hfind
    obtain ⟨hlength, hlines⟩ := lines_of_some hi
    rw [List.length_drop] at hlength
    obtain ⟨found, hfound, hother, -⟩ := namedColon_eq request target start i (by omega)
    rw [hfound] at hnamed
    obtain rfl := Option.some.inj hnamed
    have hline : (request.drop start).take i ≠ [] := by
      rw [← List.length_pos_iff, List.length_take, List.length_drop]
      omega
    rw [ih, hlines, List.drop_drop, valueIn_cons_other _ hline (hother rfl), Nat.add_assoc]
  | case5 start hlt stop hfind hne colon hnamed =>
    obtain ⟨i, hi, rfl⟩ := Option.map_eq_some_iff.mp hfind
    obtain ⟨hlength, hlines⟩ := lines_of_some hi
    rw [List.length_drop] at hlength
    obtain ⟨found, hfound, -, hthis⟩ := namedColon_eq request target start i (by omega)
    rw [hfound] at hnamed
    obtain rfl := Option.some.inj hnamed
    obtain ⟨hcolon, f, hf, hname, hvalue⟩ := hthis colon rfl
    have hstart : colon + 1 ≤ start + i := hcolon
    obtain ⟨v, hv, hvle, htake⟩ := skipSpaces_eq hstart (show start + i ≤ request.length by omega)
    rw [hv, Option.bind_some, substr, if_neg (by omega), Option.map_some, htake, ← hvalue, hlines,
      valueIn_cons_same _ hf hname]
  | case6 start hge =>
    rw [List.drop_of_length_le (by omega)]
    rfl

/-- Without a line end the scan starts at 1, and finds none there. -/
theorem header_eq {request : Bytes} (name : Bytes) (hlength : request.length < 2 ^ 64) :
    header request name = some (headerValue request name) := by
  rw [header, headerFrom_eq, headerValue]
  cases hfirst : findFirst crlf request with
  | none =>
    have hfind : find request crlf 0 = none := by rw [find, List.drop_zero, hfirst]; rfl
    have hstart : (npos + 2) % 2 ^ 64 = 1 := rfl
    rw [hfind, Option.getD_none, hstart, lines_of_none hfirst,
      lines_of_none (findFirst_crlf_drop hfirst)]
    rfl
  | some i =>
    obtain ⟨hle, hlines⟩ := lines_of_some hfirst
    have hfind : find request crlf 0 = some i := by
      rw [find, List.drop_zero, hfirst, Option.map_some, Nat.zero_add]
    rw [hfind, Option.getD_some, Nat.mod_eq_of_lt (by omega), hlines]
    rfl

end Header

section Response

/-- What a request must carry to be upgraded with a key. -/
structure Upgrades (request key : Bytes) : Prop where
  requestLine : ascii "GET /direct HTTP/1.1\r\n" <+: request
  upgrade : (headerValue request (ascii "Upgrade")).map lower = some (ascii "websocket")
  connection : ∃ value, headerValue request (ascii "Connection") = some value ∧
    ascii "upgrade" <:+: lower value
  version : headerValue request (ascii "Sec-WebSocket-Version") = some (ascii "13")
  asked : headerValue request (ascii "Sec-WebSocket-Key") = some key
  long : 20 ≤ key.length
  short : key.length ≤ 64

theorem findFirst_isSome {needle text : Bytes} :
    findFirst needle text = none ↔ ¬ needle <:+: text := by
  induction text with
  | nil =>
    rw [findFirst, List.infix_nil]
    split <;> simp [*]
  | cons b text ih =>
    rw [findFirst, List.infix_cons_iff, ← List.isPrefixOf_iff_prefix]
    split
    · simp [*]
    · simp [*]

theorem lower_getD {value : Option Bytes} {word : Bytes} (hne : word ≠ []) :
    lower (value.getD []) = word ↔ value.map lower = some word := by
  cases value with
  | none => simp [lower, hne.symm]
  | some value => simp

theorem contains_getD {value : Option Bytes} {word : Bytes} (hne : word ≠ [])
    (h : word <:+: lower (value.getD [])) : ∃ v, value = some v ∧ word <:+: lower v := by
  cases value with
  | none => exact absurd (List.eq_nil_of_infix_nil h) hne
  | some v => exact ⟨v, rfl, h⟩

theorem base64_accept (key : Bytes) : base64 (sha1 (key ++ kMagic)) =
    Base64.encode (SecureHash.sha1.digest (key ++ kMagic)) := by
  rw [base64_eq, sha1_eq]

/-- Every request is answered without a read out of range, and exactly the upgrades are accepted. -/
theorem upgrade_answered (request : Bytes) (hlength : request.length ≤ 16 * 1024) :
    ∃ answer, buildUpgradeResponse request = some answer ∧ ∀ response, answer = some response ↔
      ∃ key, Upgrades request key ∧ response =
        upgradeResponse (Base64.encode (SecureHash.sha1.digest (key ++ kMagic))) := by
  have hheader : ∀ name, header request name = some (headerValue request name) :=
    fun name => header_eq name (by omega)
  have hrefused : (∀ key, ¬ Upgrades request key) → ∀ response : Bytes,
      (none : Option Bytes) = some response ↔ ∃ key, Upgrades request key ∧ response =
        upgradeResponse (Base64.encode (SecureHash.sha1.digest (key ++ kMagic))) := by
    intro hno response
    constructor
    · intro h
      cases h
    · rintro ⟨key, hkey, -⟩
      exact absurd hkey (hno key)
  simp only [buildUpgradeResponse, hheader, Option.bind_some, Option.map_some]
  split
  · rename_i hline
    refine ⟨none, rfl, hrefused fun key hkey => ?_⟩
    rcases hline with hlong | hline
    · rw [kMaxUpgradeBytes] at hlong
      omega
    · rw [List.isPrefixOf_iff_prefix.mpr hkey.requestLine] at hline
      cases hline
  rename_i hline
  split
  · rename_i hwords
    refine ⟨none, rfl, hrefused fun key hkey => ?_⟩
    rcases hwords with hupgrade | hconnection
    · exact hupgrade ((lower_getD (by decide)).mpr hkey.upgrade)
    · obtain ⟨value, hvalue, hinside⟩ := hkey.connection
      rw [hvalue, Option.getD_some, find, List.drop_zero, Option.map_eq_none_iff] at hconnection
      exact findFirst_isSome.mp hconnection hinside
  rename_i hwords
  split
  · rename_i hversion
    exact ⟨none, rfl, hrefused fun key hkey => hversion hkey.version⟩
  rename_i hversion
  refine ⟨_, rfl, fun response => ?_⟩
  constructor
  · intro hanswer
    obtain ⟨key, hkey, hanswer⟩ := Option.bind_eq_some_iff.mp hanswer
    split at hanswer
    · cases hanswer
    · rename_i hsize
      cases hanswer
      rw [not_or] at hline hwords hsize
      obtain ⟨-, hline⟩ := hline
      obtain ⟨hupgrade, hconnection⟩ := hwords
      refine ⟨key, ⟨?_, ?_, ?_, of_not_not hversion, hkey, by omega, by omega⟩, by rw [base64_accept]⟩
      · rw [← List.isPrefixOf_iff_prefix]
        simpa using hline
      · exact (lower_getD (by decide)).mp (of_not_not hupgrade)
      · rw [find, List.drop_zero, Option.map_eq_none_iff, findFirst_isSome, not_not] at hconnection
        exact contains_getD (by decide) hconnection
  · rintro ⟨key, hkey, rfl⟩
    rw [hkey.asked, Option.bind_some, if_neg (by have := hkey.long; have := hkey.short; omega),
      base64_accept]

/-- The names in any case, in another order, one of them twice. -/
def sampleRequest : Bytes :=
  ascii "GET /direct HTTP/1.1\r\nSEC-websocket-KEY:  dGhlIHNhbXBsZSBub25jZQ==\r\n" ++
    ascii "connection: keep-alive, Upgrade\r\nsec-websocket-key: other\r\nUpgrade: WebSocket\r\n" ++
    ascii "Sec-WebSocket-Version: 13\r\n\r\n"

theorem upgrade_answered_sample : sampleRequest.length ≤ 16 * 1024 ∧
    buildUpgradeResponse sampleRequest =
      some (some (upgradeResponse (ascii "s3pPLMBiTxaQ9kYGzzhZRbK+xOo="))) ∧
    ∃ answer, buildUpgradeResponse sampleRequest = some answer ∧ ∀ response,
      answer = some response ↔ ∃ key, Upgrades sampleRequest key ∧ response =
        upgradeResponse (Base64.encode (SecureHash.sha1.digest (key ++ kMagic))) :=
  ⟨by decide +kernel, by decide +kernel, upgrade_answered sampleRequest (by decide +kernel)⟩

end Response

end HarmonyScreen.Proofs.Upgrade
