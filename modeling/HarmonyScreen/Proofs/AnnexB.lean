import HarmonyScreen.Host.MfH264Encoder

namespace HarmonyScreen.Proofs.AnnexB
open Receiver Host

variable {units : List Bytes} {bytes : Bytes} {size : Nat}

/-- The units behind their lengths. -/
def avcc (units : List Bytes) : Bytes := units.flatMap fun unit => bigEndian 4 unit.length ++ unit

/-- The units behind start codes. -/
def annexB (units : List Bytes) : Bytes := units.flatMap fun unit => startCode ++ unit

/-- An access unit that has its length in four bytes. -/
structure Units (units : List Bytes) : Prop where
  nonempty : units ≠ []
  filled : ∀ unit ∈ units, unit ≠ []
  short : ∀ unit ∈ units, unit.length < 2 ^ 32

def IsStartCode (code : Bytes) : Prop := code = [0, 0, 1] ∨ code = [0, 0, 0, 1]

/-- A unit without a start code inside that does not end in a zero byte. -/
structure NalUnit (unit : Bytes) : Prop where
  filled : unit ≠ []
  inside : ∀ code, IsStartCode code → ¬ code <:+: unit
  ends : unit.getLast? ≠ some 0

/-- Units, each behind a start code. -/
inductive IsAnnexB : Bytes → Prop where
  | last {code unit : Bytes} (hcode : IsStartCode code) (hunit : NalUnit unit) : IsAnnexB (code ++ unit)
  | more {code unit rest : Bytes} (hcode : IsStartCode code) (hunit : NalUnit unit)
    (hrest : IsAnnexB rest) : IsAnnexB (code ++ unit ++ rest)

/-- The first length reads like a start code. -/
def LooksLikeStartCode (size : Nat) : Prop := size = 1 ∨ (256 ≤ size ∧ size ≤ 511)

theorem bigEndian_four (size : Nat) : bigEndian 4 size =
    [(size / 2 ^ 24).toUInt8, (size / 2 ^ 16).toUInt8, (size / 2 ^ 8).toUInt8, size.toUInt8] := by
  simp [bigEndian]

theorem hasAnnexBStartCode_length (hsize : size < 2 ^ 32) (rest : Bytes) :
    hasAnnexBStartCode (bigEndian 4 size ++ rest) = true ↔ LooksLikeStartCode size := by
  rw [bigEndian_four]
  simp only [hasAnnexBStartCode, LooksLikeStartCode, List.cons_append, List.nil_append,
    List.getD_cons_zero, List.getD_cons_succ, List.length_cons, Bool.and_eq_true, Bool.or_eq_true,
    beq_iff_eq, decide_eq_true_eq, ← UInt8.toNat_inj, Nat.toUInt8, UInt8.toNat_ofNat']
  have h0 : (0 : UInt8).toNat = 0 := rfl
  have h1 : (1 : UInt8).toNat = 1 := rfl
  rw [h0, h1]
  omega

theorem bigEndian_eq_startCode (hsize : size < 2 ^ 32) : bigEndian 4 size = startCode ↔ size = 1 := by
  constructor
  · intro h
    have hread := congrArg readBig h
    rw [readBig_bigEndian, Nat.mod_eq_of_lt (by omega)] at hread
    rw [hread]
    decide
  · rintro rfl
    decide

/-- Both formats agree on units of one byte only. -/
theorem avcc_eq_annexB (hshort : ∀ unit ∈ units, unit.length < 2 ^ 32) :
    avcc units = annexB units ↔ ∀ unit ∈ units, unit.length = 1 := by
  induction units with
  | nil => simp [avcc, annexB]
  | cons unit units ih =>
    have hrest := fun u hu => hshort u (List.mem_cons_of_mem unit hu)
    simp only [avcc, annexB, List.flatMap_cons, List.append_assoc] at ih ⊢
    rw [List.forall_mem_cons, ← ih hrest, ← bigEndian_eq_startCode (hshort unit (by simp))]
    constructor
    · intro h
      obtain ⟨hcode, htail⟩ := List.append_inj h (by simp [startCode])
      exact ⟨hcode, List.append_cancel_left htail⟩
    · rintro ⟨hcode, htail⟩
      rw [hcode, htail]

/-- The loop goes through the units. -/
theorem normalizeLoop_units (before out : Bytes) (hfilled : ∀ unit ∈ units, unit ≠ [])
    (hshort : ∀ unit ∈ units, unit.length < 2 ^ 32) :
    normalizeLoop (before ++ avcc units) before.length out = out ++ annexB units := by
  induction units generalizing before out with
  | nil =>
    rw [normalizeLoop]
    simp [avcc, annexB]
  | cons unit units ih =>
    have hcons : before ++ avcc (unit :: units) =
        (before ++ bigEndian 4 unit.length ++ unit) ++ avcc units := by
      simp [avcc]
    have hsize : readBig (((before ++ avcc (unit :: units)).drop before.length).take 4) =
        unit.length := by
      have htake : ((before ++ avcc (unit :: units)).drop before.length).take 4 =
          bigEndian 4 unit.length := by
        rw [List.drop_left, avcc, List.flatMap_cons, List.append_assoc]
        exact List.take_left' (length_bigEndian 4 _)
      have hlt := hshort unit (by simp)
      rw [htake, readBig_bigEndian, Nat.mod_eq_of_lt (by omega)]
    have hunit : ((before ++ avcc (unit :: units)).drop (before.length + 4)).take unit.length =
        unit := by
      rw [← List.drop_drop, List.drop_left, avcc, List.flatMap_cons, List.append_assoc,
        List.drop_left' (length_bigEndian 4 _), List.take_left]
    have hlength : (before ++ avcc (unit :: units)).length =
        before.length + 4 + unit.length + (avcc units).length := by
      rw [hcons]
      simp
      omega
    have hpos : unit.length ≠ 0 := by
      simpa using hfilled unit (by simp)
    rw [normalizeLoop, if_pos (by omega)]
    dsimp only
    rw [hsize, if_neg (by omega), hunit, hcons]
    have hnext := ih (before ++ bigEndian 4 unit.length ++ unit) (out ++ startCode ++ unit)
      (fun u hu => hfilled u (List.mem_cons_of_mem unit hu))
      (fun u hu => hshort u (List.mem_cons_of_mem unit hu))
    rw [List.length_append, List.length_append, length_bigEndian] at hnext
    rw [hnext, annexB, annexB, List.flatMap_cons]
    simp

theorem normalize_annexB (h : IsAnnexB bytes) : normalizeAccessUnit bytes = bytes := by
  have hcode : ∀ {code unit rest : Bytes}, IsStartCode code → NalUnit unit →
      hasAnnexBStartCode (code ++ (unit ++ rest)) = true := by
    intro code unit rest hcode hunit
    obtain ⟨c, unit, rfl⟩ := List.exists_cons_of_ne_nil hunit.filled
    rcases hcode with rfl | rfl <;> simp [hasAnnexBStartCode]
  have hhas : hasAnnexBStartCode bytes = true := by
    cases h with
    | last hc hu => simpa using @hcode _ _ [] hc hu
    | more hc hu hrest =>
      rw [List.append_assoc]
      exact hcode hc hu
  rw [normalizeAccessUnit, if_pos hhas]

/-- The units of an access unit come out behind start codes exactly when the first length
does not read like a start code, or every unit is one byte long; and what is Annex-B is kept. -/
theorem normalize_units (units : List Bytes) (bytes : Bytes) :
    (Units units → (normalizeAccessUnit (avcc units) = annexB units ↔
      ¬ LooksLikeStartCode (units.headD []).length ∨ ∀ unit ∈ units, unit.length = 1)) ∧
    (IsAnnexB bytes → normalizeAccessUnit bytes = bytes) := by
  refine ⟨fun h => ?_, fun h => normalize_annexB h⟩
  obtain ⟨hnonempty, hfilled, hshort⟩ := h
  obtain ⟨unit, rest, rfl⟩ := List.exists_cons_of_ne_nil hnonempty
  have hhead : avcc (unit :: rest) = bigEndian 4 unit.length ++ (unit ++ avcc rest) := by
    simp [avcc]
  have hcode := hasAnnexBStartCode_length (hshort unit (by simp)) (unit ++ avcc rest)
  rw [← hhead] at hcode
  rw [List.headD_cons, ← hcode, normalizeAccessUnit]
  by_cases hlooks : hasAnnexBStartCode (avcc (unit :: rest)) = true
  · rw [if_pos hlooks, avcc_eq_annexB hshort]
    simp [hlooks]
  · rw [if_neg hlooks]
    have hloop := normalizeLoop_units [] [] hfilled hshort
    simp only [List.nil_append, List.length_nil] at hloop
    simp [hloop, hlooks]

/-- Two units, the first of one byte. -/
theorem normalize_units_short :
    normalizeAccessUnit (avcc [[0x65], [0x41, 0x9a]]) ≠ annexB [[0x65], [0x41, 0x9a]] := by
  decide

theorem normalize_units_plain :
    normalizeAccessUnit (avcc [[0x67, 0x42], [0x65]]) = annexB [[0x67, 0x42], [0x65]] :=
  ((normalize_units _ []).1 ⟨by decide, by decide, by decide⟩).mpr
    (.inl (by simp [LooksLikeStartCode]))

end HarmonyScreen.Proofs.AnnexB
