import HarmonyScreen.Receiver.AvcInput

namespace HarmonyScreen.Proofs.AvcSplit
open Receiver

/-- A NAL unit as Annex B allows it: without a start code, without three zeros in a row and
without a zero at either end. -/
structure IsNal (unit : Bytes) : Prop where
  nonempty : unit ≠ []
  first : unit.head? ≠ some 0
  code : ¬ [0, 0, 1] <:+: unit
  zeros : ¬ [0, 0, 0] <:+: unit
  last : unit.getLast? ≠ some 0

/-- A NAL unit behind a start code of four bytes or of three. -/
structure CodedNal where
  long : Bool
  unit : Bytes
  isNal : IsNal unit

namespace CodedNal

def bytes (n : CodedNal) : Bytes := (if n.long then [0, 0, 0, 1] else [0, 0, 1]) ++ n.unit

def nalType (n : CodedNal) : UInt8 := n.unit.headD 0 &&& 0x1f

def isCodecData (n : CodedNal) : Bool := n.nalType == 7 || n.nalType == 8

end CodedNal

/-- The units joined with their start codes. -/
def joined (units : List CodedNal) : Bytes := units.flatMap CodedNal.bytes

/-- The turns of the loop of `SplitAvcRecoveryInput` over the bytes from `start` on, and what
the function returns behind them. -/
inductive SplitTurns : Bytes → AvcRecoveryInput → AvcRecoveryInput → Prop where
  | finished (result : AvcRecoveryInput) : SplitTurns [] result result
  | malformed (result : AvcRecoveryInput) (more : bytes ≠ [])
      (h : avcStartCodeLength bytes = 0 ∨ bytes.drop (avcStartCodeLength bytes) = []) :
      SplitTurns bytes result {}
  | turn (code : avcStartCodeLength bytes ≠ 0)
      (nal : bytes.drop (avcStartCodeLength bytes) = header :: rest)
      (next : SplitTurns (bytes.drop (avcStartCodeLength bytes + 1 + findAvcStartCode rest))
        (result.add (header &&& 0x1f)
          (bytes.take (avcStartCodeLength bytes + 1 + findAvcStartCode rest))) final) :
      SplitTurns bytes result final

variable {bytes : Bytes} {result final : AvcRecoveryInput}

theorem startCode_within (h : avcStartCodeLength bytes ≠ 0) : [0, 0, 1] <:+: bytes := by
  unfold avcStartCodeLength at h
  split at h
  · rename_i hthree
    exact hthree ▸ (List.take_prefix 3 bytes).isInfix
  split at h
  · rename_i hfour
    have hcode : [0, 0, 1] <:+: ([0, 0, 0, 1] : Bytes) := ⟨[0], [], rfl⟩
    exact hcode.trans (hfour ▸ (List.take_prefix 4 bytes).isInfix)
  · exact absurd rfl h

theorem findAvcStartCode_none (h : ¬ [0, 0, 1] <:+: bytes) :
    findAvcStartCode bytes = bytes.length := by
  induction bytes with
  | nil => rfl
  | cons b bytes ih =>
    have hzero : avcStartCodeLength (b :: bytes) = 0 := by
      by_contra hcode
      exact h (startCode_within hcode)
    have htail := ih fun hcode => h (hcode.trans (List.suffix_cons b bytes).isInfix)
    simp [findAvcStartCode, hzero, htail]

/-- A unit of Annex B ends where the next start code begins. -/
theorem exists_nalUnit (n : CodedNal) : ∃ u : NalUnit,
    u.bytes = n.bytes ∧ u.nalType = n.nalType ∧ u.isCodecData = n.isCodecData := by
  obtain ⟨long, unit, hnal⟩ := n
  cases unit with
  | nil => exact absurd rfl hnal.nonempty
  | cons header body =>
    have hclean : findAvcStartCode body = body.length :=
      findAvcStartCode_none fun hcode =>
        hnal.code (hcode.trans (List.suffix_cons header body).isInfix)
    exact ⟨⟨long, header, body, hclean, getLast?_tail hnal.last⟩, rfl, rfl, rfl⟩

theorem exists_units (units : List CodedNal) : ∃ us : List NalUnit,
    us.map NalUnit.bytes = units.map CodedNal.bytes ∧
    us.map NalUnit.nalType = units.map CodedNal.nalType ∧
    accessUnitBytes (us.filter (·.isCodecData)) = joined (units.filter (·.isCodecData)) ∧
    accessUnitBytes (us.filter (!·.isCodecData)) = joined (units.filter (!·.isCodecData)) := by
  induction units with
  | nil => exact ⟨[], rfl, rfl, rfl, rfl⟩
  | cons n units ih =>
    obtain ⟨u, hbytes, htype, hcodec⟩ := exists_nalUnit n
    obtain ⟨us, hall, htypes, hdata, hsync⟩ := ih
    refine ⟨u :: us, by simp [hbytes, hall], by simp [htype, htypes], ?_, ?_⟩
    · simp only [accessUnitBytes, joined] at hdata ⊢
      by_cases h : n.isCodecData = true
      · simp [hcodec, h, hbytes, hdata]
      · simp [hcodec, h, hdata]
    · simp only [accessUnitBytes, joined] at hsync ⊢
      by_cases h : n.isCodecData = true
      · simp [hcodec, h, hsync]
      · simp [hcodec, h, hbytes, hsync]

/-- The parameter sets go one way and every other unit the other way. -/
theorem split_joined (units : List CodedNal) :
    splitAvcRecoveryInput (joined units) =
      { codecData := joined (units.filter (·.isCodecData))
        syncFrame := joined (units.filter (!·.isCodecData))
        hasSps := units.any (·.nalType == 7)
        hasPps := units.any (·.nalType == 8)
        hasIdr := units.any (·.nalType == 5) } := by
  obtain ⟨us, hall, htypes, hdata, hsync⟩ := exists_units units
  have hjoined : joined units = accessUnitBytes us := by
    rw [joined, accessUnitBytes, List.flatMap_def, List.flatMap_def, hall]
  have hany (t : UInt8) : us.any (·.nalType == t) = units.any (·.nalType == t) := by
    have h : (us.map NalUnit.nalType).any (· == t) = (units.map CodedNal.nalType).any (· == t) := by
      rw [htypes]
    rwa [List.any_map, List.any_map] at h
  rw [hjoined, splitAvcRecoveryInput_units, addAll_eq, hdata, hsync, hany, hany, hany]
  simp

/-- The loop ends: every turn takes a byte at least. -/
theorem splitLoop_turns (fuel : Nat) (bytes : Bytes) (result : AvcRecoveryInput)
    (h : bytes.length ≤ fuel) : SplitTurns bytes result (splitLoop fuel bytes result) := by
  induction fuel generalizing bytes result with
  | zero =>
    obtain rfl := List.length_eq_zero_iff.mp (Nat.le_zero.mp h)
    exact .finished result
  | succ fuel ih =>
    rw [splitLoop]
    by_cases hne : bytes = []
    · subst hne
      exact .finished result
    rw [if_neg hne]
    dsimp only
    split
    · rename_i hnone
      exact .malformed result hne (.inr hnone)
    · rename_i header rest hnal
      split
      · rename_i hzero
        exact .malformed result hne (.inl hzero)
      · rename_i hcode
        refine .turn hcode hnal (ih _ _ ?_)
        have hpos : 0 < bytes.length := List.length_pos_iff.mpr hne
        rw [List.length_drop]
        omega

/-- The bytes that are marked. -/
def chosen : List Bool → Bytes → Bytes
  | mark :: marks, b :: bytes => if mark then b :: chosen marks bytes else chosen marks bytes
  | _, _ => []

theorem chosen_append (marks more : List Bool) (bytes rest : Bytes)
    (h : marks.length = bytes.length) :
    chosen (marks ++ more) (bytes ++ rest) = chosen marks bytes ++ chosen more rest := by
  induction marks generalizing bytes with
  | nil =>
    obtain rfl := List.length_eq_zero_iff.mp h.symm
    rfl
  | cons mark marks ih =>
    cases bytes with
    | nil => simp at h
    | cons b bytes =>
      simp only [List.cons_append, chosen, ih bytes (by simpa using h)]
      split <;> rfl

theorem chosen_all (bytes : Bytes) : chosen (List.replicate bytes.length true) bytes = bytes := by
  induction bytes with
  | nil => rfl
  | cons b bytes ih => simp [List.replicate_succ, chosen, ih]

theorem chosen_none (bytes : Bytes) : chosen (List.replicate bytes.length false) bytes = [] := by
  induction bytes with
  | nil => rfl
  | cons b bytes ih => simp [List.replicate_succ, chosen, ih]

/-- Every byte goes to exactly one of the two outputs, in order. -/
def Divides (bytes codecData syncFrame : Bytes) : Prop :=
  ∃ marks : List Bool, marks.length = bytes.length ∧ codecData = chosen marks bytes ∧
    syncFrame = chosen (marks.map (!·)) bytes

theorem Divides.append {more codecData syncFrame codecData' syncFrame' : Bytes}
    (h : Divides bytes codecData syncFrame) (h' : Divides more codecData' syncFrame') :
    Divides (bytes ++ more) (codecData ++ codecData') (syncFrame ++ syncFrame') := by
  obtain ⟨marks, hlen, rfl, rfl⟩ := h
  obtain ⟨marks', hlen', rfl, rfl⟩ := h'
  refine ⟨marks ++ marks', by simp [hlen, hlen'], (chosen_append _ _ _ _ hlen).symm, ?_⟩
  rw [List.map_append, chosen_append _ _ _ _ (by simpa using hlen)]

/-- What one unit adds to the outputs. -/
theorem add_divides (result : AvcRecoveryInput) (nalType : UInt8) (nal : Bytes) :
    ∃ codecData syncFrame, Divides nal codecData syncFrame ∧
      (result.add nalType nal).codecData = result.codecData ++ codecData ∧
      (result.add nalType nal).syncFrame = result.syncFrame ++ syncFrame := by
  by_cases h : nalType = 7 ∨ nalType = 8
  · refine ⟨nal, [], ⟨List.replicate nal.length true, by simp, (chosen_all nal).symm, ?_⟩, ?_, ?_⟩
    · simp [chosen_none]
    · simp [AvcRecoveryInput.add, h]
    · simp [AvcRecoveryInput.add, h]
  · refine ⟨[], nal, ⟨List.replicate nal.length false, by simp, (chosen_none nal).symm, ?_⟩, ?_, ?_⟩
    · simp [chosen_all]
    · simp [AvcRecoveryInput.add, h]
    · simp [AvcRecoveryInput.add, h]

theorem SplitTurns.divides (h : SplitTurns bytes result final) :
    (final.codecData = [] ∧ final.syncFrame = []) ∨
    ∃ codecData syncFrame, Divides bytes codecData syncFrame ∧
      final.codecData = result.codecData ++ codecData ∧
      final.syncFrame = result.syncFrame ++ syncFrame := by
  induction h with
  | finished result => exact .inr ⟨[], [], ⟨[], rfl, rfl, rfl⟩, by simp, by simp⟩
  | malformed => exact .inl ⟨rfl, rfl⟩
  | turn code nal next ih =>
    refine ih.imp_right ?_
    rintro ⟨codecData, syncFrame, hrest, hdata, hsync⟩
    obtain ⟨codecData', syncFrame', hnal, hdata', hsync'⟩ := add_divides _ _ _
    refine ⟨_, _, ?_, hdata.trans (by rw [hdata', List.append_assoc]),
      hsync.trans (by rw [hsync', List.append_assoc])⟩
    have happend := hnal.append hrest
    rwa [List.take_append_drop] at happend

/-- Access units of Annex B are split into exactly their parameter sets and the rest; on any
bytes the loop ends, and the outputs are both empty or divide the input between them. -/
theorem split_faithful :
    (∀ units : List CodedNal, units ≠ [] → splitAvcRecoveryInput (joined units) =
      { codecData := joined (units.filter (·.isCodecData))
        syncFrame := joined (units.filter (!·.isCodecData))
        hasSps := units.any (·.nalType == 7)
        hasPps := units.any (·.nalType == 8)
        hasIdr := units.any (·.nalType == 5) }) ∧
    ∀ bytes, (findAvcStartCode bytes = 0 → SplitTurns bytes {} (splitAvcRecoveryInput bytes)) ∧
      (((splitAvcRecoveryInput bytes).codecData = [] ∧ (splitAvcRecoveryInput bytes).syncFrame = []) ∨
        Divides bytes (splitAvcRecoveryInput bytes).codecData (splitAvcRecoveryInput bytes).syncFrame) := by
  refine ⟨fun units _ => split_joined units, fun bytes => ?_⟩
  have hturns : findAvcStartCode bytes = 0 →
      SplitTurns bytes {} (splitAvcRecoveryInput bytes) := by
    intro hstart
    rw [splitAvcRecoveryInput, if_neg (by simpa using hstart)]
    exact splitLoop_turns _ _ _ (Nat.le_refl _)
  refine ⟨hturns, ?_⟩
  by_cases hstart : findAvcStartCode bytes = 0
  · refine (SplitTurns.divides (hturns hstart)).imp_right ?_
    rintro ⟨codecData, syncFrame, hdivides, hdata, hsync⟩
    rw [hdata, hsync]
    exact hdivides
  · refine .inl ?_
    rw [splitAvcRecoveryInput, if_pos hstart]
    exact ⟨rfl, rfl⟩

/-- A parameter set of one byte behind a long code, and an IDR picture behind a short one. -/
def oneByteSps : CodedNal := ⟨true, [0x67], by decide, by decide, by decide, by decide, by decide⟩

def shortIdr : CodedNal :=
  ⟨false, [0x65, 0, 0, 3, 1], by decide, by decide, by decide, by decide, by decide⟩

theorem oneByteSps_split :
    splitAvcRecoveryInput [0, 0, 0, 1, 0x67, 0, 0, 1, 0x65, 0, 0, 3, 1] =
      ⟨[0, 0, 0, 1, 0x67], [0, 0, 1, 0x65, 0, 0, 3, 1], true, false, true⟩ :=
  split_faithful.1 [oneByteSps, shortIdr] (by simp)

end HarmonyScreen.Proofs.AvcSplit
