import HarmonyScreen.Receiver.Bytes

namespace HarmonyScreen.Receiver

structure AvcRecoveryInput where
  codecData : Bytes := []
  syncFrame : Bytes := []
  hasSps : Bool := false
  hasPps : Bool := false
  hasIdr : Bool := false
  deriving DecidableEq, Repr

def AvcRecoveryInput.complete (r : AvcRecoveryInput) : Bool := r.hasSps && r.hasPps && r.hasIdr

/-- `AvcStartCodeLength`; the bytes are those from the offset on. -/
def avcStartCodeLength (bytes : Bytes) : Nat :=
  if bytes.take 3 = [0, 0, 1] then 3
  else if bytes.take 4 = [0, 0, 0, 1] then 4
  else 0

/-- `FindAvcStartCode`, as the distance from the offset. -/
def findAvcStartCode : Bytes → Nat
  | [] => 0
  | b :: bytes => if avcStartCodeLength (b :: bytes) ≠ 0 then 0 else findAvcStartCode bytes + 1

def AvcRecoveryInput.add (r : AvcRecoveryInput) (nalType : UInt8) (nal : Bytes) :
    AvcRecoveryInput :=
  let codec := nalType = 7 ∨ nalType = 8
  { codecData := if codec then r.codecData ++ nal else r.codecData
    syncFrame := if codec then r.syncFrame else r.syncFrame ++ nal
    hasSps := r.hasSps || nalType == 7
    hasPps := r.hasPps || nalType == 8
    hasIdr := r.hasIdr || nalType == 5 }

/-- The loop of `SplitAvcRecoveryInput` over the bytes from `start` on. Every
turn takes at least a start code, so their length is fuel enough. -/
def splitLoop : Nat → Bytes → AvcRecoveryInput → AvcRecoveryInput
  | 0, _, result => result
  | fuel + 1, bytes, result =>
    if bytes = [] then result
    else
      let codeLength := avcStartCodeLength bytes
      match bytes.drop codeLength with
      | [] => {}
      | header :: rest =>
        if codeLength = 0 then {}
        else
          let next := codeLength + 1 + findAvcStartCode rest
          splitLoop fuel (bytes.drop next) (result.add (header &&& 0x1f) (bytes.take next))

def splitAvcRecoveryInput (bytes : Bytes) : AvcRecoveryInput :=
  if findAvcStartCode bytes ≠ 0 then {} else splitLoop bytes.length bytes {}

/-- A NAL unit in Annex-B form. Neither a start code nor a trailing zero stands
in its body, so that the next start code ends it. -/
structure NalUnit where
  long : Bool
  header : UInt8
  body : Bytes
  clean : findAvcStartCode body = body.length
  ending : body.getLast? ≠ some 0
  deriving DecidableEq

namespace NalUnit

def nalType (n : NalUnit) : UInt8 := n.header &&& 0x1f

def startCode (n : NalUnit) : Bytes := if n.long then [0, 0, 0, 1] else [0, 0, 1]

def bytes (n : NalUnit) : Bytes := n.startCode ++ n.header :: n.body

end NalUnit

/-- The bytes of an access unit: its NAL units one after another. -/
def accessUnitBytes (units : List NalUnit) : Bytes := units.flatMap NalUnit.bytes

theorem startCodeLength_startCode (n : NalUnit) (x : Bytes) :
    avcStartCodeLength (n.startCode ++ x) = n.startCode.length := by
  unfold NalUnit.startCode
  split <;> simp [avcStartCodeLength]

/-- What may follow a body: nothing, or the next start code. -/
def Boundary (x : Bytes) : Prop := x = [] ∨ ∃ (n : NalUnit) (y : Bytes), x = n.startCode ++ y

theorem Boundary.units (units : List NalUnit) : Boundary (accessUnitBytes units) := by
  cases units with
  | nil => exact .inl rfl
  | cons n units =>
    exact .inr ⟨n, n.header :: n.body ++ accessUnitBytes units, by
      simp [accessUnitBytes, NalUnit.bytes]⟩

theorem findAvcStartCode_boundary {x : Bytes} (hx : Boundary x) : findAvcStartCode x = 0 := by
  rcases hx with rfl | ⟨n, y, rfl⟩
  · rfl
  · have := startCodeLength_startCode n y
    match h : n.startCode ++ y with
    | [] => rfl
    | b :: rest =>
      rw [h] at this
      rw [findAvcStartCode, if_pos]
      rw [this]
      unfold NalUnit.startCode
      split <;> decide

/-- What follows a body cannot complete a start code begun in it. -/
theorem startCodeLength_append {body : Bytes} (x : Bytes) (hne : body ≠ [])
    (hend : body.getLast? ≠ some 0) (h : avcStartCodeLength body = 0) :
    avcStartCodeLength (body ++ x) = 0 := by
  match body with
  | [b] | [b, c] | [b, c, d] =>
    simp [avcStartCodeLength] at hend h ⊢
    simp_all
  | b :: c :: d :: e :: rest =>
    simpa [avcStartCodeLength] using h

theorem getLast?_tail {b : UInt8} {body : Bytes} (h : (b :: body).getLast? ≠ some 0) :
    body.getLast? ≠ some 0 := by
  cases body with
  | nil => simp
  | cons c body => rwa [List.getLast?_cons_cons] at h

theorem findAvcStartCode_append {body x : Bytes} (hc : findAvcStartCode body = body.length)
    (hend : body.getLast? ≠ some 0) (hx : Boundary x) :
    findAvcStartCode (body ++ x) = body.length := by
  induction body with
  | nil => exact findAvcStartCode_boundary hx
  | cons b body ih =>
    simp only [findAvcStartCode, List.length_cons] at hc
    split at hc
    · omega
    · rename_i hzero
      have happ := startCodeLength_append x (by simp) hend (not_not.mp hzero)
      rw [List.cons_append] at happ ⊢
      rw [findAvcStartCode, if_neg (not_not.mpr happ),
        ih (by omega) (getLast?_tail hend), List.length_cons]

theorem startCode_length (n : NalUnit) : n.startCode.length = 3 ∨ n.startCode.length = 4 := by
  unfold NalUnit.startCode
  split <;> simp

/-- The result of adding the units one after another. -/
def AvcRecoveryInput.addAll (r : AvcRecoveryInput) (units : List NalUnit) : AvcRecoveryInput :=
  units.foldl (fun r n => r.add n.nalType n.bytes) r

/-- One turn of the loop takes exactly one NAL unit. -/
theorem splitLoop_unit (fuel : Nat) (n : NalUnit) (units : List NalUnit) (r : AvcRecoveryInput) :
    splitLoop (fuel + 1) (n.bytes ++ accessUnitBytes units) r =
      splitLoop fuel (accessUnitBytes units) (r.add n.nalType n.bytes) := by
  have hcode : avcStartCodeLength (n.bytes ++ accessUnitBytes units) = n.startCode.length := by
    rw [NalUnit.bytes, List.append_assoc]
    exact startCodeLength_startCode n _
  have hfind := findAvcStartCode_append n.clean n.ending (Boundary.units units)
  have hlen : n.startCode.length + 1 + n.body.length = n.bytes.length := by
    simp [NalUnit.bytes]
    omega
  have hdrop : (n.bytes ++ accessUnitBytes units).drop n.startCode.length =
      n.header :: (n.body ++ accessUnitBytes units) := by
    rw [NalUnit.bytes, List.append_assoc, List.drop_left, List.cons_append]
  have hne : n.bytes ++ accessUnitBytes units ≠ [] := by simp [NalUnit.bytes]
  have hpos : n.startCode.length ≠ 0 := by
    rcases startCode_length n with h | h <;> omega
  rw [splitLoop, if_neg hne, hcode]
  simp only [hdrop, hpos, if_false, hfind, hlen, List.drop_left, List.take_left, NalUnit.nalType]

theorem splitLoop_units (fuel : Nat) (units : List NalUnit) (r : AvcRecoveryInput)
    (hf : units.length ≤ fuel) : splitLoop fuel (accessUnitBytes units) r = r.addAll units := by
  induction units generalizing fuel r with
  | nil => cases fuel <;> simp [splitLoop, accessUnitBytes, AvcRecoveryInput.addAll]
  | cons n units ih =>
    match fuel with
    | fuel + 1 =>
      have hunits : accessUnitBytes (n :: units) = n.bytes ++ accessUnitBytes units := rfl
      rw [hunits, splitLoop_unit, ih fuel _ (by simpa using hf)]
      rfl

theorem length_accessUnitBytes (units : List NalUnit) :
    units.length ≤ (accessUnitBytes units).length := by
  induction units with
  | nil => simp
  | cons n units ih =>
    simp only [accessUnitBytes, List.flatMap_cons, List.length_append, NalUnit.bytes,
      List.length_cons] at ih ⊢
    omega

/-- An access unit is split into exactly its NAL units. -/
theorem splitAvcRecoveryInput_units (units : List NalUnit) :
    splitAvcRecoveryInput (accessUnitBytes units) = AvcRecoveryInput.addAll {} units := by
  rw [splitAvcRecoveryInput, findAvcStartCode_boundary (Boundary.units units), if_neg (by simp),
    splitLoop_units _ _ _ (length_accessUnitBytes units)]

def NalUnit.isCodecData (n : NalUnit) : Bool := n.nalType == 7 || n.nalType == 8

theorem addAll_eq (units : List NalUnit) (r : AvcRecoveryInput) :
    r.addAll units =
      { codecData := r.codecData ++ accessUnitBytes (units.filter (·.isCodecData))
        syncFrame := r.syncFrame ++ accessUnitBytes (units.filter (!·.isCodecData))
        hasSps := r.hasSps || units.any (·.nalType == 7)
        hasPps := r.hasPps || units.any (·.nalType == 8)
        hasIdr := r.hasIdr || units.any (·.nalType == 5) } := by
  induction units generalizing r with
  | nil => simp [AvcRecoveryInput.addAll, accessUnitBytes]
  | cons n units ih =>
    have hcons : r.addAll (n :: units) = (r.add n.nalType n.bytes).addAll units := rfl
    rw [hcons, ih]
    by_cases hn : n.nalType = 7 ∨ n.nalType = 8
    · have hc : n.isCodecData = true := by simpa [NalUnit.isCodecData] using hn
      simp [AvcRecoveryInput.add, hn, hc, accessUnitBytes, Bool.or_assoc]
    · have hc : n.isCodecData = false := by simpa [NalUnit.isCodecData] using hn
      simp [AvcRecoveryInput.add, hn, hc, accessUnitBytes, Bool.or_assoc]

theorem accessUnitBytes_ne_nil {units : List NalUnit} {n : NalUnit} (h : n ∈ units) :
    accessUnitBytes units ≠ [] := by
  intro hnil
  have := List.flatMap_eq_nil_iff.mp hnil n h
  simp [NalUnit.bytes] at this

/-- Parameter sets and an IDR picture: what `SplitAvcRecoveryInput` calls complete. -/
def IsRecovery (units : List NalUnit) : Prop :=
  (∃ n ∈ units, n.nalType = 7) ∧ (∃ n ∈ units, n.nalType = 8) ∧ ∃ n ∈ units, n.nalType = 5

instance (units : List NalUnit) : Decidable (IsRecovery units) :=
  inferInstanceAs (Decidable (_ ∧ _ ∧ _))

/-- A recovery access unit splits into two parts, neither of them empty. -/
theorem recovery_parts {units : List NalUnit} (h : IsRecovery units) :
    let r := splitAvcRecoveryInput (accessUnitBytes units)
    r.complete = true ∧ r.codecData ≠ [] ∧ r.syncFrame ≠ [] := by
  obtain ⟨⟨s, hs, hst⟩, ⟨p, hp, hpt⟩, i, hi, hit⟩ := h
  rw [splitAvcRecoveryInput_units, addAll_eq]
  refine ⟨?_, ?_, ?_⟩
  · simp only [AvcRecoveryInput.complete, Bool.false_or, Bool.and_eq_true, List.any_eq_true,
      beq_iff_eq]
    exact ⟨⟨⟨s, hs, hst⟩, p, hp, hpt⟩, i, hi, hit⟩
  · exact accessUnitBytes_ne_nil (n := s)
      (List.mem_filter.mpr ⟨hs, by simp [NalUnit.isCodecData, hst]⟩)
  · exact accessUnitBytes_ne_nil (n := i)
      (List.mem_filter.mpr ⟨hi, by simp [NalUnit.isCodecData, hit]⟩)

end HarmonyScreen.Receiver
