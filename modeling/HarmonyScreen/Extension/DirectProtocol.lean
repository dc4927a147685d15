import HarmonyScreen.Receiver.Bytes

namespace HarmonyScreen.Extension
open Receiver

/-- A number of the script, as far as its checks tell numbers apart: an integer,
or one that `Number.isInteger` refuses. -/
inductive Number where
  | integer (value : Int)
  | other
  deriving DecidableEq, Repr

namespace Number

def maxSafeInteger : Int := 2 ^ 53 - 1

def isSafeInteger : Number → Bool
  | integer value => -maxSafeInteger ≤ value && value ≤ maxSafeInteger
  | other => false

/-- The value of a number that was checked to be an integer. -/
def toInt : Number → Int
  | integer value => value
  | other => 0

/-- An integer between zero and a bound. -/
def isWithin (bound : Int) : Number → Bool
  | integer value => 0 ≤ value && value ≤ bound
  | other => false

theorem isWithin_iff {bound : Int} {n : Number} :
    n.isWithin bound = true ↔ ∃ value : Nat, n = integer value ∧ (value : Int) ≤ bound := by
  cases n with
  | other => simp [isWithin]
  | integer value =>
    simp only [isWithin, Bool.and_eq_true, decide_eq_true_eq]
    constructor
    · rintro ⟨h₀, h₁⟩
      exact ⟨value.toNat, by rw [Int.toNat_of_nonneg h₀], by omega⟩
    · rintro ⟨v, hv, hb⟩
      cases hv
      exact ⟨by omega, hb⟩

end Number

namespace DirectProtocol

def directProtocol : Nat := 6
def directVideoMagic : Nat := 0x48574336
def directVideoHeaderSize : Nat := 32
def directVideoMaxPayloadBytes : Nat := 8 * 1024 * 1024
def uint32Max : Int := 0xffffffff

/-- A chunk the encoder has put out; `bytes` is what `copyTo` copies. -/
structure EncodedVideoChunk where
  type : String
  timestamp : Number
  bytes : Bytes
  deriving DecidableEq, Repr

def EncodedVideoChunk.byteLength (chunk : EncodedVideoChunk) : Nat := chunk.bytes.length

/-- What the `DataView` writes before the payload, in the order of the offsets. -/
def videoHeader (flags sourceEpoch sequence payloadLength timestamp : Nat) : Bytes :=
  bigEndian 4 directVideoMagic ++ (bigEndian 1 directProtocol ++ (bigEndian 1 flags ++
    (bigEndian 2 directVideoHeaderSize ++ (bigEndian 4 sourceEpoch ++ (bigEndian 4 sequence ++
      (bigEndian 4 payloadLength ++ (bigEndian 4 0 ++ bigEndian 8 timestamp)))))))

/-- `createDirectVideoMessage`, with the texts of the errors it throws. -/
def createDirectVideoMessage (chunk : EncodedVideoChunk) (sourceEpoch sequence : Number) :
    Except String Bytes :=
  if chunk.byteLength > directVideoMaxPayloadBytes then .error "H.264 编码块长度无效"
  else if !sourceEpoch.isWithin uint32Max then .error "来源 epoch无效"
  else if !sequence.isWithin uint32Max then .error "帧序号无效"
  else if !chunk.timestamp.isWithin Number.maxSafeInteger then .error "H.264 编码块时间戳无效"
  else
    .ok (videoHeader (if chunk.type = "key" then 1 else 0) sourceEpoch.toInt.toNat
      sequence.toInt.toNat chunk.byteLength chunk.timestamp.toInt.toNat ++ chunk.bytes)

/-- What it accepts, and what it then returns. -/
theorem createDirectVideoMessage_ok {chunk : EncodedVideoChunk} {sourceEpoch sequence : Number}
    {message : Bytes} :
    createDirectVideoMessage chunk sourceEpoch sequence = .ok message ↔
      ∃ epoch number timestamp : Nat, sourceEpoch = .integer epoch ∧ sequence = .integer number ∧
        chunk.timestamp = .integer timestamp ∧ chunk.byteLength ≤ directVideoMaxPayloadBytes ∧
        epoch < 2 ^ 32 ∧ number < 2 ^ 32 ∧ timestamp < 2 ^ 53 ∧
        message = videoHeader (if chunk.type = "key" then 1 else 0) epoch number chunk.byteLength
          timestamp ++ chunk.bytes := by
  unfold createDirectVideoMessage
  constructor
  · intro h
    split at h
    · cases h
    split at h
    · cases h
    split at h
    · cases h
    split at h
    · cases h
    rename_i hlength hepoch hsequence htimestamp
    simp only [Bool.not_eq_true', Bool.not_eq_false] at hepoch hsequence htimestamp
    obtain ⟨epoch, rfl, he⟩ := Number.isWithin_iff.mp hepoch
    obtain ⟨number, rfl, hn⟩ := Number.isWithin_iff.mp hsequence
    obtain ⟨timestamp, ht, hb⟩ := Number.isWithin_iff.mp htimestamp
    simp only [uint32Max, Number.maxSafeInteger] at he hn hb
    refine ⟨epoch, number, timestamp, rfl, rfl, ht, by omega, by omega, by omega, by omega, ?_⟩
    rw [ht] at h
    exact (Except.ok.inj h).symm
  · rintro ⟨epoch, number, timestamp, rfl, rfl, ht, hlength, he, hn, hb, rfl⟩
    have hepoch : (Number.integer epoch).isWithin uint32Max = true :=
      Number.isWithin_iff.mpr ⟨epoch, rfl, by simp only [uint32Max]; omega⟩
    have hsequence : (Number.integer number).isWithin uint32Max = true :=
      Number.isWithin_iff.mpr ⟨number, rfl, by simp only [uint32Max]; omega⟩
    have htimestamp : (Number.integer timestamp).isWithin Number.maxSafeInteger = true :=
      Number.isWithin_iff.mpr ⟨timestamp, rfl, by simp only [Number.maxSafeInteger]; omega⟩
    rw [if_neg (by omega), ht]
    simp [hepoch, hsequence, htimestamp, Number.toInt]

end DirectProtocol

end HarmonyScreen.Extension
