import HarmonyScreen.Extension.DirectProtocol
import HarmonyScreen.Receiver.NativeProtocol

namespace HarmonyScreen.Proofs.VideoFormat
open Receiver Protocol Extension DirectProtocol

/-- A field behind `count` written bytes is a field of the rest. -/
theorem field_behind (count value offset size : Nat) (data : Bytes) :
    field (bigEndian count value ++ data) (count + offset) size = field data offset size := by
  rw [field, field, ← List.drop_drop, List.drop_left' (length_bigEndian count value)]

/-- The field that was written first. -/
theorem field_written (count value : Nat) (data : Bytes) :
    field (bigEndian count value ++ data) 0 count = value % 256 ^ count := by
  rw [field, List.drop_zero, List.take_left' (length_bigEndian count value), readBig_bigEndian]

/-- Reading a field and writing it again gives the bytes it was read from. -/
theorem field_splits {data : Bytes} {offset count : Nat} (h : offset + count ≤ data.length) :
    data.drop offset = bigEndian count (field data offset count) ++ data.drop (offset + count) := by
  have hlength : ((data.drop offset).take count).length = count := by
    rw [List.length_take, List.length_drop]
    omega
  have hread := bigEndian_readBig ((data.drop offset).take count)
  rw [hlength] at hread
  rw [field, hread, ← List.drop_drop, List.take_append_drop]

theorem videoHeader_length (flags epoch sequence size timestamp : Nat) :
    (videoHeader flags epoch sequence size timestamp).length = kHeaderSize := by
  simp only [videoHeader, List.length_append, length_bigEndian]
  rfl

section Fields
variable (flags epoch sequence size timestamp : Nat) (payload : Bytes)

/-- The message as the decoder meets it. -/
def written : Bytes := videoHeader flags epoch sequence size timestamp ++ payload

/-- Every field of the header, at its offset. -/
theorem written_fields :
    let data := written flags epoch sequence size timestamp payload
    field data 0 4 = kVideoMagic ∧ field data 4 1 = kVersion ∧ field data 5 1 = flags % 256 ∧
      field data 6 2 = kHeaderSize ∧ field data 8 4 = epoch % 256 ^ 4 ∧
      field data 12 4 = sequence % 256 ^ 4 ∧ field data 16 4 = size % 256 ^ 4 ∧
      field data 20 4 = 0 ∧ field data 24 8 = timestamp % 256 ^ 8 := by
  intro data
  simp only [data, written, videoHeader, List.append_assoc]
  refine ⟨?_, ?_, ?_, ?_, ?_, ?_, ?_, ?_, ?_⟩
  · exact field_written 4 directVideoMagic _
  · exact (field_behind 4 _ 0 1 _).trans (field_written 1 directProtocol _)
  · exact (field_behind 4 _ 1 1 _).trans <| (field_behind 1 _ 0 1 _).trans <|
      (field_written 1 flags _).trans (by rw [pow_one])
  · exact (field_behind 4 _ 2 2 _).trans <| (field_behind 1 _ 1 2 _).trans <|
      (field_behind 1 _ 0 2 _).trans (field_written 2 directVideoHeaderSize _)
  · exact (field_behind 4 _ 4 4 _).trans <| (field_behind 1 _ 3 4 _).trans <|
      (field_behind 1 _ 2 4 _).trans <| (field_behind 2 _ 0 4 _).trans (field_written 4 epoch _)
  · exact (field_behind 4 _ 8 4 _).trans <| (field_behind 1 _ 7 4 _).trans <|
      (field_behind 1 _ 6 4 _).trans <| (field_behind 2 _ 4 4 _).trans <|
      (field_behind 4 _ 0 4 _).trans (field_written 4 sequence _)
  · exact (field_behind 4 _ 12 4 _).trans <| (field_behind 1 _ 11 4 _).trans <|
      (field_behind 1 _ 10 4 _).trans <| (field_behind 2 _ 8 4 _).trans <|
      (field_behind 4 _ 4 4 _).trans <| (field_behind 4 _ 0 4 _).trans (field_written 4 size _)
  · exact (field_behind 4 _ 16 4 _).trans <| (field_behind 1 _ 15 4 _).trans <|
      (field_behind 1 _ 14 4 _).trans <| (field_behind 2 _ 12 4 _).trans <|
      (field_behind 4 _ 8 4 _).trans <| (field_behind 4 _ 4 4 _).trans <|
      (field_behind 4 _ 0 4 _).trans (field_written 4 0 _)
  · exact (field_behind 4 _ 20 8 _).trans <| (field_behind 1 _ 19 8 _).trans <|
      (field_behind 1 _ 18 8 _).trans <| (field_behind 2 _ 16 8 _).trans <|
      (field_behind 4 _ 12 8 _).trans <| (field_behind 4 _ 8 8 _).trans <|
      (field_behind 4 _ 4 8 _).trans <| (field_behind 4 _ 0 8 _).trans (field_written 8 timestamp _)

/-- What the decoder makes of fields that fit. -/
theorem decode_written (hflags : flags ≤ kKeyframe) (hepoch : epoch < 256 ^ 4)
    (hsequence : sequence < 256 ^ 4) (hsize : payload.length = size) (hmax : size ≤ kMaxFrameBytes)
    (htimestamp : timestamp < 256 ^ 8) :
    decodeVideoHeader (written flags epoch sequence size timestamp payload) =
      if size = 0 then none else some ⟨epoch, sequence, flags, size, timestamp⟩ := by
  have hfit : size < 256 ^ 4 := by
    simp only [kMaxFrameBytes] at hmax
    omega
  have hkey : kKeyframe = 1 := rfl
  obtain ⟨h0, h4, h5, h6, h8, h12, h16, h20, h24⟩ :=
    written_fields flags epoch sequence size timestamp payload
  rw [Nat.mod_eq_of_lt (by omega)] at h5
  rw [Nat.mod_eq_of_lt hepoch] at h8
  rw [Nat.mod_eq_of_lt hsequence] at h12
  rw [Nat.mod_eq_of_lt hfit] at h16
  rw [Nat.mod_eq_of_lt htimestamp] at h24
  have hlength : (written flags epoch sequence size timestamp payload).length =
      kHeaderSize + size := by
    rw [written, List.length_append, videoHeader_length, hsize]
  unfold decodeVideoHeader
  simp only [h0, h4, h5, h6, h8, h12, h16, h20, h24, hlength]
  simp [Nat.not_lt.mpr hmax, Nat.not_lt.mpr hflags]

end Fields

/-- A message that is long enough is its header's fields, written again, and the payload. -/
theorem eq_written_fields {data : Bytes} (hlength : kHeaderSize ≤ data.length)
    (hmagic : field data 0 4 = kVideoMagic) (hversion : field data 4 1 = kVersion)
    (hsize : field data 6 2 = kHeaderSize) (hreserved : field data 20 4 = 0) :
    data = written (field data 5 1) (field data 8 4) (field data 12 4) (field data 16 4)
      (field data 24 8) (data.drop kHeaderSize) := by
  simp only [kHeaderSize] at hlength
  have h0 : data = bigEndian 4 (field data 0 4) ++ data.drop 4 :=
    @field_splits data 0 4 (by omega)
  have h4 : data.drop 4 = bigEndian 1 (field data 4 1) ++ data.drop 5 := field_splits (by omega)
  have h5 : data.drop 5 = bigEndian 1 (field data 5 1) ++ data.drop 6 := field_splits (by omega)
  have h6 : data.drop 6 = bigEndian 2 (field data 6 2) ++ data.drop 8 := field_splits (by omega)
  have h8 : data.drop 8 = bigEndian 4 (field data 8 4) ++ data.drop 12 := field_splits (by omega)
  have h12 : data.drop 12 = bigEndian 4 (field data 12 4) ++ data.drop 16 :=
    field_splits (by omega)
  have h16 : data.drop 16 = bigEndian 4 (field data 16 4) ++ data.drop 20 :=
    field_splits (by omega)
  have h20 : data.drop 20 = bigEndian 4 (field data 20 4) ++ data.drop 24 :=
    field_splits (by omega)
  have h24 : data.drop 24 = bigEndian 8 (field data 24 8) ++ data.drop 32 :=
    field_splits (by omega)
  rw [hmagic] at h0
  rw [hversion] at h4
  rw [hsize] at h6
  rw [hreserved] at h20
  calc data
      = bigEndian 4 kVideoMagic ++ data.drop 4 := h0
    _ = written (field data 5 1) (field data 8 4) (field data 12 4) (field data 16 4)
          (field data 24 8) (data.drop 32) := by
        rw [h4, h5, h6, h8, h12, h16, h20, h24]
        simp only [written, videoHeader, List.append_assoc]
        rfl

/-- What is true of the header the decoder returns. -/
theorem decodeVideoHeader_some {data : Bytes} {header : VideoHeader}
    (h : decodeVideoHeader data = some header) :
    data = written header.flags header.sourceEpoch header.sequence header.payloadLength
        header.timestampUs (data.drop kHeaderSize) ∧
      (data.drop kHeaderSize).length = header.payloadLength ∧ 0 < header.payloadLength ∧
      header.payloadLength ≤ kMaxFrameBytes ∧ header.flags ≤ kKeyframe ∧
      header.sourceEpoch < 2 ^ 32 ∧ header.sequence < 2 ^ 32 := by
  unfold decodeVideoHeader at h
  split at h
  · cases h
  rename_i hfirst
  simp only [not_or, Nat.not_lt, not_not] at hfirst
  obtain ⟨hlength, hmagic, hversion⟩ := hfirst
  dsimp only at h
  split at h
  · cases h
  rename_i hsecond
  simp only [not_or, Nat.not_lt, not_not] at hsecond
  obtain ⟨hsize, hreserved, hpositive, hmax, hflags, htotal⟩ := hsecond
  cases h
  have hfields : field data 8 4 < 2 ^ 32 ∧ field data 12 4 < 2 ^ 32 := by
    have h8 := readBig_lt ((data.drop 8).take 4)
    have h12 := readBig_lt ((data.drop 12).take 4)
    have hle : ∀ offset, 256 ^ ((data.drop offset).take 4).length ≤ 2 ^ 32 := fun offset =>
      le_trans (Nat.pow_le_pow_right (by decide) (List.length_take_le 4 _)) (by decide)
    exact ⟨lt_of_lt_of_le h8 (hle 8), lt_of_lt_of_le h12 (hle 12)⟩
  refine ⟨eq_written_fields hlength hmagic hversion hsize hreserved, ?_,
    Nat.pos_of_ne_zero hpositive, hmax, hflags, hfields⟩
  rw [List.length_drop, htotal, Nat.add_sub_cancel_left]

/-- The chunk a message of the wire stands for. -/
def chunkOf (header : VideoHeader) (payload : Bytes) : EncodedVideoChunk :=
  { type := if header.flags &&& kKeyframe ≠ 0 then "key" else "delta"
    timestamp := .integer header.timestampUs
    bytes := payload }

/-- The decoder reads from a message what the encoder was given. -/
def Agrees (chunk : EncodedVideoChunk) (sourceEpoch sequence : Number) (message : Bytes) : Prop :=
  ∃ header, decodeVideoHeader message = some header ∧
    sourceEpoch = .integer header.sourceEpoch ∧ sequence = .integer header.sequence ∧
    header.payloadLength = chunk.byteLength ∧ chunk.timestamp = .integer header.timestampUs ∧
    (header.flags &&& kKeyframe ≠ 0 ↔ chunk.type = "key") ∧
    message.drop kHeaderSize = chunk.bytes

/-- An accepted chunk is read back as it was, unless it is empty. -/
theorem agrees_iff {chunk : EncodedVideoChunk} {sourceEpoch sequence : Number} {message : Bytes}
    (h : createDirectVideoMessage chunk sourceEpoch sequence = .ok message) :
    Agrees chunk sourceEpoch sequence message ↔ chunk.byteLength ≠ 0 := by
  obtain ⟨epoch, number, timestamp, rfl, rfl, ht, hlength, he, hn, hb, rfl⟩ :=
    createDirectVideoMessage_ok.mp h
  have hdecode := decode_written (if chunk.type = "key" then 1 else 0) epoch number
    chunk.byteLength timestamp chunk.bytes (by split <;> decide) he hn rfl hlength (by omega)
  rw [written] at hdecode
  constructor
  · rintro ⟨header, hheader, -⟩ hzero
    rw [hdecode, if_pos hzero] at hheader
    cases hheader
  · intro hne
    rw [if_neg hne] at hdecode
    refine ⟨_, hdecode, rfl, rfl, rfl, ht, ?_, ?_⟩
    · split <;> simp_all [kKeyframe]
    · exact List.drop_left' (videoHeader_length _ _ _ _ _)

/-- What the decoder accepts is what the encoder makes of it. -/
theorem encode_decoded {data : Bytes} {header : VideoHeader}
    (h : decodeVideoHeader data = some header) (ht : header.timestampUs ≤ 2 ^ 53 - 1) :
    createDirectVideoMessage (chunkOf header (data.drop kHeaderSize)) (.integer header.sourceEpoch)
      (.integer header.sequence) = .ok data := by
  obtain ⟨hdata, hlength, -, hmax, hflags, he, hn⟩ := decodeVideoHeader_some h
  have hkey : (if (chunkOf header (data.drop kHeaderSize)).type = "key" then 1 else 0) =
      header.flags := by
    have hcases : header.flags = 0 ∨ header.flags = 1 := by
      simp only [kKeyframe] at hflags
      omega
    rcases hcases with hf | hf <;> simp [chunkOf, hf, kKeyframe]
  refine createDirectVideoMessage_ok.mpr ⟨header.sourceEpoch, header.sequence, header.timestampUs,
    rfl, rfl, rfl, ?_, he, hn, by omega, ?_⟩
  · exact hlength.trans_le hmax
  · rw [hkey, EncodedVideoChunk.byteLength]
    simp only [chunkOf, hlength]
    exact hdata

/-- Both directions of the format: an accepted chunk comes through exactly when
it is not empty, and an accepted message is the encoder's own. -/
theorem video_format_iff_nonempty (chunk : EncodedVideoChunk) (sourceEpoch sequence : Number)
    (message data : Bytes) (header : VideoHeader) :
    (createDirectVideoMessage chunk sourceEpoch sequence = .ok message →
      (Agrees chunk sourceEpoch sequence message ↔ chunk.byteLength ≠ 0)) ∧
    (decodeVideoHeader data = some header → header.timestampUs ≤ 2 ^ 53 - 1 →
      createDirectVideoMessage (chunkOf header (data.drop kHeaderSize))
        (.integer header.sourceEpoch) (.integer header.sequence) = .ok data) :=
  ⟨agrees_iff, encode_decoded⟩

def keyChunk : EncodedVideoChunk := ⟨"key", .integer 1000, [0, 0, 0, 1, 0x65]⟩

/-- A keyframe there and back. -/
theorem video_format_iff_nonempty_key :
    ∃ message header, createDirectVideoMessage keyChunk (.integer 9) (.integer 42) = .ok message ∧
      Agrees keyChunk (.integer 9) (.integer 42) message ∧ decodeVideoHeader message = some header ∧
      createDirectVideoMessage (chunkOf header (message.drop kHeaderSize))
        (.integer header.sourceEpoch) (.integer header.sequence) = .ok message := by
  have hmessage : createDirectVideoMessage keyChunk (.integer 9) (.integer 42) =
      .ok (written 1 9 42 5 1000 [0, 0, 0, 1, 0x65]) := by rfl
  have hheader : decodeVideoHeader (written 1 9 42 5 1000 [0, 0, 0, 1, 0x65]) =
      some ⟨9, 42, 1, 5, 1000⟩ := by decide
  obtain ⟨hagrees, hback⟩ := video_format_iff_nonempty keyChunk (.integer 9) (.integer 42) _ _ _
  exact ⟨_, _, hmessage, (hagrees hmessage).mpr (by decide), hheader, hback hheader (by decide)⟩

def emptyChunk : EncodedVideoChunk := ⟨"delta", .integer 1000, []⟩

/-- The encoder accepts an empty chunk, and the decoder refuses its message. -/
theorem empty_chunk_refused :
    ∃ message, createDirectVideoMessage emptyChunk (.integer 9) (.integer 42) = .ok message ∧
      decodeVideoHeader message = none ∧
      ¬ Agrees emptyChunk (.integer 9) (.integer 42) message := by
  refine ⟨written 0 9 42 0 1000 [], by rfl, by decide, ?_⟩
  rintro ⟨header, hheader, -⟩
  have hnone : decodeVideoHeader (written 0 9 42 0 1000 []) = none := by decide
  rw [hnone] at hheader
  cases hheader

end HarmonyScreen.Proofs.VideoFormat
