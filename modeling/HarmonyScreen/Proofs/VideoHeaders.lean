import HarmonyScreen.Host.VideoHeader
import HarmonyScreen.Proofs.Fragments

namespace HarmonyScreen.Proofs.VideoHeaders
open Receiver Host VideoFormat Fragments
open Receiver.Protocol (field)

variable {header : VideoHeader} {payload datagram packet stream : Bytes} {reserved : Nat}
  {frame : PipeFrame} {session : UInt32} {count index : Nat}

/-- A header in front of its payload. -/
structure Describes (header : VideoHeader) (payload : Bytes) : Prop where
  fragment : header.fragment < header.fragments
  payloadLength : payload.length = header.payloadLength.toNat
  fits : payload.length ≤ kMaxUdpPayload

/-- A header's encoding with something in its reserved field. -/
def reserving (header : VideoHeader) (reserved : Nat) : Bytes :=
  (encodeVideoHeader header).take 22 ++
    (bigEndian 2 reserved ++ (encodeVideoHeader header).drop 24)

/-- The encoding is what stands in front of the field, the field and what stands behind it. -/
theorem reserving_eq (header : VideoHeader) (reserved : Nat) : reserving header reserved =
    bigEndian 4 kVideoMagic ++ (bigEndian 1 kProtocolVersion.toNat ++
      (bigEndian 1 kVideoHeaderSize ++ (bigEndian 2 header.flags.toNat ++
      (bigEndian 4 header.session.toNat ++ (bigEndian 4 header.frame.toNat ++
      (bigEndian 2 header.fragment.toNat ++ (bigEndian 2 header.fragments.toNat ++
      (bigEndian 2 header.payloadLength.toNat ++ (bigEndian 2 reserved ++
      bigEndian 8 header.timestampUs.toNat))))))))) := by
  obtain ⟨front, hfront⟩ : ∃ front, front = bigEndian 4 kVideoMagic ++
      (bigEndian 1 kProtocolVersion.toNat ++ (bigEndian 1 kVideoHeaderSize ++
      (bigEndian 2 header.flags.toNat ++ (bigEndian 4 header.session.toNat ++
      (bigEndian 4 header.frame.toNat ++ (bigEndian 2 header.fragment.toNat ++
      (bigEndian 2 header.fragments.toNat ++ bigEndian 2 header.payloadLength.toNat))))))) := ⟨_, rfl⟩
  have hencode : encodeVideoHeader header =
      front ++ (bigEndian 2 0 ++ bigEndian 8 header.timestampUs.toNat) := by
    simp only [hfront, encodeVideoHeader, List.append_assoc]
  have hlength : front.length = 22 := by simp [hfront]
  have hlength' : (front ++ bigEndian 2 0).length = 24 := by simp [hlength]
  rw [reserving, hencode, List.take_left' hlength, ← List.append_assoc front (bigEndian 2 0),
    List.drop_left' hlength']
  simp only [hfront, List.append_assoc]

theorem encode_eq (header : VideoHeader) : encodeVideoHeader header = reserving header 0 :=
  (reserving_eq header 0).symm

@[simp] theorem length_reserving (header : VideoHeader) (reserved : Nat) :
    (reserving header reserved).length = kVideoHeaderSize := by
  simp [reserving_eq, kVideoHeaderSize]

/-- The fields are read back, whatever is reserved. -/
theorem decode_reserving (h : Describes header payload) :
    decodeVideoHeader (reserving header reserved ++ payload) = some header := by
  obtain ⟨hfragment, hlength, hfits⟩ := h
  have hmagic : field (reserving header reserved ++ payload) 0 4 = kVideoMagic := by
    simp [reserving_eq, field_written, kVideoMagic]
  have hversion : field (reserving header reserved ++ payload) 4 1 = kProtocolVersion.toNat := by
    simp [reserving_eq, field_skip, field_written, kProtocolVersion]
  have hsize : field (reserving header reserved ++ payload) 5 1 = kVideoHeaderSize := by
    simp [reserving_eq, field_skip, field_written, kVideoHeaderSize]
  have hflags : (field (reserving header reserved ++ payload) 6 2).toUInt16 = header.flags := by
    simp [reserving_eq, field_skip, field_written]
  have hsession : (field (reserving header reserved ++ payload) 8 4).toUInt32 = header.session := by
    simp [reserving_eq, field_skip, field_written]
  have hframe : (field (reserving header reserved ++ payload) 12 4).toUInt32 = header.frame := by
    simp [reserving_eq, field_skip, field_written]
  have hindex : (field (reserving header reserved ++ payload) 16 2).toUInt16 = header.fragment := by
    simp [reserving_eq, field_skip, field_written]
  have hcount : (field (reserving header reserved ++ payload) 18 2).toUInt16 = header.fragments := by
    simp [reserving_eq, field_skip, field_written]
  have hpayload : (field (reserving header reserved ++ payload) 20 2).toUInt16 = header.payloadLength := by
    simp [reserving_eq, field_skip, field_written]
  have htimestamp : (field (reserving header reserved ++ payload) 24 8).toUInt64 = header.timestampUs := by
    simp [reserving_eq, field_skip, field_written]
  have htotal : (reserving header reserved ++ payload).length = kVideoHeaderSize + payload.length := by
    simp
  rw [decodeVideoHeader, if_neg (by simp [hmagic, hversion, hsize, htotal])]
  simp only [hflags, hsession, hframe, hindex, hcount, hpayload, htimestamp, htotal]
  rw [if_neg]
  rintro (hzero | hbeyond | hlong | hother)
  · rw [hzero] at hfragment
    exact absurd hfragment (by simp)
  · exact absurd hfragment (by simpa using hbeyond)
  · omega
  · omega

/-- A field is what its bytes say. -/
theorem field_bytes {offset size : Nat} (h : offset + size ≤ datagram.length) (rest : Bytes)
    (hrest : datagram.drop (offset + size) = rest) :
    datagram.drop offset = bigEndian size (field datagram offset size) ++ rest := by
  rw [← hrest]
  exact field_splits h

theorem decode_sound (h : decodeVideoHeader datagram = some header) :
    ∃ reserved payload, reserved < 256 ^ 2 ∧ Describes header payload ∧
      datagram = reserving header reserved ++ payload := by
  unfold decodeVideoHeader at h
  dsimp only at h
  split_ifs at h with hfront hbody
  obtain rfl := Option.some.inj h
  simp only [not_or, not_lt, not_not, ge_iff_le] at hfront hbody
  obtain ⟨hlong, hmagic, hversion, hsize⟩ := hfront
  obtain ⟨-, hfragment, hfits, hlength⟩ := hbody
  simp only [kVideoHeaderSize] at hlong hlength
  have hrest : (datagram.drop 32).length = datagram.length - 32 := List.length_drop
  refine ⟨field datagram 22 2, datagram.drop 32, field_lt _ _ _, ⟨?_, ?_, ?_⟩, ?_⟩
  · exact UInt16.not_le.mp hfragment
  · dsimp only
    omega
  · simp only [kMaxUdpPayload] at hfits ⊢
    omega
  · have h24 := @field_bytes datagram 24 8 (by omega) _ rfl
    have h22 := @field_bytes datagram 22 2 (by omega) _ h24
    have h20 := @field_bytes datagram 20 2 (by omega) _ h22
    have h18 := @field_bytes datagram 18 2 (by omega) _ h20
    have h16 := @field_bytes datagram 16 2 (by omega) _ h18
    have h12 := @field_bytes datagram 12 4 (by omega) _ h16
    have h8 := @field_bytes datagram 8 4 (by omega) _ h12
    have h6 := @field_bytes datagram 6 2 (by omega) _ h8
    have h5 := @field_bytes datagram 5 1 (by omega) _ h6
    have h4 := @field_bytes datagram 4 1 (by omega) _ h5
    have h0 := @field_bytes datagram 0 4 (by omega) _ h4
    rw [List.drop_zero, hmagic, hversion, hsize] at h0
    have h16bit (offset : Nat) : (field datagram offset 2).toUInt16.toNat = field datagram offset 2 :=
      Nat.mod_eq_of_lt (field_lt datagram offset 2)
    have h32bit (offset : Nat) : (field datagram offset 4).toUInt32.toNat = field datagram offset 4 :=
      Nat.mod_eq_of_lt (field_lt datagram offset 4)
    have h64bit (offset : Nat) : (field datagram offset 8).toUInt64.toNat = field datagram offset 8 :=
      Nat.mod_eq_of_lt (field_lt datagram offset 8)
    simpa only [reserving_eq, List.append_assoc, h16bit, h32bit, h64bit] using h0

/-- The decoder accepts the datagrams that are a header's encoding and its payload, and reads the
header back; only the reserved field is free. -/
theorem decode_iff : decodeVideoHeader datagram = some header ↔
    ∃ reserved payload, reserved < 256 ^ 2 ∧ Describes header payload ∧
      datagram = (encodeVideoHeader header).take 22 ++
        (bigEndian 2 reserved ++ (encodeVideoHeader header).drop 24) ++ payload := by
  constructor
  · exact decode_sound
  · rintro ⟨reserved, payload, -, hdescribes, rfl⟩
    exact decode_reserving hdescribes

/-- What the header at an index says of its frame. -/
structure Tells (frame : PipeFrame) (session : UInt32) (count index : Nat) (header : VideoHeader) :
    Prop where
  session : header.session = session
  number : header.frame = frame.frame
  timestamp : header.timestampUs = frame.timestampUs
  fragment : header.fragment.toNat = index
  fragments : header.fragments.toNat = count
  keyframe : hasFlag header.flags VideoFlags.kKeyframe = decide (frame.flags &&& 1 ≠ 0)
  codecConfig : hasFlag header.flags VideoFlags.kCodecConfig = decide (frame.flags &&& 2 ≠ 0)
  endOfFrame : hasFlag header.flags VideoFlags.kEndOfFrame = decide (index + 1 = count)

/-- The datagrams carry the frame, each its part of it. -/
structure Carries (frame : PipeFrame) (session : UInt32) (packets : List Bytes) : Prop where
  nonempty : packets ≠ []
  tells : ∀ index packet, packets[index]? = some packet →
    ∃ header, decodeVideoHeader packet = some header ∧ Tells frame session packets.length index header
  size : ∀ packet ∈ packets, packet.length ≤ kVideoHeaderSize + kMaxUdpPayload
  payload : (packets.map (·.drop kVideoHeaderSize)).flatten = frame.payload

/-- The slice of the payload at an index. -/
def slice (frame : PipeFrame) (index : Nat) : Bytes :=
  (frame.payload.drop (index * kMaxUdpPayload)).take kMaxUdpPayload

theorem length_slice (frame : PipeFrame) (index : Nat) : (slice frame index).length =
    min kMaxUdpPayload (frame.payload.length - index * kMaxUdpPayload) := by
  rw [slice, List.length_take, List.length_drop]

theorem hasFlag_flags {flags : UInt16} {key config last : Prop} [Decidable key] [Decidable config]
    [Decidable last] (h : flags = (if key then VideoFlags.kKeyframe else VideoFlags.kNone) |||
      (if config then VideoFlags.kCodecConfig else VideoFlags.kNone) |||
      (if last then VideoFlags.kEndOfFrame else VideoFlags.kNone)) :
    hasFlag flags VideoFlags.kKeyframe = decide key ∧
      hasFlag flags VideoFlags.kCodecConfig = decide config ∧
      hasFlag flags VideoFlags.kEndOfFrame = decide last := by
  subst h
  by_cases hkey : key <;> by_cases hconfig : config <;> by_cases hlast : last <;>
    simp only [hkey, hconfig, hlast, if_true, if_false] <;> decide

theorem datagram_splits (hindex : index < count) (hcount : count ≤ 0xFFFF) :
    ∃ header, videoDatagram frame session count index = reserving header 0 ++ slice frame index ∧
      Describes header (slice frame index) ∧ Tells frame session count index header := by
  have hslice := length_slice frame index
  have htake : (frame.payload.drop (index * kMaxUdpPayload)).take
      (min kMaxUdpPayload (frame.payload.length - index * kMaxUdpPayload)) = slice frame index := by
    rw [← List.length_drop, ← List.take_eq_take_min, slice]
  have hlength : (min kMaxUdpPayload
      (frame.payload.length - index * kMaxUdpPayload)).toUInt16.toNat = (slice frame index).length := by
    rw [hslice]
    refine Nat.mod_eq_of_lt ?_
    simp only [kMaxUdpPayload]
    omega
  have hindex16 : index.toUInt16.toNat = index := Nat.mod_eq_of_lt (by omega)
  have hcount16 : count.toUInt16.toNat = count := Nat.mod_eq_of_lt (by omega)
  refine ⟨_, (congrArg (encodeVideoHeader _ ++ ·) htake : videoDatagram frame session count index = _),
    ?_, ?_⟩
  · refine ⟨UInt16.lt_iff_toNat_lt.mpr ?_, hlength.symm, ?_⟩
    · rwa [hindex16, hcount16]
    · rw [hslice]
      exact Nat.min_le_left _ _
  · obtain ⟨hkeyframe, hconfig, hlast⟩ := @hasFlag_flags _ (frame.flags &&& 1 ≠ 0)
      (frame.flags &&& 2 ≠ 0) (index + 1 = count) _ _ _ rfl
    exact ⟨rfl, rfl, rfl, hindex16, hcount16, hkeyframe, hconfig, hlast⟩

/-- A frame that the pipe lets through is cut into as many datagrams as it needs. -/
theorem datagrams_carry (hne : frame.payload ≠ []) (hmax : frame.payload.length ≤ kMaxEncodedFrame)
    (session : UInt32) : Carries frame session (videoDatagrams frame session) := by
  have hpos : 0 < frame.payload.length := List.length_pos_iff.mpr hne
  obtain ⟨count, hcount⟩ : ∃ count, count =
      (frame.payload.length + kMaxUdpPayload - 1) / kMaxUdpPayload := ⟨_, rfl⟩
  have hbounds : 0 < count ∧ count ≤ 0xFFFF ∧ frame.payload.length ≤ count * kMaxUdpPayload := by
    simp only [kMaxEncodedFrame] at hmax
    simp only [hcount, kMaxUdpPayload]
    omega
  obtain ⟨hsome, hfew, hcovers⟩ := hbounds
  have hbuilt : videoDatagrams frame session =
      (List.range count).map (videoDatagram frame session count) := by
    rw [videoDatagrams, ← hcount, if_neg (by omega)]
  have hdrop : ∀ index < count,
      (videoDatagram frame session count index).drop kVideoHeaderSize = slice frame index := by
    intro index hindex
    obtain ⟨header, hsplits, -, -⟩ := @datagram_splits frame session count index hindex hfew
    rw [hsplits, List.drop_left' (length_reserving header 0)]
  rw [hbuilt]
  refine ⟨by simpa using hsome.ne', fun index packet hget => ?_, fun packet hpacket => ?_, ?_⟩
  · obtain ⟨hindex, rfl⟩ : index < count ∧ videoDatagram frame session count index = packet := by
      simpa [List.getElem?_eq_some_iff] using hget
    obtain ⟨header, hsplits, hdescribes, htells⟩ := @datagram_splits frame session count index hindex hfew
    rw [List.length_map, List.length_range]
    exact ⟨header, hsplits ▸ decode_reserving hdescribes, htells⟩
  · obtain ⟨index, hindex, rfl⟩ := List.mem_map.mp hpacket
    obtain ⟨header, hsplits, hdescribes, -⟩ :=
      @datagram_splits frame session count index (List.mem_range.mp hindex) hfew
    rw [hsplits, List.length_append, length_reserving]
    exact Nat.add_le_add_left hdescribes.fits _
  · have hslices : (List.range count).map
        ((·.drop kVideoHeaderSize) ∘ videoDatagram frame session count) =
        (List.range count).map fun index =>
          (frame.payload.drop (index * kMaxUdpPayload)).take kMaxUdpPayload :=
      List.map_congr_left fun index hindex => hdrop index (List.mem_range.mp hindex)
    rw [List.map_map, hslices, slices_flatten, List.take_of_length_le hcovers]

section Pipe

variable {number : UInt32} {encoded : EncodedFrame} {tail : Bytes}

theorem memory_written (size value : Nat) (data : Bytes) :
    memoryField (littleEndian size value ++ data) 0 size = value % 256 ^ size := by
  rw [memoryField, List.drop_zero, List.take_left' (by simp [littleEndian]), littleEndian,
    List.reverse_reverse, readBig_bigEndian]

theorem memory_skip {size value offset : Nat} {data : Bytes} {count : Nat} (h : size ≤ offset) :
    memoryField (littleEndian size value ++ data) offset count =
      memoryField data (offset - size) count := by
  have hlength : (littleEndian size value).length = size := by simp [littleEndian]
  rw [memoryField, List.drop_append, hlength, List.drop_eq_nil_of_le (by omega), List.nil_append,
    memoryField]

def frameFlags (encoded : EncodedFrame) : Nat :=
  (if encoded.keyframe then 1 else 0) ||| (if encoded.hasCodecConfig then 2 else 0)

/-- What lies in front of a frame in the pipe. -/
def pipeHeader (number : UInt32) (encoded : EncodedFrame) : Bytes :=
  littleEndian 4 kPipeMagic ++ (littleEndian 4 encoded.bytes.length ++
    (littleEndian 4 number.toNat ++ (littleEndian 4 (frameFlags encoded) ++
    littleEndian 8 encoded.timestampUs.toNat)))

@[simp] theorem length_pipeHeader (number : UInt32) (encoded : EncodedFrame) :
    (pipeHeader number encoded).length = kPipeHeaderSize := by
  simp [pipeHeader, littleEndian, kPipeHeaderSize]

/-- A frame as it arrives in the host. -/
def pipeFrame (number : UInt32) (encoded : EncodedFrame) : PipeFrame where
  frame := number
  flags := (frameFlags encoded).toUInt32
  timestampUs := encoded.timestampUs
  payload := encoded.bytes

theorem write_eq (h : encoded.refused = false) :
    pipeSinkWrite number encoded = pipeHeader number encoded ++ encoded.bytes := by
  simp [pipeSinkWrite, h, pipeHeader, frameFlags]

theorem refused_iff : encoded.refused = false ↔
    encoded.bytes ≠ [] ∧ encoded.bytes.length ≤ 0xFFFFFFFF := by
  simp [EncodedFrame.refused]

theorem frameFlags_lt (encoded : EncodedFrame) : frameFlags encoded < 256 ^ 4 := by
  rw [frameFlags]
  split <;> split <;> decide

/-- What the loop does with a header and whatever follows it. -/
theorem pipeLoop_header (h : encoded.refused = false) :
    pipeLoop (pipeHeader number encoded ++ tail) =
      if encoded.bytes.length > kMaxEncodedFrame ∨ tail.length < encoded.bytes.length then []
      else { pipeFrame number encoded with payload := tail.take encoded.bytes.length } ::
        pipeLoop (tail.drop encoded.bytes.length) := by
  obtain ⟨hne, hsize⟩ := refused_iff.mp h
  have hpos : 0 < encoded.bytes.length := List.length_pos_iff.mpr hne
  have hmagic : memoryField (pipeHeader number encoded ++ tail) 0 4 = kPipeMagic := by
    simp only [pipeHeader, List.append_assoc, memory_written]
    rfl
  have hpayload : memoryField (pipeHeader number encoded ++ tail) 4 4 = encoded.bytes.length := by
    simp only [pipeHeader, List.append_assoc, memory_skip, Nat.le_refl, Nat.sub_self, memory_written]
    exact Nat.mod_eq_of_lt (by omega)
  have hnumber : (memoryField (pipeHeader number encoded ++ tail) 8 4).toUInt32 = number := by
    simp [pipeHeader, memory_skip, memory_written]
  have hflags : (memoryField (pipeHeader number encoded ++ tail) 12 4).toUInt32 =
      (frameFlags encoded).toUInt32 := by
    have hsmall : frameFlags encoded % 4294967296 = frameFlags encoded :=
      Nat.mod_eq_of_lt (frameFlags_lt encoded)
    simp [pipeHeader, memory_skip, memory_written, hsmall]
  have htimestamp : (memoryField (pipeHeader number encoded ++ tail) 16 8).toUInt64 =
      encoded.timestampUs := by
    simp [pipeHeader, memory_skip, memory_written]
  have hlength : (pipeHeader number encoded ++ tail).length = kPipeHeaderSize + tail.length := by
    simp
  have hdrop (size : Nat) : (pipeHeader number encoded ++ tail).drop (kPipeHeaderSize + size) =
      tail.drop size := by
    rw [← List.drop_drop, List.drop_left' (length_pipeHeader number encoded)]
  rw [pipeLoop, if_neg (by omega)]
  simp only [hmagic, hpayload, hnumber, hflags, htimestamp, hlength, hdrop, pipeFrame]
  by_cases hlong : encoded.bytes.length > kMaxEncodedFrame
  · rw [if_pos (.inr (.inr hlong)), if_pos (.inl hlong)]
  · rw [if_neg (by omega)]
    by_cases hshort : tail.length < encoded.bytes.length
    · rw [if_pos (by omega), if_pos (.inr hshort)]
    · rw [if_neg (by omega), if_neg (by omega), List.drop_left' (length_pipeHeader number encoded)]

abbrev Written := List (UInt32 × EncodedFrame)

/-- What the encoder's process writes, frame after frame. -/
def pipeStream (written : Written) : Bytes := written.flatMap fun w => pipeSinkWrite w.1 w.2

/-- The frames that get through: all that were not refused, up to the first that is too long for
the host. -/
def through (written : Written) : List PipeFrame :=
  ((written.filter fun w => !w.2.refused).takeWhile fun w =>
    decide (w.2.bytes.length ≤ kMaxEncodedFrame)).map fun w => pipeFrame w.1 w.2

theorem through_mem {written : Written} (h : frame ∈ through written) :
    frame.payload ≠ [] ∧ frame.payload.length ≤ kMaxEncodedFrame := by
  obtain ⟨w, hw, rfl⟩ := List.mem_map.mp h
  have hshort := List.all_eq_true.mp List.all_takeWhile w hw
  have haccepted := (List.mem_filter.mp ((List.takeWhile_sublist _).subset hw)).2
  simp only [Bool.not_eq_true'] at haccepted
  exact ⟨(refused_iff.mp haccepted).1, of_decide_eq_true hshort⟩

/-- What the host reads of one written frame and what comes behind it. -/
theorem pipeLoop_cut (hrefused : encoded.refused = false) (rest : Bytes) (cut : Nat) :
    pipeLoop ((pipeHeader number encoded ++ (encoded.bytes ++ rest)).take cut) =
      if encoded.bytes.length > kMaxEncodedFrame ∨ cut < kPipeHeaderSize + encoded.bytes.length then []
      else pipeFrame number encoded ::
        pipeLoop (rest.take (cut - (kPipeHeaderSize + encoded.bytes.length))) := by
  by_cases hcut : cut < kPipeHeaderSize
  · rw [pipeLoop, if_pos (by rw [List.length_take]; omega), if_pos (.inr (by omega))]
  · have htake : (pipeHeader number encoded ++ (encoded.bytes ++ rest)).take cut =
        pipeHeader number encoded ++ (encoded.bytes ++ rest).take (cut - kPipeHeaderSize) := by
      rw [List.take_append, List.take_of_length_le (by rw [length_pipeHeader]; omega),
        length_pipeHeader]
    rw [htake, pipeLoop_header hrefused]
    by_cases hlong : encoded.bytes.length > kMaxEncodedFrame
    · rw [if_pos (.inl hlong), if_pos (.inl hlong)]
    · by_cases hshort : cut < kPipeHeaderSize + encoded.bytes.length
      · have htaken : ((encoded.bytes ++ rest).take (cut - kPipeHeaderSize)).length <
            encoded.bytes.length := by
          rw [List.length_take]
          omega
        rw [if_pos (.inr htaken), if_pos (.inr hshort)]
      · have htaken : ¬ ((encoded.bytes ++ rest).take (cut - kPipeHeaderSize)).length <
            encoded.bytes.length := by
          rw [List.length_take, List.length_append]
          omega
        rw [if_neg (not_or.mpr ⟨hlong, htaken⟩), if_neg (not_or.mpr ⟨hlong, hshort⟩),
          List.take_take, Nat.min_eq_left (by omega), List.take_left, List.drop_take, List.drop_left,
          Nat.sub_sub]
        rfl

/-- The host reads the frames as they were written, in order and none in part, wherever the pipe
breaks. -/
theorem pipeLoop_stream (written : Written) (cut : Nat) :
    ∃ n, pipeLoop ((pipeStream written).take cut) = (through written).take n ∧
      ((pipeStream written).length ≤ cut → (through written).length ≤ n) := by
  induction written generalizing cut with
  | nil =>
    refine ⟨0, ?_, fun _ => Nat.le_refl _⟩
    rw [pipeLoop, if_pos]
    · rfl
    · simp [pipeStream, kPipeHeaderSize]
  | cons w written ih =>
    obtain ⟨number, encoded⟩ := w
    cases hrefused : encoded.refused with
    | true =>
      have hstream : pipeStream ((number, encoded) :: written) = pipeStream written := by
        simp [pipeStream, pipeSinkWrite, hrefused]
      have hthrough : through ((number, encoded) :: written) = through written := by
        simp [through, hrefused]
      rw [hstream, hthrough]
      exact ih cut
    | false =>
      have hstream : pipeStream ((number, encoded) :: written) =
          pipeHeader number encoded ++ (encoded.bytes ++ pipeStream written) := by
        simp [pipeStream, write_eq hrefused]
      rw [hstream, pipeLoop_cut hrefused]
      by_cases hlong : encoded.bytes.length > kMaxEncodedFrame
      · have hthrough : through ((number, encoded) :: written) = [] := by
          simp [through, hrefused, hlong]
        rw [hthrough, if_pos (.inl hlong)]
        exact ⟨0, rfl, fun _ => Nat.le_refl _⟩
      · have hthrough : through ((number, encoded) :: written) =
            pipeFrame number encoded :: through written := by
          simp [through, hrefused, not_lt.mp hlong]
        rw [hthrough]
        by_cases hshort : cut < kPipeHeaderSize + encoded.bytes.length
        · rw [if_pos (.inr hshort)]
          refine ⟨0, rfl, fun hall => ?_⟩
          simp only [List.length_append, length_pipeHeader] at hall
          omega
        · obtain ⟨n, hn, hall⟩ := ih (cut - (kPipeHeaderSize + encoded.bytes.length))
          rw [if_neg (not_or.mpr ⟨hlong, hshort⟩), hn]
          refine ⟨n + 1, rfl, fun hcomplete => ?_⟩
          rw [List.length_append, List.length_append, length_pipeHeader] at hcomplete
          exact Nat.succ_le_succ (hall (by omega))

/-- What the encoder writes into the pipe gets through to the host's sender in order and whole, and
the datagrams that it would send of each frame decode to the frame again. -/
theorem frames_reach_network (written : Written) (cut : Nat) (session : UInt32) :
    (∃ n, pipeLoop ((pipeStream written).take cut) = (through written).take n ∧
      ((pipeStream written).length ≤ cut → (through written).length ≤ n)) ∧
    ∀ frame ∈ through written, Carries frame session (videoDatagrams frame session) := by
  refine ⟨pipeLoop_stream written cut, fun frame hframe => ?_⟩
  obtain ⟨hne, hmax⟩ := through_mem hframe
  exact datagrams_carry hne hmax session

end Pipe

end HarmonyScreen.Proofs.VideoHeaders
