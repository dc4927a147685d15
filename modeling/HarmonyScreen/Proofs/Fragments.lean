import HarmonyScreen.Proofs.VideoFormat
import HarmonyScreen.Relay.LanVideo

namespace HarmonyScreen.Proofs.Fragments
open Receiver Protocol Relay VideoFormat

variable {message packet : Bytes} {video : LocalVideoMessage} {sessionShort : UInt32}
  {packets : List Bytes} {count index : Nat}

/-- What the datagram at an index says and carries. -/
structure Fragment (video : LocalVideoMessage) (sessionShort : UInt32) (count index : Nat)
    (packet : Bytes) : Prop where
  magic : field packet 0 4 = kLanVideoMagic
  version : field packet 4 1 = kLanProtocolVersion
  headerSize : field packet 5 1 = kLanVideoHeaderSize
  fragment : field packet 16 2 = index
  fragments : field packet 18 2 = count
  keyFrame : field packet 6 2 % 4 = if video.keyFrame then 3 else 0
  endOfFrame : field packet 6 2 / 4 = if index + 1 = count then 1 else 0
  session : field packet 8 4 = sessionShort.toNat
  sequence : field packet 12 4 = video.sequence
  timestamp : field packet 24 8 = video.timestampUs
  payloadLength : field packet 20 2 = (packet.drop kLanVideoHeaderSize).length
  complete : kLanVideoHeaderSize ≤ packet.length
  size : packet.length ≤ kLanVideoHeaderSize + kLanMaxUdpPayload

/-- The datagrams carry the message, each its part of it. -/
structure Fragmented (video : LocalVideoMessage) (sessionShort : UInt32) (packets : List Bytes) :
    Prop where
  nonempty : packets ≠ []
  fragment : ∀ index packet, packets[index]? = some packet →
    Fragment video sessionShort packets.length index packet
  payload : (packets.map (·.drop kLanVideoHeaderSize)).flatten = video.payload

/-- The fields of a message fit into the header. -/
structure Fits (video : LocalVideoMessage) : Prop where
  sequence : video.sequence < 256 ^ 4
  timestamp : video.timestampUs < 256 ^ 8
  payload : video.payload.length ≤ kMaxVideoPayloadBytes

theorem field_lt (data : Bytes) (offset count : Nat) : field data offset count < 256 ^ count :=
  lt_of_lt_of_le (readBig_lt _)
    (Nat.pow_le_pow_right (by decide) (by rw [List.length_take]; exact Nat.min_le_left _ _))

theorem parse_fits (h : parseLocalVideoMessage message = .ok video) :
    Fits video ∧ message.length = kLocalVideoHeaderSize + video.payload.length := by
  unfold parseLocalVideoMessage at h
  dsimp only at h
  split_ifs at h with hshort hmagic hversion hflags hheader hmax hlength
  obtain rfl := Except.ok.inj h
  have hpayload : (message.drop kLocalVideoHeaderSize).length =
      message.length - kLocalVideoHeaderSize := List.length_drop
  refine ⟨⟨field_lt _ _ _, field_lt _ _ _, ?_⟩, ?_⟩
  · dsimp only
    omega
  · dsimp only
    omega

/-- What lies behind a field that was written. -/
theorem drop_skip {count value offset : Nat} {data : Bytes} (h : count ≤ offset) :
    (bigEndian count value ++ data).drop offset = data.drop (offset - count) := by
  rw [List.drop_append, length_bigEndian, List.drop_eq_nil_of_le (by simpa using h),
    List.nil_append]

theorem field_skip {count value offset size : Nat} {data : Bytes} (h : count ≤ offset) :
    field (bigEndian count value ++ data) offset size = field data (offset - count) size := by
  rw [field, drop_skip h, field]

/-- The slices of a list make up its beginning. -/
theorem slices_flatten {α : Type} (size : Nat) (l : List α) (count : Nat) :
    ((List.range count).map fun index => (l.drop (index * size)).take size).flatten =
      l.take (count * size) := by
  induction count with
  | zero => simp
  | succ count ih =>
    rw [List.range_succ, List.map_append, List.flatten_append, ih, Nat.succ_mul, List.take_add]
    simp

theorem datagram_payload (video : LocalVideoMessage) (sessionShort : UInt32) (count index : Nat) :
    (lanVideoDatagram video sessionShort count index).drop kLanVideoHeaderSize =
      (video.payload.drop (index * kLanMaxUdpPayload)).take kLanMaxUdpPayload := by
  have hmin : (video.payload.drop (index * kLanMaxUdpPayload)).take
      (min kLanMaxUdpPayload (video.payload.length - index * kLanMaxUdpPayload)) =
      (video.payload.drop (index * kLanMaxUdpPayload)).take kLanMaxUdpPayload := by
    rw [← List.length_drop, ← List.take_eq_take_min]
  rw [lanVideoDatagram, hmin]
  simp [kLanVideoHeaderSize, drop_skip]

theorem length_datagram (video : LocalVideoMessage) (sessionShort : UInt32) (count index : Nat) :
    (lanVideoDatagram video sessionShort count index).length = kLanVideoHeaderSize +
      min kLanMaxUdpPayload (video.payload.length - index * kLanMaxUdpPayload) := by
  simp [lanVideoDatagram, kLanVideoHeaderSize]
  omega

theorem datagram_fragment (hfits : Fits video) (hindex : index < count) (hcount : count ≤ 0xFFFF) :
    Fragment video sessionShort count index (lanVideoDatagram video sessionShort count index) := by
  have hsize := length_datagram video sessionShort count index
  have hflags : ((if video.keyFrame then 0x0003 else 0) |||
      (if index + 1 = count then 0x0004 else 0)) < 256 ^ 2 ∧
      ((if video.keyFrame then 0x0003 else 0) ||| (if index + 1 = count then 0x0004 else 0)) % 4 =
        (if video.keyFrame then 3 else 0) ∧
      ((if video.keyFrame then 0x0003 else 0) ||| (if index + 1 = count then 0x0004 else 0)) / 4 =
        (if index + 1 = count then 1 else 0) := by
    split <;> split <;> decide
  refine { magic := ?_, version := ?_, headerSize := ?_, fragment := ?_, fragments := ?_,
           keyFrame := ?_, endOfFrame := ?_, session := ?_, sequence := ?_, timestamp := ?_,
           payloadLength := ?_, complete := by omega, size := by omega }
  · simp [lanVideoDatagram, field_written, kLanVideoMagic]
  · simp [lanVideoDatagram, field_skip, field_written, kLanProtocolVersion]
  · simp [lanVideoDatagram, field_skip, field_written, kLanVideoHeaderSize]
  · simp [lanVideoDatagram, field_skip, field_written]
    omega
  · simp [lanVideoDatagram, field_skip, field_written]
    omega
  · simp [lanVideoDatagram, field_skip, field_written]
    omega
  · simp [lanVideoDatagram, field_skip, field_written]
    omega
  · simp [lanVideoDatagram, field_skip, field_written]
  · simp [lanVideoDatagram, field_skip, field_written]
    exact hfits.sequence
  · simp [lanVideoDatagram, field_skip, field_written]
    exact hfits.timestamp
  · rw [List.length_drop, hsize, Nat.add_sub_cancel_left]
    simp [lanVideoDatagram, field_skip, field_written]
    simp only [kLanMaxUdpPayload]
    omega

/-- A message that is not empty is cut into as many datagrams as it needs. -/
theorem build_eq (hfits : Fits video) (hsession : sessionShort ≠ 0) (h : video.payload ≠ []) :
    ∃ count, 0 < count ∧ count ≤ 0xFFFF ∧ video.payload.length ≤ count * kLanMaxUdpPayload ∧
      buildLanVideoDatagrams video sessionShort =
        (List.range count).map (lanVideoDatagram video sessionShort count) := by
  have hpos : 0 < video.payload.length := List.length_pos_iff.mpr h
  have hmax := hfits.payload
  have hadmitted : ¬ (sessionShort = 0 ∨ video.payload = [] ∨
      video.payload.length > kMaxVideoPayloadBytes) := by
    rintro (hzero | hempty | hlong)
    · exact hsession hzero
    · exact h hempty
    · exact Nat.not_le.mpr hlong hmax
  obtain ⟨count, hcount⟩ : ∃ count, count =
      (video.payload.length + kLanMaxUdpPayload - 1) / kLanMaxUdpPayload := ⟨_, rfl⟩
  have hbounds : 0 < count ∧ count ≤ 0xFFFF ∧ video.payload.length ≤ count * kLanMaxUdpPayload := by
    simp only [kMaxVideoPayloadBytes] at hmax
    simp only [hcount, kLanMaxUdpPayload]
    omega
  refine ⟨count, hbounds.1, hbounds.2.1, hbounds.2.2, ?_⟩
  rw [buildLanVideoDatagrams, if_neg hadmitted, ← hcount, if_neg (by omega)]

theorem fragmented (hfits : Fits video) (hsession : sessionShort ≠ 0) (h : video.payload ≠ []) :
    Fragmented video sessionShort (buildLanVideoDatagrams video sessionShort) := by
  obtain ⟨count, hpos, hcount, hcovers, hbuild⟩ := build_eq hfits hsession h
  rw [hbuild]
  refine ⟨?_, fun index packet hget => ?_, ?_⟩
  · simpa using hpos.ne'
  · obtain ⟨hindex, rfl⟩ : index < count ∧
        lanVideoDatagram video sessionShort count index = packet := by
      simpa [List.getElem?_eq_some_iff] using hget
    rw [List.length_map, List.length_range]
    exact datagram_fragment hfits hindex hcount
  · have hpayloads : (List.range count).map
        ((·.drop kLanVideoHeaderSize) ∘ lanVideoDatagram video sessionShort count) =
        (List.range count).map fun index =>
          (video.payload.drop (index * kLanMaxUdpPayload)).take kLanMaxUdpPayload :=
      List.map_congr_left fun index _ => datagram_payload video sessionShort count index
    rw [List.map_map, hpayloads, slices_flatten, List.take_of_length_le hcovers]

/-- Every datagram of a list is sent in one piece, from the given call on. -/
def SendsWhole (send : Nat → Bytes → Int) (call : Nat) (packets : List Bytes) : Prop :=
  ∀ index packet, packets[index]? = some packet → send (call + index) packet = packet.length

theorem sendPackets_whole {send : Nat → Bytes → Int} {call : Nat} (sender : LanSender)
    (h : SendsWhole send call packets) : (LanSender.sendPackets send call packets sender).1 = true := by
  induction packets generalizing call sender with
  | nil => rfl
  | cons packet packets ih =>
    have hfirst : send call packet = packet.length := h 0 packet rfl
    rw [LanSender.sendPackets, if_neg (not_not.mpr hfirst)]
    refine ih _ fun index next hget => ?_
    have hnext := h (index + 1) next (by simpa using hget)
    rwa [← Nat.add_assoc, Nat.add_right_comm] at hnext

/-- A sender in a session. -/
structure Sends (sessionShort : UInt32) (sender : LanSender) : Prop where
  connected : sender.connected = true
  session : sender.sessionShort = sessionShort
  videoSocket : sender.videoSocket ≠ none

/-- A message is never the reason that its session ends: it ends only with a datagram that the
socket does not take whole. -/
def Keeps (message : Bytes) (packets : List Bytes) (sessionShort : UInt32) : Prop :=
  ∀ send counters sender, Sends sessionShort sender → SendsWhole send 0 packets →
    (runVideoMessage send message counters sender).1 = .ok ()

theorem keeps (h : parseLocalVideoMessage message = .ok video)
    (hnonempty : buildLanVideoDatagrams video sessionShort ≠ []) :
    Keeps message (buildLanVideoDatagrams video sessionShort) sessionShort := by
  rintro send counters sender ⟨hconnected, rfl, hsocket⟩ hwhole
  have hsent := sendPackets_whole sender hwhole
  have hunit : (sender.sendAccessUnit send video).1 = true := by
    unfold LanSender.sendAccessUnit
    simp [hconnected, hnonempty, hsocket, hsent]
  unfold runVideoMessage
  simp [h, hunit]

/-- An accepted message gets through the relay whole, and without an end of its session, exactly
when something follows its header. -/
theorem fragments_lose_nothing (message : Bytes) (video : LocalVideoMessage)
    (sessionShort : UInt32) (h : parseLocalVideoMessage message = .ok video)
    (hsession : sessionShort ≠ 0) :
    Fragmented video sessionShort (buildLanVideoDatagrams video sessionShort) ∧
        Keeps message (buildLanVideoDatagrams video sessionShort) sessionShort ↔
      kLocalVideoHeaderSize < message.length := by
  obtain ⟨hfits, hlength⟩ := parse_fits h
  constructor
  · rintro ⟨hfragmented, -⟩
    by_contra hnot
    have hempty : video.payload = [] := List.eq_nil_of_length_eq_zero (by omega)
    exact hfragmented.nonempty (by rw [buildLanVideoDatagrams, if_pos (.inr (.inl hempty))])
  · intro hlonger
    have hpayload : video.payload ≠ [] := List.ne_nil_of_length_pos (by omega)
    have hfragmented := fragmented hfits hsession hpayload
    exact ⟨hfragmented, keeps h hfragmented.nonempty⟩

/-- A key frame of three datagrams. -/
def wideMessage : Bytes :=
  [0x48, 0x57, 0x4C, 0x31, 1, 1, 0, 24, 0, 0, 0, 7, 0, 0, 0x09, 0xC4, 0, 0, 0, 0, 0, 0, 3, 232] ++
    List.replicate 2500 0x65

def wideVideo : LocalVideoMessage := ⟨true, 7, 1000, List.replicate 2500 0x65⟩

theorem wideMessage_parsed : parseLocalVideoMessage wideMessage = .ok wideVideo := by
  decide +kernel

theorem fragments_lose_nothing_wide : (buildLanVideoDatagrams wideVideo 5).length = 3 ∧
    Fragmented wideVideo 5 (buildLanVideoDatagrams wideVideo 5) ∧
      Keeps wideMessage (buildLanVideoDatagrams wideVideo 5) 5 :=
  ⟨by decide +kernel, (fragments_lose_nothing _ _ _ wideMessage_parsed (by decide)).mpr
    (by decide +kernel)⟩

/-- The message that is its header only: no datagram, and the session ends. -/
theorem header_ends_session :
    parseLocalVideoMessage [0x48, 0x57, 0x4C, 0x31, 1, 1, 0, 24, 0, 0, 0, 7, 0, 0, 0, 0, 0, 0, 0, 0,
        0, 0, 3, 232] = .ok ⟨true, 7, 1000, []⟩ ∧
      buildLanVideoDatagrams ⟨true, 7, 1000, []⟩ 5 = [] ∧
      (runVideoMessage (fun _ packet => packet.length) [0x48, 0x57, 0x4C, 0x31, 1, 1, 0, 24, 0, 0, 0,
        7, 0, 0, 0, 0, 0, 0, 0, 0, 0, 0, 3, 232] {} ⟨true, 5, some 3, 0, 0, 0, 0, []⟩).1 =
        .error "LAN video send failed" := by
  decide

end HarmonyScreen.Proofs.Fragments
