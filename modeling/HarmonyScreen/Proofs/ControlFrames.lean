import HarmonyScreen.Host.HssProtocol

namespace HarmonyScreen.Proofs.ControlFrames
open Receiver Host ControlFrameDecoder

variable {payloads chunks : List Bytes} {payload buffer rest : Bytes} {delivered : Nat}

/-- The frames of the payloads, one behind the other. -/
def frames (payloads : List Bytes) : Bytes := payloads.flatMap encodeControlFrame

/-- Of so many bytes of the frames, those that lie behind the last complete frame. -/
def pending : List Bytes → (delivered : Nat) → Nat
  | [], delivered => delivered
  | payload :: payloads, delivered =>
    if payload.length + 4 ≤ delivered then pending payloads (delivered - (payload.length + 4))
    else delivered

/-- What the decoder keeps fits with every chunk into its buffer. -/
def Fits (payloads chunks : List Bytes) (buffered : Nat) : Prop :=
  ∀ before chunk behind, chunks = before ++ chunk :: behind →
    pending payloads (buffered + before.flatten.length) + chunk.length ≤ kMaxControlPayload + 4

/-- The payloads are such that the encoder returns a frame. -/
def Encodes (payloads : List Bytes) : Prop := ∀ payload ∈ payloads, payload.length ≤ kMaxControlPayload

def Filled (payloads : List Bytes) : Prop := ∀ payload ∈ payloads, payload ≠ []

/-- The buffer holds no complete frame. -/
def Incomplete (payloads : List Bytes) (size : Nat) : Prop := pending payloads size = size

theorem encode_eq (h : payload.length ≤ kMaxControlPayload) :
    encodeControlFrame payload = bigEndian 4 payload.length ++ payload := by
  rw [encodeControlFrame, if_neg (by omega)]

theorem length_encode (h : payload.length ≤ kMaxControlPayload) :
    (encodeControlFrame payload).length = payload.length + 4 := by
  rw [encode_eq h, List.length_append, length_bigEndian, Nat.add_comm]

/-- The length in front of a payload is read back. -/
theorem readBig_frame (h : payload.length ≤ kMaxControlPayload) (rest : Bytes) :
    readBig ((encodeControlFrame payload ++ rest).take 4) = payload.length := by
  rw [encode_eq h, List.append_assoc, List.take_left' (length_bigEndian 4 _), readBig_bigEndian]
  exact Nat.mod_eq_of_lt (lt_of_le_of_lt h (by decide))

theorem pending_le (payloads : List Bytes) (delivered : Nat) :
    pending payloads delivered ≤ delivered := by
  induction payloads generalizing delivered with
  | nil => exact Nat.le_refl _
  | cons payload payloads ih =>
    rw [pending]
    split
    · exact Nat.le_trans (ih _) (Nat.sub_le _ _)
    · exact Nat.le_refl _

theorem pending_skip (d : Nat) (h : payload.length + 4 ≤ buffer.length) :
    pending (payload :: payloads) (buffer.length + d) =
      pending payloads (buffer.length - (payload.length + 4) + d) := by
  rw [pending, if_pos (by omega)]
  congr 1
  omega

theorem incomplete_head (h : buffer.length < payload.length + 4) :
    Incomplete (payload :: payloads) buffer.length := by
  rw [Incomplete, pending, if_neg (by omega)]

/-- What the loop does with a piece of the frames: it puts out the payloads that are complete. -/
structure Extracts (payloads : List Bytes) (buffer rest : Bytes) (out : List Bytes) : Prop where
  splits : ∃ done left kept, payloads = done ++ left ∧
    frameLoop buffer out = ⟨out ++ done, none, ⟨kept⟩⟩ ∧ kept ++ rest = frames left ∧
    Incomplete left kept.length ∧
    ∀ d, pending payloads (buffer.length + d) = pending left (kept.length + d)

theorem extracts_nothing (out : List Bytes) (hrest : buffer ++ rest = frames payloads)
    (hloop : frameLoop buffer out = ⟨out, none, ⟨buffer⟩⟩)
    (hincomplete : Incomplete payloads buffer.length) : Extracts payloads buffer rest out :=
  ⟨[], payloads, buffer, rfl, by rw [hloop, List.append_nil], hrest, hincomplete, fun _ => rfl⟩

theorem frameLoop_frames (hencodes : Encodes payloads) (hfilled : Filled payloads)
    (out : List Bytes) (h : buffer ++ rest = frames payloads) :
    Extracts payloads buffer rest out := by
  induction payloads generalizing buffer out with
  | nil =>
    obtain ⟨rfl, rfl⟩ := List.append_eq_nil_iff.mp h
    exact extracts_nothing out h (by rw [frameLoop]; rfl) rfl
  | cons payload payloads ih =>
    have hmax : payload.length ≤ kMaxControlPayload := hencodes payload (by simp)
    have hpos : payload.length ≠ 0 := by simpa using hfilled payload (by simp)
    have hcons : frames (payload :: payloads) = encodeControlFrame payload ++ frames payloads :=
      List.flatMap_cons
    by_cases hfour : buffer.length ≥ 4
    · have hlength : readBig (buffer.take 4) = payload.length := by
        have htake : buffer.take 4 = (buffer ++ rest).take 4 := (List.take_append_of_le_length hfour).symm
        rw [htake, h, hcons, readBig_frame hmax]
      by_cases hwhole : buffer.length < payload.length + 4
      · refine extracts_nothing out h ?_ (incomplete_head hwhole)
        rw [frameLoop, if_pos hfour]
        dsimp only
        rw [hlength, if_neg (by omega), if_pos hwhole]
      · -- the buffer begins with the whole frame
        obtain ⟨behind, rfl⟩ : ∃ behind, buffer = encodeControlFrame payload ++ behind := by
          have hprefix : encodeControlFrame payload <+: buffer :=
            List.prefix_of_prefix_length_le ⟨frames payloads, hcons.symm⟩ ⟨rest, h⟩
              (by rw [length_encode hmax]; omega)
          exact ⟨_, hprefix.choose_spec.symm⟩
        have hdrop : (encodeControlFrame payload ++ behind).drop (payload.length + 4) = behind :=
          List.drop_left' (length_encode hmax)
        have hpayload : ((encodeControlFrame payload ++ behind).drop 4).take payload.length =
            payload := by
          rw [encode_eq hmax, List.append_assoc, List.drop_left' (length_bigEndian 4 _),
            List.take_left]
        rw [List.append_assoc, hcons] at h
        obtain ⟨done, left, kept, rfl, hloop, hkept, hincomplete, hpending⟩ :=
          (ih (fun p hp => hencodes p (List.mem_cons_of_mem payload hp))
            (fun p hp => hfilled p (List.mem_cons_of_mem payload hp)) (out ++ [payload])
            (List.append_cancel_left h)).splits
        refine ⟨payload :: done, left, kept, rfl, ?_, hkept, hincomplete, fun d => ?_⟩
        · rw [frameLoop, if_pos hfour]
          dsimp only
          rw [hlength, if_neg (by omega), if_neg hwhole, hdrop, hpayload, hloop]
          simp
        · rw [pending_skip d (by omega), ← hpending]
          congr 2
          rw [List.length_append, length_encode hmax]
          omega
    · refine extracts_nothing out h ?_ (incomplete_head (by omega))
      rw [frameLoop, if_neg hfour]

/-- The frames end with the last payload. -/
theorem payloads_nil (hencodes : Encodes payloads) (h : buffer = frames payloads)
    (hincomplete : Incomplete payloads buffer.length) : payloads = [] := by
  cases payloads with
  | nil => rfl
  | cons payload payloads =>
    have hlength : buffer.length = payload.length + 4 + (frames payloads).length := by
      rw [h, frames, List.flatMap_cons, List.length_append,
        length_encode (hencodes payload (by simp))]
      rfl
    have hle := pending_le payloads (buffer.length - (payload.length + 4))
    rw [Incomplete, pending, if_pos (by omega)] at hincomplete
    omega

theorem fits_cons (chunk : Bytes) {left : List Bytes} {kept : Bytes} {buffered : Nat}
    (hincomplete : Incomplete payloads buffered)
    (hpending : ∀ d, pending payloads (buffered + chunk.length + d) = pending left (kept.length + d)) :
    Fits payloads (chunk :: chunks) buffered ↔
      buffered + chunk.length ≤ kMaxControlPayload + 4 ∧ Fits left chunks kept.length := by
  constructor
  · intro h
    refine ⟨?_, fun before next behind hsplit => ?_⟩
    · have hfirst := h [] chunk chunks rfl
      rwa [List.flatten_nil, List.length_nil, Nat.add_zero, hincomplete] at hfirst
    · have hnext := h (chunk :: before) next behind (by rw [hsplit]; rfl)
      rwa [List.flatten_cons, List.length_append, ← Nat.add_assoc, hpending] at hnext
  · rintro ⟨hfirst, hrest⟩ before next behind hsplit
    cases before with
    | nil =>
      obtain ⟨rfl, rfl⟩ : chunk = next ∧ chunks = behind := by simpa using hsplit
      rwa [List.flatten_nil, List.length_nil, Nat.add_zero, hincomplete]
    | cons first before =>
      obtain ⟨rfl, rfl⟩ : chunk = first ∧ chunks = before ++ next :: behind := by simpa using hsplit
      rw [List.flatten_cons, List.length_append, ← Nat.add_assoc, hpending]
      exact hrest before next behind rfl

/-- A stream that is no longer than the buffer fits. -/
theorem fits_of_length (h : chunks.flatten.length ≤ kMaxControlPayload + 4) :
    Fits payloads chunks 0 := by
  intro before chunk behind hsplit
  have hpending := pending_le payloads (0 + before.flatten.length)
  rw [hsplit, List.flatten_append, List.flatten_cons, List.length_append,
    List.length_append] at h
  omega

/-- Chunks of the frames come out as the payloads as long as they fit. -/
theorem pushAll_frames (hencodes : Encodes payloads) (hfilled : Filled payloads)
    (h : buffer ++ chunks.flatten = frames payloads)
    (hincomplete : Incomplete payloads buffer.length) :
    (Fits payloads chunks buffer.length → pushAll chunks ⟨buffer⟩ = some payloads) ∧
      (¬ Fits payloads chunks buffer.length → pushAll chunks ⟨buffer⟩ = none) := by
  induction chunks generalizing buffer payloads with
  | nil =>
    obtain rfl : payloads = [] := payloads_nil hencodes (by simpa using h) hincomplete
    exact ⟨fun _ => rfl, fun hnot => absurd (fun before chunk behind hnil => by simp at hnil) hnot⟩
  | cons chunk chunks ih =>
    rw [List.flatten_cons, ← List.append_assoc] at h
    obtain ⟨done, left, kept, rfl, hloop, hkept, hleft, hpending⟩ :=
      (frameLoop_frames hencodes hfilled [] h).splits
    simp only [List.length_append] at hpending
    rw [fits_cons chunk hincomplete hpending, pushAll]
    by_cases hfirst : buffer.length + chunk.length ≤ kMaxControlPayload + 4
    · obtain ⟨hsome, hnone⟩ := ih
        (fun p hp => hencodes p (List.mem_append_right done hp))
        (fun p hp => hfilled p (List.mem_append_right done hp)) hkept hleft
      have hpush : push chunk ⟨buffer⟩ = ⟨done, none, ⟨kept⟩⟩ := by
        rw [push, if_neg (Nat.not_lt.mpr hfirst), hloop, List.nil_append]
      rw [hpush]
      refine ⟨fun hfits => ?_, fun hnot => ?_⟩
      · simp [hsome hfits.2]
      · simp [hnone fun hfits => hnot ⟨hfirst, hfits⟩]
    · refine ⟨fun hfits => absurd hfits.1 hfirst, fun _ => ?_⟩
      have hpush : push chunk ⟨buffer⟩ = ⟨[], some "control buffer exceeds 64 KiB", reset⟩ := by
        rw [push, if_pos (Nat.not_le.mp hfirst)]
      rw [hpush]
      rfl

theorem pushAll_start (hencodes : Encodes payloads) (hfilled : Filled payloads)
    (hstream : chunks.flatten = frames payloads) :
    (Fits payloads chunks 0 → pushAll chunks {} = some payloads) ∧
      (¬ Fits payloads chunks 0 → pushAll chunks {} = none) := by
  have hempty : ([] : Bytes) ++ chunks.flatten = frames payloads := hstream
  exact pushAll_frames hencodes hfilled hempty (Nat.le_zero.mp (pending_le payloads 0))

theorem frameLoop_filled (out : List Bytes) (hout : Filled out) :
    Filled (frameLoop buffer out).frames := by
  fun_induction frameLoop buffer out with
  | case1 buffer out hfour payloadLength hbad => exact hout
  | case2 buffer out hfour payloadLength hgood hshort => exact hout
  | case3 buffer out hfour payloadLength hgood hwhole ih =>
    refine ih fun payload hmem => ?_
    rcases List.mem_append.mp hmem with hmem | hmem
    · exact hout payload hmem
    · obtain rfl := List.mem_singleton.mp hmem
      rw [← List.length_pos_iff, List.length_take, List.length_drop]
      omega
  | case4 buffer out hshort => exact hout

/-- The decoder never puts out an empty payload. -/
theorem pushAll_filled {decoder : ControlFrameDecoder} (h : pushAll chunks decoder = some payloads) :
    Filled payloads := by
  induction chunks generalizing decoder payloads with
  | nil =>
    cases h
    exact fun _ hmem => by cases hmem
  | cons chunk chunks ih =>
    rw [pushAll] at h
    split at h
    · cases h
    · obtain ⟨rest, hrest, rfl⟩ := Option.map_eq_some_iff.mp h
      intro payload hmem
      rcases List.mem_append.mp hmem with hmem | hmem
      · unfold push at hmem
        split at hmem
        · cases hmem
        · exact frameLoop_filled [] (fun _ hnil => by cases hnil) payload hmem
      · exact ih hrest payload hmem

/-- Chunks of the frames come out as the payloads exactly when no payload is empty and the
buffer never holds more than its limit with the next chunk. -/
theorem segmentation (payloads chunks : List Bytes) (hencodes : Encodes payloads)
    (hstream : chunks.flatten = frames payloads) :
    pushAll chunks {} = some payloads ↔ Filled payloads ∧ Fits payloads chunks 0 := by
  constructor
  · intro h
    have hfilled := pushAll_filled h
    refine ⟨hfilled, ?_⟩
    by_contra hnot
    rw [(pushAll_start hencodes hfilled hstream).2 hnot] at h
    cases h
  · rintro ⟨hfilled, hfits⟩
    exact (pushAll_start hencodes hfilled hstream).1 hfits

/-- A ping that arrives in three chunks, the first of which ends within the length. -/
theorem segmentation_ping :
    pushAll [[0, 0], [0, 15] ++ ascii "\x7b\"type\":", ascii "\"ping\"\x7d"] {} =
      some [ascii "\x7b\"type\":\"ping\"\x7d"] := by
  have hstream : List.flatten [[0, 0], [0, 15] ++ ascii "\x7b\"type\":", ascii "\"ping\"\x7d"] =
      frames [ascii "\x7b\"type\":\"ping\"\x7d"] := by decide
  have hfilled : Filled [ascii "\x7b\"type\":\"ping\"\x7d"] := by simp only [Filled]; decide
  refine (segmentation _ _ ?_ hstream).mpr ⟨hfilled, fits_of_length (by decide)⟩
  simp only [Encodes]
  decide

def ping : Bytes := ascii "\x7b\"type\":\"ping\"\x7d"

def blanks (count : Nat) : Bytes := List.replicate count 32

theorem length_blanks (count : Nat) : (blanks count).length = count := List.length_replicate

theorem blanks_append (first second : Nat) :
    blanks first ++ blanks second = blanks (first + second) := List.replicate_append_replicate

/-- A ping with blanks behind it, of the largest length. -/
def longPing : Bytes := ping ++ blanks 65521

/-- The frames of the long ping and of a ping, in chunks of 8192 bytes. -/
def pingChunks : List Bytes :=
  (bigEndian 4 65536 ++ (ping ++ blanks 8173)) ::
    (List.replicate 7 (blanks 8192) ++ [blanks 4 ++ encodeControlFrame ping])

/-- The last chunk is refused: the long ping is complete only with its first four bytes. -/
theorem segmentation_refused :
    Encodes [longPing, ping] ∧ (∀ chunk ∈ pingChunks, 1 ≤ chunk.length ∧ chunk.length ≤ 8192) ∧
      pingChunks.flatten = frames [longPing, ping] ∧ pushAll pingChunks {} = none := by
  have hping : ping.length = 15 := by decide
  have hlong : longPing.length = 65536 := by simp [longPing, hping, length_blanks]
  have hframe : (encodeControlFrame ping).length = 19 := by
    rw [length_encode (by rw [hping]; decide), hping]
  have hencodes : Encodes [longPing, ping] := by
    simp [Encodes, hlong, hping, kMaxControlPayload]
  have hfilled : Filled [longPing, ping] := by
    simp [Filled, ← List.length_eq_zero_iff, hlong, hping]
  have hstream : pingChunks.flatten = frames [longPing, ping] := by
    rw [frames, List.flatMap_cons, encode_eq (by rw [hlong]; decide), hlong, pingChunks, longPing]
    simp [← List.append_assoc, blanks_append, List.replicate]
    simp [List.append_assoc, blanks_append]
  refine ⟨hencodes, ?_, hstream, ?_⟩
  · simp [pingChunks, hping, hframe, length_blanks]
  · apply (pushAll_start hencodes hfilled hstream).2
    intro hfits
    have hlast := hfits ((bigEndian 4 65536 ++ (ping ++ blanks 8173)) ::
      List.replicate 7 (blanks 8192)) (blanks 4 ++ encodeControlFrame ping) [] rfl
    simp [hping, hlong, hframe, length_blanks, pending, kMaxControlPayload] at hlast

end HarmonyScreen.Proofs.ControlFrames
