import Mathlib.Tactic.FinCases
import HarmonyScreen.Receiver.WebSocket

namespace HarmonyScreen.Proofs.WebSocketStream
open Receiver Receiver.WebSocket Lib

/-- The three encodings RFC 6455 has for a frame's length. -/
inductive LengthForm where
  | short
  | medium
  | long
  deriving DecidableEq, Repr

def LengthForm.holds : LengthForm → Nat → Prop
  | short, n => n ≤ 125
  | medium, n => n < 2 ^ 16
  | long, n => n < 2 ^ 64

instance (form : LengthForm) (n : Nat) : Decidable (form.holds n) := by
  cases form <;> unfold LengthForm.holds <;> infer_instance

def LengthForm.shortest (n : Nat) : LengthForm :=
  if n ≤ 125 then short else if n ≤ 0xffff then medium else long

/-- A frame on the wire: a client's carries a mask, a server's does not. -/
structure RawFrame where
  final : Bool
  opcode : Opcode
  mask : Option Bytes
  form : LengthForm
  payload : Bytes

def RawFrame.lengthBytes (f : RawFrame) : UInt8 × Bytes :=
  match f.form with
  | .short => (f.payload.length.toUInt8, [])
  | .medium => (126, bigEndian 2 f.payload.length)
  | .long => (127, bigEndian 8 f.payload.length)

def RawFrame.bytes (f : RawFrame) : Bytes :=
  let first := (if f.final then 0x80 else 0) ||| f.opcode.value
  match f.mask with
  | none => first :: f.lengthBytes.1 :: (f.lengthBytes.2 ++ f.payload)
  | some key => first :: (0x80 ||| f.lengthBytes.1) ::
      (f.lengthBytes.2 ++ (key ++ unmask key f.payload))

/-- A client's frame: a four-byte mask and a length encoding that can hold its length. -/
structure RawFrame.Masked (f : RawFrame) : Prop where
  key : ∃ key, f.mask = some key ∧ key.length = 4
  holds : f.form.holds f.payload.length

/-- The frame of a whole text message with a zero mask. -/
def clientFrame (payload : Bytes) : Bytes :=
  (⟨true, .text, some [0, 0, 0, 0], .shortest payload.length, payload⟩ : RawFrame).bytes

/-- `Framing none frames messages`: the frames are a way to send the messages,
listed in the order in which they complete. Between the frames of a fragmented
message only control frames stand; the index is the message begun so far. -/
inductive Framing : Option (Opcode × Bytes) → List RawFrame → List Message → Prop where
  | done : Framing none [] []
  | control (op : f.opcode.isControl = true) (fin : f.final = true)
      (rest : Framing begun fs ms) : Framing begun (f :: fs) (⟨f.opcode, f.payload⟩ :: ms)
  | whole (op : f.opcode.isData = true) (fin : f.final = true)
      (rest : Framing none fs ms) : Framing none (f :: fs) (⟨f.opcode, f.payload⟩ :: ms)
  | first (op : f.opcode.isData = true) (fin : f.final = false)
      (rest : Framing (some (f.opcode, f.payload)) fs ms) : Framing none (f :: fs) ms
  | middle (op : f.opcode = .continuation) (fin : f.final = false)
      (rest : Framing (some (o, acc ++ f.payload)) fs ms) : Framing (some (o, acc)) (f :: fs) ms
  | last (op : f.opcode = .continuation) (fin : f.final = true)
      (rest : Framing none fs ms) :
      Framing (some (o, acc)) (f :: fs) (⟨o, acc ++ f.payload⟩ :: ms)

/-- The size limits of the protocol. -/
def Sized (m : Message) : Prop :=
  m.payload.length ≤ if m.opcode.isControl then 125 else kMaxMessageBytes

instance (m : Message) : Decidable (Sized m) := inferInstanceAs (Decidable (_ ≤ _))

theorem unmaskFrom_unmaskFrom (key p : Bytes) (index : Nat) :
    unmaskFrom key index (unmaskFrom key index p) = p := by
  induction p generalizing index with
  | nil => rfl
  | cons b p ih =>
    rw [unmaskFrom, unmaskFrom, ih, UInt8.xor_assoc, UInt8.xor_self, UInt8.xor_zero]

theorem unmask_unmask (key p : Bytes) : unmask key (unmask key p) = p :=
  unmaskFrom_unmaskFrom key p 0

theorem length_unmaskFrom (key p : Bytes) (index : Nat) :
    (unmaskFrom key index p).length = p.length := by
  induction p generalizing index with
  | nil => rfl
  | cons b p ih => simp [unmaskFrom, ih]

@[simp] theorem length_unmask (key p : Bytes) : (unmask key p).length = p.length :=
  length_unmaskFrom key p 0

theorem first_byte (final : Bool) (op : Opcode) :
    let first := (if final then 0x80 else 0) ||| op.value
    ((first &&& 0x80) != 0) = final ∧ first &&& 0x0f = op.value ∧ first &&& 0x70 = 0 := by
  cases op <;> cases final <;> decide

set_option maxRecDepth 4096 in
theorem second_byte : ∀ n < 128,
    (0x80 ||| n.toUInt8) &&& 0x7f = n.toUInt8 ∧ (0x80 ||| n.toUInt8) &&& 0x80 ≠ 0 ∧
      n.toUInt8.toNat = n := by
  decide

/-- Every encoding that can hold the length is read back, minimal or not. -/
theorem readLength_bytes (f : RawFrame) (hf : f.form.holds f.payload.length) (x : Bytes) :
    readLength ((0x80 ||| f.lengthBytes.1) &&& 0x7f) (f.lengthBytes.2 ++ x) =
        some (f.payload.length, x) ∧
      (0x80 ||| f.lengthBytes.1) &&& 0x80 ≠ 0 := by
  unfold RawFrame.lengthBytes
  cases hform : f.form with
  | short =>
    rw [hform] at hf
    change f.payload.length ≤ 125 at hf
    obtain ⟨hlow, hbit, hnat⟩ := second_byte f.payload.length (by omega)
    have h126 : f.payload.length.toUInt8 ≠ 126 := fun h => by rw [h] at hnat; simp at hnat; omega
    have h127 : f.payload.length.toUInt8 ≠ 127 := fun h => by rw [h] at hnat; simp at hnat; omega
    refine ⟨?_, hbit⟩
    rw [hlow, readLength, if_neg h126, if_neg h127, hnat, List.nil_append]
  | medium =>
    rw [hform] at hf
    change f.payload.length < 2 ^ 16 at hf
    dsimp only
    refine ⟨?_, by decide⟩
    have hcode : ((0x80 : UInt8) ||| 126) &&& 0x7f = 126 := by decide
    have hlen : ¬ (bigEndian 2 f.payload.length ++ x).length < 2 := by
      rw [List.length_append, length_bigEndian]
      omega
    simp only [hcode, readLength, if_true, hlen, if_false]
    rw [List.take_left' (by simp), List.drop_left' (by simp), readBig_bigEndian,
      Nat.mod_eq_of_lt (by simpa using hf)]
  | long =>
    rw [hform] at hf
    change f.payload.length < 2 ^ 64 at hf
    dsimp only
    refine ⟨?_, by decide⟩
    have hcode : ((0x80 : UInt8) ||| 127) &&& 0x7f = 127 := by decide
    have hne : (127 : UInt8) ≠ 126 := by decide
    have hlen : ¬ (bigEndian 8 f.payload.length ++ x).length < 8 := by
      rw [List.length_append, length_bigEndian]
      omega
    simp only [hcode, readLength, hne, if_true, hlen, if_false]
    rw [List.take_left' (by simp), List.drop_left' (by simp), readBig_bigEndian,
      Nat.mod_eq_of_lt (by simpa using hf)]

/-- What a frame must satisfy for the decoder to take it. -/
structure Readable (f : RawFrame) : Prop extends f.Masked where
  small : f.payload.length ≤ kMaxMessageBytes
  control : f.opcode.isControl = true → f.final = true ∧ f.payload.length ≤ 125

theorem control_value (op : Opcode) : op.value ≥ 0x8 ↔ op.isControl = true := by
  cases op <;> decide

theorem readFrame_bytes {f : RawFrame} (hf : Readable f) (x : Bytes) :
    readFrame (f.bytes ++ x) = .item ⟨f.final, f.opcode.value, f.payload⟩ x := by
  obtain ⟨key, hkey, hlen⟩ := hf.key
  obtain ⟨hfin, hop, hrsv⟩ := first_byte f.final f.opcode
  obtain ⟨hread, hbit⟩ := readLength_bytes f hf.holds (key ++ unmask key f.payload ++ x)
  simp only [RawFrame.bytes, hkey, List.cons_append, List.append_assoc] at hread ⊢
  simp only [readFrame, hfin, hop, hrsv, hread, bne_self_eq_false, Bool.false_or, beq_iff_eq,
    hbit, if_false]
  have hgood : ¬ (f.payload.length > kMaxMessageBytes ∨
      (f.opcode.value ≥ 0x8 ∧ ((!f.final) = true ∨ f.payload.length > 125))) := by
    rintro (h | ⟨hc, h⟩)
    · exact absurd hf.small (by omega)
    · obtain ⟨hfinal, h125⟩ := hf.control ((control_value _).mp hc)
      rcases h with h | h
      · simp [hfinal] at h
      · omega
  rw [if_neg hgood, if_neg (by simp [hlen])]
  have hdrop : (key ++ (unmask key f.payload ++ x)).drop (4 + f.payload.length) = x := by
    rw [← List.append_assoc]
    exact List.drop_left' (by simp [hlen])
  rw [hdrop, List.take_left' hlen, List.drop_left' hlen, List.take_left' (by simp),
    unmask_unmask]

/-- A frame off the buffer never carries more than the limit. -/
theorem readFrame_decoded {b rest : Bytes} {f : Frame} (h : readFrame b = .item f rest) :
    f.decoded.length ≤ kMaxMessageBytes := by
  match b with
  | [] | [_] => simp [readFrame] at h
  | first :: second :: rest =>
    simp only [readFrame] at h
    split at h
    · cases h
    · split at h
      · cases h
      · split at h
        · cases h
        · rename_i hgood
          split at h
          · cases h
          · cases h
            simp only [not_or, not_lt] at hgood
            simp only [length_unmask, List.length_take]
            omega

theorem accept_bound {d d' : Fragments} {f : Frame} {out : List Message}
    (hd : d.fragmented.length ≤ kMaxMessageBytes) (hf : f.decoded.length ≤ kMaxMessageBytes)
    (h : acceptFrame d f = some (d', out)) :
    d'.fragmented.length ≤ kMaxMessageBytes ∧
      ∀ m ∈ out, m.payload.length ≤ kMaxMessageBytes := by
  simp only [acceptFrame, acceptFrame.acceptData] at h
  repeat' split at h
  all_goals cases h
  all_goals simp_all

def RawFrame.taken (f : RawFrame) : Frame := ⟨f.final, f.opcode.value, f.payload⟩

/-- The decoder's fragmentation state while a message is begun. -/
def fragmentsOf : Option (Opcode × Bytes) → Fragments
  | none => {}
  | some (o, acc) => ⟨acc, some o⟩

theorem accept_control {f : RawFrame} (d : Fragments) (op : f.opcode.isControl = true) :
    acceptFrame d f.taken = some (d, [⟨f.opcode, f.payload⟩]) := by
  simp only [acceptFrame, RawFrame.taken, Opcode.ofValue_value]
  cases h : f.opcode <;> simp [h, Opcode.isControl] at op ⊢

theorem accept_data {f : RawFrame} (op : f.opcode.isData = true) :
    acceptFrame (fragmentsOf none) f.taken =
      if f.final then some (fragmentsOf none, [⟨f.opcode, f.payload⟩])
      else some (fragmentsOf (some (f.opcode, f.payload)), []) := by
  simp only [acceptFrame, RawFrame.taken, Opcode.ofValue_value]
  cases h : f.opcode <;>
    simp [h, Opcode.isData, acceptFrame.acceptData, fragmentsOf] at op ⊢

theorem accept_continuation {f : RawFrame} {o : Opcode} {acc : Bytes}
    (op : f.opcode = .continuation) (hs : (acc ++ f.payload).length ≤ kMaxMessageBytes) :
    acceptFrame (fragmentsOf (some (o, acc))) f.taken =
      if f.final then some (fragmentsOf none, [⟨o, acc ++ f.payload⟩])
      else some (fragmentsOf (some (o, acc ++ f.payload)), []) := by
  simp only [List.length_append] at hs
  simp only [acceptFrame, RawFrame.taken, Opcode.ofValue_value, op, fragmentsOf]
  rw [if_neg (by omega)]

theorem data_not_control {op : Opcode} (hd : op.isData = true) : op.isControl = false := by
  cases op <;> simp [Opcode.isData, Opcode.isControl] at hd ⊢

/-- What is begun is the start of a message still to be completed. -/
theorem Framing.begun_le (h : Framing (some (o, acc)) fs ms)
    (hm : ∀ m ∈ ms, m.payload.length ≤ kMaxMessageBytes) : acc.length ≤ kMaxMessageBytes := by
  generalize hb : some (o, acc) = begun at h
  induction h generalizing o acc with
  | done => cases hb
  | control op fin rest ih => exact ih (fun m h => hm m (by simp [h])) hb
  | whole | first => cases hb
  | middle op fin rest ih =>
    cases hb
    have := ih hm rfl
    simp only [List.length_append] at this
    omega
  | last op fin rest ih =>
    cases hb
    have := hm _ List.mem_cons_self
    simp only [List.length_append] at this
    omega

/-- The frames are accepted one after another, complete exactly the messages,
and each is one the decoder takes off its buffer. -/
def Accepted (begun : Option (Opcode × Bytes)) (fs : List RawFrame) (ms : List Message) : Prop :=
  Reader.acceptAll acceptFrame (fragmentsOf begun) (fs.map RawFrame.taken) = some ({}, ms) ∧
    ∀ f ∈ fs, Readable f

theorem Accepted.cons {begun begun' : Option (Opcode × Bytes)} {out ms : List Message}
    (h : Accepted begun' fs ms) (hf : Readable f)
    (ha : acceptFrame (fragmentsOf begun) f.taken = some (fragmentsOf begun', out)) :
    Accepted begun (f :: fs) (out ++ ms) := by
  refine ⟨?_, List.forall_mem_cons.mpr ⟨hf, h.2⟩⟩
  simp only [List.map_cons, Reader.acceptAll, ha, h.1, Option.map_some]

theorem Sized.le {m : Message} (h : Sized m) : m.payload.length ≤ kMaxMessageBytes := by
  unfold Sized at h
  split at h
  · unfold kMaxMessageBytes
    omega
  · exact h

theorem Framing.accepted (h : Framing begun fs ms) (hm : ∀ m ∈ ms, Sized m)
    (hf : ∀ f ∈ fs, f.Masked) : Accepted begun fs ms := by
  induction h with
  | done => exact ⟨rfl, by simp⟩
  | @control begun fs ms f op fin rest ih =>
    obtain ⟨hsize, hm⟩ := List.forall_mem_cons.mp hm
    obtain ⟨hmask, hf⟩ := List.forall_mem_cons.mp hf
    have hsmall := hsize.le
    simp only [Sized, op, if_true] at hsize
    exact (ih hm hf).cons ⟨hmask, hsmall, fun _ => ⟨fin, hsize⟩⟩ (accept_control _ op)
  | @whole fs ms f op fin rest ih =>
    obtain ⟨hsize, hm⟩ := List.forall_mem_cons.mp hm
    obtain ⟨hmask, hf⟩ := List.forall_mem_cons.mp hf
    exact (ih hm hf).cons ⟨hmask, hsize.le, by simp [data_not_control op]⟩
      (by rw [accept_data op, if_pos fin])
  | @first fs ms f op fin rest ih =>
    obtain ⟨hmask, hf⟩ := List.forall_mem_cons.mp hf
    have hsmall := rest.begun_le fun m h => (hm m h).le
    exact (ih hm hf).cons ⟨hmask, hsmall, by simp [data_not_control op]⟩
      (by rw [accept_data op, if_neg (by simp [fin])])
  | @middle o acc fs ms f op fin rest ih =>
    obtain ⟨hmask, hf⟩ := List.forall_mem_cons.mp hf
    have hsmall := rest.begun_le fun m h => (hm m h).le
    refine (ih hm hf).cons ⟨hmask, ?_, by simp [op, Opcode.isControl]⟩
      (by rw [accept_continuation op hsmall, if_neg (by simp [fin])])
    simp only [List.length_append] at hsmall
    omega
  | @last fs ms o acc f op fin rest ih =>
    obtain ⟨hsize, hm⟩ := List.forall_mem_cons.mp hm
    obtain ⟨hmask, hf⟩ := List.forall_mem_cons.mp hf
    have hsmall : (acc ++ f.payload).length ≤ kMaxMessageBytes := hsize.le
    have hlen : f.payload.length ≤ kMaxMessageBytes := by
      simp only [List.length_append] at hsmall
      omega
    have haccept : acceptFrame (fragmentsOf (some (o, acc))) f.taken =
        some (fragmentsOf none, [⟨o, acc ++ f.payload⟩]) := by
      rw [accept_continuation op hsmall, if_pos fin]
    exact (ih hm hf).cons ⟨hmask, hlen, by simp [op, Opcode.isControl]⟩ haccept

/-- Framed messages come out of the decoder as they went in, however the frames
are cut into chunks. -/
theorem framing_delivered {messages : List Message} {frames : List RawFrame}
    {chunks : List Bytes} (h : Framing none frames messages) (hm : ∀ m ∈ messages, Sized m)
    (hf : ∀ f ∈ frames, f.Masked) (hb : chunks.flatten = (frames.map RawFrame.bytes).flatten)
    (hc : ∀ c ∈ chunks, c.length ≤ 65536) : pushAll {} chunks = (true, messages) := by
  obtain ⟨hacc, hread⟩ := h.accepted hm hf
  have hdrain := Reader.drain_items (R := frameReader) (fun f hf => readFrame_bytes hf) hread [] hacc
  rw [Reader.drain_more frameReader.nil] at hdrain
  simp only [List.append_nil, fragmentsOf] at hdrain
  rw [pushAll_eq hc, hb, hdrain]
  rfl

/-- The decoder's own bound: what it keeps of a begun message stays in the limit. -/
theorem delivered_bound (chunks : List Bytes) (hc : ∀ c ∈ chunks, c.length ≤ 65536) :
    ∀ m ∈ (pushAll {} chunks).2, m.payload.length ≤ kMaxMessageBytes := by
  rw [pushAll_eq hc]
  have hstep {d d' : Fragments} {f : Frame} {out : List Message}
      (hd : d.fragmented.length ≤ kMaxMessageBytes) (hf : f.decoded.length ≤ kMaxMessageBytes)
      (ha : acceptFrame d f = some (d', out)) := accept_bound hd hf ha
  exact Reader.drain_forall (R := frameReader)
    (I := fun d : Fragments => d.fragmented.length ≤ kMaxMessageBytes)
    (P := fun m : Message => m.payload.length ≤ kMaxMessageBytes) (fun h => readFrame_decoded h) hstep
    (Nat.zero_le _) _

/-- `EncodeFrame` writes the server's frame of RFC 6455: final, unmasked, with
the shortest length encoding. -/
theorem encodeFrame_bytes (op : Opcode) (p : Bytes) (hp : p.length ≤ kMaxMessageBytes) :
    encodeFrame op p =
      (⟨true, op, none, .shortest p.length, p⟩ : RawFrame).bytes := by
  rw [encodeFrame, if_neg (by omega)]
  simp only [RawFrame.bytes, RawFrame.lengthBytes, LengthForm.shortest]
  by_cases h125 : p.length ≤ 125
  · simp [h125]
  · by_cases h16 : p.length ≤ 0xffff <;> simp [h125, h16]

theorem shortest_holds (n : Nat) (hn : n ≤ kMaxMessageBytes) : (LengthForm.shortest n).holds n := by
  unfold kMaxMessageBytes at hn
  unfold LengthForm.shortest
  split
  · assumption
  · split
    · change n < 2 ^ 16
      omega
    · change n < 2 ^ 64
      omega

/-- Masked by a client, a frame of `EncodeFrame` is decoded to its one message. -/
theorem masked_frame_delivered {op : Opcode} {p key : Bytes} {chunks : List Bytes}
    (hop : op.isData = true ∨ op.isControl = true) (hp : Sized ⟨op, p⟩) (hk : key.length = 4)
    (hb : chunks.flatten = (⟨true, op, some key, .shortest p.length, p⟩ : RawFrame).bytes)
    (hc : ∀ c ∈ chunks, c.length ≤ 65536) : pushAll {} chunks = (true, [⟨op, p⟩]) := by
  let f : RawFrame := ⟨true, op, some key, .shortest p.length, p⟩
  have hframing : Framing none [f] [⟨op, p⟩] := by
    rcases hop with hd | hctl
    · exact .whole (f := f) hd rfl .done
    · exact .control (f := f) hctl rfl .done
  have hmask : f.Masked := ⟨⟨key, rfl, hk⟩, shortest_holds _ hp.le⟩
  exact framing_delivered hframing (by simpa using hp) (by simpa using hmask)
    (by simpa using hb) hc

/-- Decoding is the inverse of framing. Framed messages are delivered whole and
in order; what any bytes deliver depends on the bytes alone and stays within
the limit; and `EncodeFrame` writes a frame that, once masked, is read back. -/
theorem decoding_inverts_framing :
    (∀ (messages : List Message) (frames : List RawFrame) (chunks : List Bytes),
      Framing none frames messages → (∀ m ∈ messages, Sized m) → (∀ f ∈ frames, f.Masked) →
      chunks.flatten = (frames.map RawFrame.bytes).flatten → (∀ c ∈ chunks, c.length ≤ 65536) →
      pushAll {} chunks = (true, messages)) ∧
    (∀ chunks chunks' : List Bytes, chunks.flatten = chunks'.flatten →
      (∀ c ∈ chunks, c.length ≤ 65536) → (∀ c ∈ chunks', c.length ≤ 65536) →
      pushAll {} chunks = pushAll {} chunks') ∧
    (∀ chunks : List Bytes, (∀ c ∈ chunks, c.length ≤ 65536) →
      ∀ m ∈ (pushAll {} chunks).2, m.payload.length ≤ kMaxMessageBytes) ∧
    (∀ (op : Opcode) (p : Bytes), op.isData = true ∨ op.isControl = true → Sized ⟨op, p⟩ →
      encodeFrame op p = (⟨true, op, none, .shortest p.length, p⟩ : RawFrame).bytes ∧
      ∀ (key : Bytes) (chunks : List Bytes), key.length = 4 →
        chunks.flatten = (⟨true, op, some key, .shortest p.length, p⟩ : RawFrame).bytes →
        (∀ c ∈ chunks, c.length ≤ 65536) → pushAll {} chunks = (true, [⟨op, p⟩])) := by
  refine ⟨fun _ _ _ h hm hf hb hc => framing_delivered h hm hf hb hc, ?_, delivered_bound, ?_⟩
  · intro chunks chunks' hsame hc hc'
    rw [pushAll_eq hc, pushAll_eq hc', hsame]
  · intro op p hop hp
    exact ⟨encodeFrame_bytes op p hp.le,
      fun key chunks hk hb hc => masked_frame_delivered hop hp hk hb hc⟩

/-- A text message in two frames around a ping, its bytes cut inside the first header. -/
def pingInsideText : List RawFrame :=
  [⟨false, .text, some [1, 2, 3, 4], .medium, ascii "ab"⟩,
   ⟨true, .ping, some [5, 6, 7, 8], .short, ascii "p"⟩,
   ⟨true, .continuation, some [9, 10, 11, 12], .long, ascii "c"⟩]

theorem pingInsideText_delivered :
    pushAll {} [((pingInsideText.map RawFrame.bytes).flatten).take 3,
        ((pingInsideText.map RawFrame.bytes).flatten).drop 3] =
      (true, [⟨.ping, ascii "p"⟩, ⟨.text, ascii "abc"⟩]) := by
  refine decoding_inverts_framing.1 _ pingInsideText _ ?_ ?_ ?_ (by simp) ?_
  · exact .first rfl rfl (.control rfl rfl (.last rfl rfl .done))
  · decide
  · intro f hf
    fin_cases hf <;> exact ⟨⟨_, rfl, rfl⟩, by decide⟩
  · decide

end HarmonyScreen.Proofs.WebSocketStream
