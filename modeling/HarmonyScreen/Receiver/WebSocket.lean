import HarmonyScreen.Lib.Reader
import HarmonyScreen.Receiver.Bytes

namespace HarmonyScreen.Receiver.WebSocket
open Lib

def kMaxMessageBytes : Nat := 8 * 1024 * 1024 + 32

inductive Opcode where
  | continuation
  | text
  | binary
  | close
  | ping
  | pong
  deriving DecidableEq, Repr

namespace Opcode

def value : Opcode → UInt8
  | continuation => 0x0
  | text => 0x1
  | binary => 0x2
  | close => 0x8
  | ping => 0x9
  | pong => 0xA

/-- `static_cast<Opcode>`: `none` for a value that names no enumerator. -/
def ofValue (v : UInt8) : Option Opcode :=
  if v = 0x0 then some continuation
  else if v = 0x1 then some text
  else if v = 0x2 then some binary
  else if v = 0x8 then some close
  else if v = 0x9 then some ping
  else if v = 0xA then some pong
  else none

@[simp] theorem ofValue_value (op : Opcode) : ofValue op.value = some op := by
  cases op <;> decide

def isData (op : Opcode) : Bool := op == text || op == binary

def isControl (op : Opcode) : Bool := op == close || op == ping || op == pong

end Opcode

structure Message where
  opcode : Opcode
  payload : Bytes
  deriving DecidableEq, Repr

/-- `EncodeFrame`: the unmasked frame a server sends. -/
def encodeFrame (opcode : Opcode) (payload : Bytes) : Bytes :=
  if payload.length > kMaxMessageBytes then []
  else
    [0x80 ||| opcode.value] ++
    (if payload.length ≤ 125 then [payload.length.toUInt8]
     else if payload.length ≤ 0xffff then 126 :: bigEndian 2 payload.length
     else 127 :: bigEndian 8 payload.length) ++
    payload

/-- A frame as the loop of `Decoder::Push` takes it off the buffer. -/
structure Frame where
  final : Bool
  opcodeValue : UInt8
  decoded : Bytes
  deriving DecidableEq, Repr

/-- `payload[index] ^ mask[index % 4]` from an index on. -/
def unmaskFrom (mask : Bytes) : Nat → Bytes → Bytes
  | _, [] => []
  | index, b :: payload =>
    (b ^^^ mask.getD (index % 4) 0) :: unmaskFrom mask (index + 1) payload

def unmask (mask payload : Bytes) : Bytes := unmaskFrom mask 0 payload

/-- The payload length and the bytes behind the length field; `none` while the
extended length is incomplete. -/
def readLength (code : UInt8) (rest : Bytes) : Option (Nat × Bytes) :=
  if code = 126 then
    if rest.length < 2 then none else some (readBig (rest.take 2), rest.drop 2)
  else if code = 127 then
    if rest.length < 8 then none else some (readBig (rest.take 8), rest.drop 8)
  else some (code.toNat, rest)

/-- The loop body of `Decoder::Push` up to `buffer_.erase`: `more` is its
`break`, `bad` its `Reset(); return false`. -/
def readFrame : Bytes → Found UInt8 Frame
  | first :: second :: rest =>
    let final := (first &&& 0x80) != 0
    let opcodeValue := first &&& 0x0f
    if (first &&& 0x70) != 0 || (second &&& 0x80) == 0 then .bad
    else
      match readLength (second &&& 0x7f) rest with
      | none => .more
      | some (payloadLength, body) =>
        let control := opcodeValue ≥ 0x8
        if payloadLength > kMaxMessageBytes ∨ (control ∧ (!final ∨ payloadLength > 125)) then .bad
        else if body.length < 4 + payloadLength then .more
        else
          .item ⟨final, opcodeValue, unmask (body.take 4) ((body.drop 4).take payloadLength)⟩
            (body.drop (4 + payloadLength))
  | _ => .more

/-- `fragmented_` and `fragmented_opcode_`. -/
structure Fragments where
  fragmented : Bytes := []
  fragmentedOpcode : Option Opcode := none
  deriving DecidableEq, Repr

/-- The loop body of `Decoder::Push` after `buffer_.erase`; `none` is its
`Reset(); return false`. -/
def acceptFrame (d : Fragments) (frame : Frame) : Option (Fragments × List Message) :=
  match Opcode.ofValue frame.opcodeValue with
  | some .text => acceptData .text
  | some .binary => acceptData .binary
  | some .continuation =>
    match d.fragmentedOpcode with
    | none => none
    | some opcode =>
      if d.fragmented.length + frame.decoded.length > kMaxMessageBytes then none
      else if frame.final then some ({}, [⟨opcode, d.fragmented ++ frame.decoded⟩])
      else some ({ d with fragmented := d.fragmented ++ frame.decoded }, [])
  | some opcode => some (d, [⟨opcode, frame.decoded⟩])
  | none => none
where
  acceptData (opcode : Opcode) : Option (Fragments × List Message) :=
    if d.fragmentedOpcode.isSome then none
    else if frame.final then some (d, [⟨opcode, frame.decoded⟩])
    else some (⟨frame.decoded, some opcode⟩, [])

structure Decoder where
  buffer : Bytes := []
  fragments : Fragments := {}
  deriving DecidableEq, Repr

/-- The loop of `Decoder::Push`. Every turn takes a whole frame off the buffer,
so its length is fuel enough. -/
def pushLoop : Nat → Decoder → Bool × Decoder × List Message
  | 0, d => (true, d, [])
  | fuel + 1, d =>
    match readFrame d.buffer with
    | .more => (true, d, [])
    | .bad => (false, {}, [])
    | .item frame rest =>
      match acceptFrame d.fragments frame with
      | none => (false, {}, [])
      | some (fragments, out) =>
        let r := pushLoop fuel ⟨rest, fragments⟩
        (r.1, r.2.1, out ++ r.2.2)

/-- `Decoder::Push`: the result, the decoder left behind, and the messages appended. -/
def push (d : Decoder) (data : Bytes) : Bool × Decoder × List Message :=
  if d.buffer.length + data.length > kMaxMessageBytes * 2 then (false, {}, [])
  else
    pushLoop (d.buffer ++ data).length { d with buffer := d.buffer ++ data }

/-- Consecutive `Push` calls up to and including the first that fails: whether
all succeeded, and the messages appended. -/
def pushAll : Decoder → List Bytes → Bool × List Message
  | _, [] => (true, [])
  | d, data :: rest =>
    match push d data with
    | (false, _, out) => (false, out)
    | (true, d', out) => ((pushAll d' rest).1, out ++ (pushAll d' rest).2)

theorem readLength_append {code : UInt8} {rest body : Bytes} {n : Nat}
    (h : readLength code rest = some (n, body)) (x : Bytes) :
    readLength code (rest ++ x) = some (n, body ++ x) := by
  simp only [readLength, List.length_append] at h ⊢
  split at h
  · rename_i hc
    split at h
    · cases h
    · cases h
      rw [if_pos hc, if_neg (by omega), List.take_append_of_le_length (by omega),
        List.drop_append_of_le_length (by omega)]
  · rename_i hc
    split at h
    · rename_i hd
      split at h
      · cases h
      · cases h
        rw [if_neg hc, if_pos hd, if_neg (by omega), List.take_append_of_le_length (by omega),
          List.drop_append_of_le_length (by omega)]
    · rename_i hd
      cases h
      rw [if_neg hc, if_neg hd]

theorem readLength_length {code : UInt8} {rest body : Bytes} {n : Nat}
    (h : readLength code rest = some (n, body)) : body.length ≤ rest.length := by
  simp only [readLength] at h
  repeat' split at h
  all_goals cases h
  all_goals simp

theorem readLength_header {code : UInt8} {rest body : Bytes} {n : Nat}
    (h : readLength code rest = some (n, body)) : rest.length ≤ body.length + 8 := by
  simp only [readLength] at h
  repeat' split at h
  all_goals cases h
  all_goals first | omega | (simp only [List.length_drop]; omega)

/-- `none` is read only while fewer than eight length bytes are there. -/
theorem readLength_none {code : UInt8} {rest : Bytes} (h : readLength code rest = none) :
    rest.length < 8 := by
  simp only [readLength] at h
  repeat' split at h
  all_goals first | omega | cases h

/-- The frame reader as an instance of the library's readers. -/
def frameReader : Reader UInt8 Frame where
  read := readFrame
  nil := rfl
  bad_append := by
    intro b h x
    match b with
    | [] | [_] => simp [readFrame] at h
    | first :: second :: rest =>
      simp only [List.cons_append, readFrame] at h ⊢
      split at h
      · rename_i hb
        rw [if_pos hb]
      · rename_i hb
        rw [if_neg hb]
        split at h
        · cases h
        · rename_i n body hl
          rw [readLength_append hl x]
          dsimp only at h ⊢
          split at h
          · rename_i hbad
            rw [if_pos hbad]
          · split at h <;> cases h
  item_append := by
    intro b t r h x
    match b with
    | [] | [_] => simp [readFrame] at h
    | first :: second :: rest =>
      simp only [List.cons_append, readFrame] at h ⊢
      split at h
      · cases h
      · rename_i hb
        rw [if_neg hb]
        split at h
        · cases h
        · rename_i n body hl
          rw [readLength_append hl x]
          dsimp only at h ⊢
          split at h
          · cases h
          · rename_i hbad
            rw [if_neg hbad]
            split at h
            · cases h
            · rename_i hlen
              cases h
              rw [if_neg (by simp only [List.length_append]; omega),
                List.take_append_of_le_length (by omega),
                List.drop_append_of_le_length (by omega),
                List.drop_append_of_le_length (by omega),
                List.take_append_of_le_length (by simp only [List.length_drop]; omega)]
  shrinks := by
    intro b t r h
    match b with
    | [] | [_] => simp [readFrame] at h
    | first :: second :: rest =>
      simp only [readFrame] at h
      split at h
      · cases h
      · split at h
        · cases h
        · rename_i n body hl
          have := readLength_length hl
          split at h
          · cases h
          · split at h
            · cases h
            · cases h
              simp only [List.length_drop, List.length_cons]
              omega

/-- A buffer that still waits for bytes is shorter than the longest frame. -/
theorem readFrame_more_length {b : Bytes} (h : readFrame b = .more) :
    b.length < kMaxMessageBytes + 14 := by
  match b with
  | [] | [_] => simp [kMaxMessageBytes]
  | first :: second :: rest =>
    simp only [readFrame] at h
    split at h
    · cases h
    · split at h
      · rename_i hl
        have := readLength_none hl
        simp only [List.length_cons, kMaxMessageBytes]
        omega
      · rename_i n body hl
        split at h
        · cases h
        · rename_i hbad
          split at h
          · rename_i hlen
            have hbody := readLength_header hl
            simp only [not_or, not_lt] at hbad
            simp only [List.length_cons]
            omega
          · cases h

/-- The loop is the library's `drain` of the buffer. -/
theorem pushLoop_eq (fuel : Nat) (d : Decoder) (hf : d.buffer.length ≤ fuel) :
    pushLoop fuel d =
      match frameReader.drain acceptFrame d.fragments d.buffer with
      | (none, out) => (false, {}, out)
      | (some (left, fragments), out) => (true, ⟨left, fragments⟩, out) := by
  induction fuel generalizing d with
  | zero =>
    have hb : d.buffer = [] := List.length_eq_zero_iff.mp (by omega)
    rw [pushLoop, hb, Reader.drain_more frameReader.nil]
    cases d
    simp_all
  | succ fuel ih =>
    rw [pushLoop]
    split
    · rename_i hr
      rw [Reader.drain_more (R := frameReader) hr]
    · rename_i hr
      rw [Reader.drain_bad (R := frameReader) hr]
    · rename_i frame rest hr
      have hlt := frameReader.shrinks hr
      split
      · rename_i ha
        rw [Reader.drain_refused (R := frameReader) hr ha]
      · rename_i fragments out ha
        rw [Reader.drain_item (R := frameReader) hr ha, ih ⟨rest, fragments⟩ (by simp only; omega)]
        dsimp only
        match frameReader.drain acceptFrame fragments rest with
        | (none, o) => rfl
        | (some (left, f), o) => rfl

/-- A chunk no longer than a socket read never meets the size check of `Push`. -/
theorem push_eq {d : Decoder} {data : Bytes} (hd : readFrame d.buffer = .more)
    (hs : data.length ≤ 65536) :
    push d data =
      match frameReader.drain acceptFrame d.fragments (d.buffer ++ data) with
      | (none, out) => (false, {}, out)
      | (some (left, fragments), out) => (true, ⟨left, fragments⟩, out) := by
  have hl := readFrame_more_length hd
  rw [push, if_neg (by simp only [kMaxMessageBytes] at *; omega)]
  exact pushLoop_eq _ ⟨d.buffer ++ data, d.fragments⟩ (Nat.le_refl _)

theorem pushAll_eq_feed {d : Decoder} {chunks : List Bytes} (hd : readFrame d.buffer = .more)
    (hs : ∀ c ∈ chunks, c.length ≤ 65536) :
    pushAll d chunks =
      ((frameReader.feed acceptFrame (d.buffer, d.fragments) chunks).1.isSome,
       (frameReader.feed acceptFrame (d.buffer, d.fragments) chunks).2) := by
  induction chunks generalizing d with
  | nil => rfl
  | cons c chunks ih =>
    simp only [pushAll, push_eq hd (hs c (by simp)), Reader.feed]
    rcases hr : frameReader.drain acceptFrame d.fragments (d.buffer ++ c) with
      ⟨_ | ⟨left, fragments⟩, out⟩
    · rfl
    · have hleft : readFrame left = .more := Reader.drain_left (R := frameReader) hr
      have hrest := ih (d := ⟨left, fragments⟩) hleft (fun c hc => hs c (by simp [hc]))
      simp only [hrest]

/-- What consecutive pushes deliver is a function of the bytes alone. -/
theorem pushAll_eq {chunks : List Bytes} (hs : ∀ c ∈ chunks, c.length ≤ 65536) :
    pushAll {} chunks =
      ((frameReader.drain acceptFrame {} chunks.flatten).1.isSome,
       (frameReader.drain acceptFrame {} chunks.flatten).2) := by
  have hf : frameReader.feed acceptFrame ([], {}) chunks =
      frameReader.drain acceptFrame {} ([] ++ chunks.flatten) := Reader.feed_eq _ _ chunks rfl
  rw [pushAll_eq_feed (d := {}) rfl hs]
  simp only [hf, List.nil_append]

end HarmonyScreen.Receiver.WebSocket
