import HarmonyScreen.Receiver.NativeProtocol

namespace HarmonyScreen.Host
open Receiver

def kMaxControlPayload : Nat := 64 * 1024

/-- The empty result says that the payload is too long. -/
def encodeControlFrame (json : Bytes) : Bytes :=
  if json.length > kMaxControlPayload then [] else bigEndian 4 json.length ++ json

structure ControlFrameDecoder where
  buffer : Bytes := []
  deriving DecidableEq, Repr

/-- What a call of `Push` leaves: the frames it appended, its error when it returns
false, and the decoder. -/
structure Pushed where
  frames : List Bytes
  error : Option String
  decoder : ControlFrameDecoder
  deriving DecidableEq, Repr

namespace ControlFrameDecoder

def reset : ControlFrameDecoder := {}

/-- The loop of `Push` over the buffer. -/
def frameLoop (buffer : Bytes) (frames : List Bytes) : Pushed :=
  if buffer.length ≥ 4 then
    let payloadLength := readBig (buffer.take 4)
    if payloadLength = 0 ∨ payloadLength > kMaxControlPayload then
      ⟨frames, some "invalid control payload length", reset⟩
    else if buffer.length < payloadLength + 4 then ⟨frames, none, ⟨buffer⟩⟩
    else
      frameLoop (buffer.drop (payloadLength + 4))
        (frames ++ [(buffer.drop 4).take payloadLength])
  else ⟨frames, none, ⟨buffer⟩⟩
termination_by buffer.length
decreasing_by simp only [List.length_drop]; omega

def push (bytes : Bytes) (decoder : ControlFrameDecoder) : Pushed :=
  if decoder.buffer.length + bytes.length > kMaxControlPayload + 4 then
    ⟨[], some "control buffer exceeds 64 KiB", reset⟩
  else frameLoop (decoder.buffer ++ bytes) []

/-- Pushes one chunk after the other; `none` when a push is refused. -/
def pushAll : List Bytes → ControlFrameDecoder → Option (List Bytes)
  | [], _ => some []
  | bytes :: chunks, decoder =>
    let pushed := decoder.push bytes
    if pushed.error.isSome then none
    else (pushAll chunks pushed.decoder).map (pushed.frames ++ ·)

end ControlFrameDecoder

/-- `FindValueStart`: the search is that of the receiver's `ValueStart`. -/
def findValueStart (json key : Bytes) : Option Bytes := Protocol.valueStart json key

/-- What an escape stands for in the host's `JsonString`. -/
def unescape (b : UInt8) : Option UInt8 :=
  if b = 0x22 then some 0x22
  else if b = 0x5c then some 0x5c
  else if b = 0x2f then some 0x2f
  else if b = 0x62 then some 0x08
  else if b = 0x66 then some 0x0c
  else if b = 0x6e then some 0x0a
  else if b = 0x72 then some 0x0d
  else if b = 0x74 then some 0x09
  else none

/-- The text up to the closing quote. -/
def scanString : Bytes → Option Bytes
  | [] => none
  | b :: rest =>
    if b = 0x22 then some []
    else if b = 0x5c then
      match rest with
      | [] => none
      | e :: rest =>
        match unescape e with
        | none => none
        | some c => (scanString rest).map (c :: ·)
    else (scanString rest).map (b :: ·)

def jsonString (json key : Bytes) : Option Bytes :=
  match findValueStart json key with
  | some (b :: rest) => if b = 0x22 then scanString rest else none
  | _ => none

/-- Unlike the receiver's, whatever follows the digits. -/
def jsonInteger (json key : Bytes) : Option Int := do
  let start ← findValueStart json key
  let (value, _) ← Protocol.fromChars start
  return value

end HarmonyScreen.Host
