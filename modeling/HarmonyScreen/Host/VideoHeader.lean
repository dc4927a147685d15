import HarmonyScreen.Host.HostServer

namespace HarmonyScreen.Host
open Receiver Protocol

def kVideoMagic : Nat := 0x48535331
def kVideoHeaderSize : Nat := 32
def kMaxUdpPayload : Nat := 1200

namespace VideoFlags

def kNone : UInt16 := 0
def kKeyframe : UInt16 := 1
def kCodecConfig : UInt16 := 2
def kEndOfFrame : UInt16 := 4

end VideoFlags

def hasFlag (value flag : UInt16) : Bool := value &&& flag != 0

structure VideoHeader where
  session : UInt32 := 0
  frame : UInt32 := 0
  fragment : UInt16 := 0
  fragments : UInt16 := 0
  flags : UInt16 := VideoFlags.kNone
  payloadLength : UInt16 := 0
  timestampUs : UInt64 := 0
  deriving DecidableEq, Repr

def encodeVideoHeader (header : VideoHeader) : Bytes :=
  bigEndian 4 kVideoMagic ++ (bigEndian 1 kProtocolVersion.toNat ++
    (bigEndian 1 kVideoHeaderSize ++ (bigEndian 2 header.flags.toNat ++
    (bigEndian 4 header.session.toNat ++ (bigEndian 4 header.frame.toNat ++
    (bigEndian 2 header.fragment.toNat ++ (bigEndian 2 header.fragments.toNat ++
    (bigEndian 2 header.payloadLength.toNat ++ (bigEndian 2 0 ++
    bigEndian 8 header.timestampUs.toNat)))))))))

def decodeVideoHeader (datagram : Bytes) : Option VideoHeader :=
  if datagram.length < kVideoHeaderSize ∨ field datagram 0 4 ≠ kVideoMagic ∨
      field datagram 4 1 ≠ kProtocolVersion.toNat ∨ field datagram 5 1 ≠ kVideoHeaderSize then none
  else
    let header : VideoHeader := {
      flags := (field datagram 6 2).toUInt16
      session := (field datagram 8 4).toUInt32
      frame := (field datagram 12 4).toUInt32
      fragment := (field datagram 16 2).toUInt16
      fragments := (field datagram 18 2).toUInt16
      payloadLength := (field datagram 20 2).toUInt16
      timestampUs := (field datagram 24 8).toUInt64 }
    if header.fragments = 0 ∨ header.fragment ≥ header.fragments ∨
        header.payloadLength.toNat > kMaxUdpPayload ∨
        datagram.length ≠ kVideoHeaderSize + header.payloadLength.toNat then none
    else some header

def kPipeMagic : Nat := 0x48535046
def kPipeHeaderSize : Nat := 24
def kMaxEncodedFrame : Nat := 16 * 1024 * 1024

/-- What the encoder puts out. -/
structure EncodedFrame where
  bytes : Bytes
  keyframe : Bool := false
  hasCodecConfig : Bool := false
  timestampUs : UInt64 := 0
  deriving DecidableEq, Repr

/-- A `PipeFrameHeader` without its magic, and the payload of its size. -/
structure PipeFrame where
  frame : UInt32
  flags : UInt32
  timestampUs : UInt64
  payload : Bytes
  deriving DecidableEq, Repr

/-- An unsigned integer as it lies in the memory of either process. -/
def littleEndian (count value : Nat) : Bytes := (bigEndian count value).reverse

def memoryField (data : Bytes) (offset count : Nat) : Nat :=
  readBig ((data.drop offset).take count).reverse

/-- `PipeSink::Write` refuses these before it writes anything. -/
def EncodedFrame.refused (frame : EncodedFrame) : Bool :=
  frame.bytes.isEmpty || decide (frame.bytes.length > 0xFFFFFFFF)

/-- What `PipeSink::Write` writes while the pipe is connected and takes all of it. -/
def pipeSinkWrite (frameNumber : UInt32) (frame : EncodedFrame) : Bytes :=
  if frame.refused then []
  else
    littleEndian 4 kPipeMagic ++ (littleEndian 4 frame.bytes.length ++
      (littleEndian 4 frameNumber.toNat ++
      (littleEndian 4 ((if frame.keyframe then 1 else 0) ||| (if frame.hasCodecConfig then 2 else 0)) ++
      (littleEndian 8 frame.timestampUs.toNat ++ frame.bytes))))

/-- The inner loop of `PipeLoop`: the frames it hands on from what it can read before the pipe
breaks or the host is stopped. -/
def pipeLoop (stream : Bytes) : List PipeFrame :=
  if stream.length < kPipeHeaderSize then []
  else
    let payloadSize := memoryField stream 4 4
    if memoryField stream 0 4 ≠ kPipeMagic ∨ payloadSize = 0 ∨ payloadSize > kMaxEncodedFrame then []
    else if stream.length < kPipeHeaderSize + payloadSize then []
    else
      { frame := (memoryField stream 8 4).toUInt32
        flags := (memoryField stream 12 4).toUInt32
        timestampUs := (memoryField stream 16 8).toUInt64
        payload := (stream.drop kPipeHeaderSize).take payloadSize } ::
      pipeLoop (stream.drop (kPipeHeaderSize + payloadSize))
termination_by stream.length
decreasing_by simp only [List.length_drop, kPipeHeaderSize] at *; omega

/-- One round of the loop of `SendVideoFrame`. -/
def videoDatagram (frame : PipeFrame) (session : UInt32) (fragmentCount fragment : Nat) : Bytes :=
  let offset := fragment * kMaxUdpPayload
  let length := min kMaxUdpPayload (frame.payload.length - offset)
  let packetFlags :=
    (if frame.flags &&& 1 ≠ 0 then VideoFlags.kKeyframe else VideoFlags.kNone) |||
    (if frame.flags &&& 2 ≠ 0 then VideoFlags.kCodecConfig else VideoFlags.kNone) |||
    (if fragment + 1 = fragmentCount then VideoFlags.kEndOfFrame else VideoFlags.kNone)
  encodeVideoHeader {
    session := session
    frame := frame.frame
    fragment := fragment.toUInt16
    fragments := fragmentCount.toUInt16
    flags := packetFlags
    payloadLength := length.toUInt16
    timestampUs := frame.timestampUs } ++ (frame.payload.drop offset).take length

/-- What `SendVideoFrame` sends if it may. -/
def videoDatagrams (frame : PipeFrame) (session : UInt32) : List Bytes :=
  let fragmentCount := (frame.payload.length + kMaxUdpPayload - 1) / kMaxUdpPayload
  if fragmentCount = 0 ∨ fragmentCount > 0xFFFF then []
  else (List.range fragmentCount).map (videoDatagram frame session fragmentCount)

end HarmonyScreen.Host
