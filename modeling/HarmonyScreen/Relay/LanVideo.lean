import HarmonyScreen.Receiver.NativeProtocol

namespace HarmonyScreen.Relay
open Receiver Receiver.Protocol

def kLocalVideoMagic : Nat := 0x48574C31
def kLocalVideoVersion : Nat := 1
def kLocalVideoHeaderSize : Nat := 24
def kMaxVideoPayloadBytes : Nat := 8 * 1024 * 1024
def kVideoFlagKeyFrame : UInt8 := 1 <<< (0 : UInt8)

structure LocalVideoMessage where
  keyFrame : Bool := false
  sequence : Nat := 0
  timestampUs : Nat := 0
  payload : Bytes
  deriving DecidableEq, Repr

/-- The callers' result is never null. -/
def parseLocalVideoMessage (message : Bytes) : Except String LocalVideoMessage :=
  let flags := (field message 5 1).toUInt8
  let payloadLength := field message 12 4
  if message.length < kLocalVideoHeaderSize then
    .error "message is shorter than the local video header"
  else if field message 0 4 ≠ kLocalVideoMagic then .error "local video magic does not match"
  else if field message 4 1 ≠ kLocalVideoVersion then .error "local video version does not match"
  else if flags &&& ~~~kVideoFlagKeyFrame ≠ 0 then
    .error "local video flags contain unsupported bits"
  else if field message 6 2 ≠ kLocalVideoHeaderSize then
    .error "local video header size does not match"
  else if payloadLength > kMaxVideoPayloadBytes then .error "local video payload exceeds 8 MiB"
  else if message.length ≠ kLocalVideoHeaderSize + payloadLength then
    .error "local video payload length does not match message size"
  else
    .ok {
      keyFrame := flags &&& kVideoFlagKeyFrame ≠ 0
      sequence := field message 8 4
      timestampUs := field message 16 8
      payload := message.drop kLocalVideoHeaderSize }

def kLanVideoMagic : Nat := 0x48535332
def kLanProtocolVersion : Nat := 2
def kLanVideoHeaderSize : Nat := 32
def kLanMaxUdpPayload : Nat := 1200

/-- One round of the loop of `BuildLanVideoDatagrams`. -/
def lanVideoDatagram (video : LocalVideoMessage) (sessionShort : UInt32)
    (fragmentCount fragment : Nat) : Bytes :=
  let offset := fragment * kLanMaxUdpPayload
  let payloadSize := min kLanMaxUdpPayload (video.payload.length - offset)
  let flags := (if video.keyFrame then 0x0003 else 0) |||
    (if fragment + 1 = fragmentCount then 0x0004 else 0)
  bigEndian 4 kLanVideoMagic ++ (bigEndian 1 kLanProtocolVersion ++
    (bigEndian 1 kLanVideoHeaderSize ++ (bigEndian 2 flags ++ (bigEndian 4 sessionShort.toNat ++
    (bigEndian 4 video.sequence ++ (bigEndian 2 fragment ++ (bigEndian 2 fragmentCount ++
    (bigEndian 2 payloadSize ++ (bigEndian 2 0 ++ (bigEndian 8 video.timestampUs ++
    (video.payload.drop offset).take payloadSize))))))))))

def buildLanVideoDatagrams (video : LocalVideoMessage) (sessionShort : UInt32) : List Bytes :=
  let fragmentCount := (video.payload.length + kLanMaxUdpPayload - 1) / kLanMaxUdpPayload
  if sessionShort = 0 ∨ video.payload = [] ∨ video.payload.length > kMaxVideoPayloadBytes then []
  else if fragmentCount = 0 ∨ fragmentCount > 0xFFFF then []
  else (List.range fragmentCount).map (lanVideoDatagram video sessionShort fragmentCount)

/-- `LanSender`, as far as the video path uses it; an invalid socket is `none`, and `taken` is the
history of the messages that have gone to the socket whole. -/
structure LanSender where
  connected : Bool
  sessionShort : UInt32
  videoSocket : Option Nat
  sentFrames : UInt64 := 0
  sentBytes : UInt64 := 0
  sentDatagrams : UInt64 := 0
  sendErrors : UInt64 := 0
  taken : List LocalVideoMessage := []
  deriving DecidableEq, Repr

namespace LanSender

/-- The loop of `SendAccessUnit`; `send` gives what the socket says to its calls in turn. -/
def sendPackets (send : Nat → Bytes → Int) : Nat → List Bytes → LanSender → Bool × LanSender
  | _, [], sender => (true, sender)
  | call, packet :: packets, sender =>
    if send call packet ≠ packet.length then
      (false, { sender with sendErrors := sender.sendErrors + 1, connected := false })
    else
      sendPackets send (call + 1) packets
        { sender with sentDatagrams := sender.sentDatagrams + 1 }

def sendAccessUnit (send : Nat → Bytes → Int) (video : LocalVideoMessage) (sender : LanSender) :
    Bool × LanSender :=
  if !sender.connected then (false, sender)
  else
    let packets := buildLanVideoDatagrams video sender.sessionShort
    if packets = [] ∨ sender.videoSocket = none then
      (false, { sender with sendErrors := sender.sendErrors + 1 })
    else
      let (sent, sender) := sendPackets send 0 packets sender
      if sent then
        (true, { sender with
          sentFrames := sender.sentFrames + 1
          sentBytes := sender.sentBytes + video.payload.length.toUInt64
          taken := sender.taken ++ [video] })
      else (false, sender)

end LanSender

/-- The counters of `RunClient` that a video message moves. -/
structure VideoCounters where
  receivedFrames : UInt64 := 0
  receivedBytes : UInt64 := 0
  keyFrames : UInt64 := 0
  invalidMessages : UInt64 := 0
  deriving DecidableEq, Repr

/-- What `RunClient` does with a binary message; an error is thrown and ends the session. -/
def runVideoMessage (send : Nat → Bytes → Int) (payload : Bytes) (counters : VideoCounters)
    (sender : LanSender) : Except String Unit × VideoCounters × LanSender :=
  match parseLocalVideoMessage payload with
  | .error _ =>
    (.error "invalid local video message",
      { counters with invalidMessages := counters.invalidMessages + 1 }, sender)
  | .ok video =>
    let counters := { counters with
      receivedFrames := counters.receivedFrames + 1
      receivedBytes := counters.receivedBytes + video.payload.length.toUInt64
      keyFrames := if video.keyFrame then counters.keyFrames + 1 else counters.keyFrames }
    let (sent, sender) := sender.sendAccessUnit send video
    (if sent then .ok () else .error "LAN video send failed", counters, sender)

end HarmonyScreen.Relay
