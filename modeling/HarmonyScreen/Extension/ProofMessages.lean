import HarmonyScreen.Extension.DirectProtocol
import HarmonyScreen.Receiver.NativeProtocol

namespace HarmonyScreen.Extension
open Receiver

/-- `String` of a number that was checked to be an integer. -/
def Number.string (n : Number) : Bytes :=
  (if n.toInt < 0 then [0x2d] else []) ++ Protocol.decimal n.toInt.natAbs

namespace VideoContract

def videoMaxLongEdge : Int := 1920
def videoMaxShortEdge : Int := 1080
def videoMaxPixels : Int := 1920 * 1080
def videoMaxFps : Int := 60

structure MediaContract where
  width : Number
  height : Number
  maxFps : Number
  deriving DecidableEq, Repr

def validateMediaContract (value : MediaContract) : Except String MediaContract :=
  match value.width, value.height, value.maxFps with
  | .integer width, .integer height, .integer maxFps =>
    if width ≤ 0 ∨ height ≤ 0 ∨ width % 2 ≠ 0 ∨ height % 2 ≠ 0 ∨
        max width height > videoMaxLongEdge ∨ min width height > videoMaxShortEdge ∨
        width * height > videoMaxPixels ∨ maxFps ≤ 0 ∨ maxFps > videoMaxFps then
      .error "动态视频合同超出可信媒体边界"
    else .ok value
  | _, _, _ => .error "动态视频合同超出可信媒体边界"

end VideoContract

namespace DirectProtocol

def directProofNonceBytes : Nat := 32

/-- The class `[0-9a-f]`. -/
def hexClass (c : UInt8) : Bool := (0x30 ≤ c && c ≤ 0x39) || (0x61 ≤ c && c ≤ 0x66)

/-- `/^[0-9a-f]{count}$/` on a text within ASCII, given by its character codes. -/
def hexTest (count : Nat) (value : Bytes) : Bool := value.length == count && value.all hexClass

/-- `/^[0-9a-f-]{16,64}$/` -/
def senderIdTest (value : Bytes) : Bool :=
  16 ≤ value.length && value.length ≤ 64 && value.all fun c => hexClass c || c == 0x2d

def isProofNonce (value : Bytes) : Bool := hexTest (directProofNonceBytes * 2) value

structure PairChallenge where
  proofMode : Bytes
  sessionId : Bytes
  senderId : Bytes
  nonce : Bytes
  deviceId : Bytes
  deriving DecidableEq, Repr

def createPairProofMessage (c : PairChallenge) : Except String Bytes :=
  if c.proofMode ≠ ascii "qr" ∨ !hexTest 32 c.sessionId ∨ !senderIdTest c.senderId ∨
      !isProofNonce c.nonce ∨ !hexTest 32 c.deviceId then
    .error "配对挑战字段无效"
  else
    .ok ([0x0a].intercalate
      [ascii "HWC6-PAIR-PROOF", c.proofMode, c.sessionId, c.senderId, c.nonce, c.deviceId])

structure AuthChallenge where
  senderId : Bytes
  deviceId : Bytes
  sourceEpoch : Number
  nonce : Bytes
  codec : Bytes := ascii "video/avc"
  avcFormat : Bytes := ascii "annexb"
  width : Number
  height : Number
  maxFps : Number
  deriving DecidableEq, Repr

def createAuthProofMessage (c : AuthChallenge) : Except String Bytes :=
  match VideoContract.validateMediaContract ⟨c.width, c.height, c.maxFps⟩ with
  | .error _ => .error "鉴权挑战字段无效"
  | .ok mediaContract =>
    if !senderIdTest c.senderId ∨ !hexTest 32 c.deviceId ∨ !c.sourceEpoch.isWithin uint32Max ∨
        c.sourceEpoch.toInt ≤ 0 ∨ !isProofNonce c.nonce ∨ c.codec ≠ ascii "video/avc" ∨
        c.avcFormat ≠ ascii "annexb" then
      .error "鉴权挑战字段无效"
    else
      .ok ([0x0a].intercalate
        [ascii "HWC6-AUTH-PROOF", c.senderId, c.deviceId, c.sourceEpoch.string, c.nonce, c.codec,
          c.avcFormat, mediaContract.width.string, mediaContract.height.string,
          mediaContract.maxFps.string])

end DirectProtocol

end HarmonyScreen.Extension
