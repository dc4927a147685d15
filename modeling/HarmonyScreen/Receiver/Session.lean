import HarmonyScreen.Lib.Program
import HarmonyScreen.Receiver.AvcInput
import HarmonyScreen.Receiver.DecoderState
import HarmonyScreen.Receiver.NativeProtocol
import HarmonyScreen.Receiver.WebSocket

namespace HarmonyScreen.Receiver
open Lib Protocol

/-- The codes of the handshake's `error` replies. -/
inductive ErrorCode where
  | challengeInvalid
  | protocolMismatch
  | authorizationReplayed
  | authorizationExpired
  | shortCodeRequiresManualIpv4
  | pairingFailed
  | challengeStateInvalid
  | notPaired
  | identityMismatch
  | epochStale
  | epochContractMismatch
  | decoderConfigurationFailed
  | challengeRequired
  deriving DecidableEq, Repr

def ErrorCode.text : ErrorCode → Bytes
  | challengeInvalid => ascii "challenge_invalid"
  | protocolMismatch => ascii "protocol_mismatch"
  | authorizationReplayed => ascii "authorization_replayed"
  | authorizationExpired => ascii "authorization_expired"
  | shortCodeRequiresManualIpv4 => ascii "short_code_requires_manual_ipv4"
  | pairingFailed => ascii "pairing_failed"
  | challengeStateInvalid => ascii "challenge_state_invalid"
  | notPaired => ascii "not_paired"
  | identityMismatch => ascii "identity_mismatch"
  | epochStale => ascii "epoch_stale"
  | epochContractMismatch => ascii "epoch_contract_mismatch"
  | decoderConfigurationFailed => ascii "decoder_configuration_failed"
  | challengeRequired => ascii "challenge_required"

/-- What the Receiver sends on the control connection. -/
inductive Reply where
  | error (code : ErrorCode)
  | pairProof (proofMode sessionId senderId nonce deviceId proof : Bytes)
  | paired (deviceId credential : Bytes)
  | authProof (senderId deviceId : Bytes) (sourceEpoch : Nat) (nonce proof : Bytes)
  | ready (sourceEpoch : Nat) (contract : MediaContract)
  | keyframe
  | pong (at_ : Int)
  | telemetry (text : Bytes)
  deriving DecidableEq, Repr

/-- `operator<<` of a signed integer. -/
def signedDecimal (value : Int) : Bytes :=
  if value < 0 then 0x2d :: decimal value.natAbs else decimal value.natAbs

/-- The JSON text handed to `SendControl`. -/
def Reply.text : Reply → Bytes
  | error code =>
    ascii "\x7b\"type\":\"error\",\"protocol\":6,\"code\":\"" ++ escapeJson code.text ++
      ascii "\"\x7d"
  | pairProof proofMode sessionId senderId nonce deviceId proof =>
    ascii "\x7b\"type\":\"pair_proof\",\"protocol\":6,\"mode\":\"pair\",\"proofMode\":\"" ++
      proofMode ++ ascii "\",\"sessionId\":\"" ++ sessionId ++ ascii "\",\"senderId\":\"" ++
      senderId ++ ascii "\",\"nonce\":\"" ++ nonce ++ ascii "\",\"deviceId\":\"" ++ deviceId ++
      ascii "\",\"proof\":\"" ++ proof ++ ascii "\"\x7d"
  | paired deviceId credential =>
    ascii "\x7b\"type\":\"paired\",\"protocol\":6,\"deviceId\":\"" ++ deviceId ++
      ascii "\",\"credential\":\"" ++ credential ++ ascii "\"\x7d"
  | authProof senderId deviceId sourceEpoch nonce proof =>
    ascii "\x7b\"type\":\"auth_proof\",\"protocol\":6,\"mode\":\"auth\",\"senderId\":\"" ++
      senderId ++ ascii "\",\"deviceId\":\"" ++ deviceId ++ ascii "\",\"sourceEpoch\":" ++
      decimal sourceEpoch ++ ascii ",\"nonce\":\"" ++ nonce ++ ascii "\",\"proof\":\"" ++
      proof ++ ascii "\"\x7d"
  | ready sourceEpoch contract =>
    ascii "\x7b\"type\":\"ready\",\"protocol\":6,\"sourceEpoch\":" ++ decimal sourceEpoch ++
      ascii ",\"width\":" ++ decimal contract.width ++ ascii ",\"height\":" ++
      decimal contract.height ++ ascii ",\"maxFps\":" ++ decimal contract.maxFps ++ ascii "\x7d"
  | keyframe =>
    ascii "\x7b\"type\":\"keyframe\",\"protocol\":6,\"reason\":\"loss_flush_or_session_start\",\"requireCodecConfig\":true\x7d"
  | pong at_ =>
    ascii "\x7b\"type\":\"pong\",\"protocol\":6,\"at\":" ++ signedDecimal at_ ++ ascii "\x7d"
  | telemetry text => text

/-- An input buffer the codec has offered, with what it will answer about it:
its capacity, whether it has an address, and whether setting its attributes and
pushing it both succeed. -/
structure InputSlot where
  index : Nat
  capacity : Int
  addressed : Bool
  pushes : Bool
  deriving DecidableEq, Repr

/-- Whether an input of `size` bytes can be copied into the slot's buffer. -/
def InputSlot.fits (slot : InputSlot) (size : Nat) : Bool :=
  0 ≤ slot.capacity && slot.addressed && (size : Int) ≤ slot.capacity

/-- `DecodedInput`; `arrival` and `epoch` only record which video message it is from. -/
structure DecodedInput where
  bytes : Bytes
  timestampUs : Nat
  kind : DecoderInputKind
  arrival : Nat
  epoch : Nat
  deriving DecidableEq, Repr

/-- A pairing that was asked for and waits for its final message. -/
structure PairChallengeState where
  sessionId : Bytes
  senderId : Bytes
  nonce : Bytes
  deviceId : Bytes
  manualIpv4 : Bool
  deriving DecidableEq, Repr

/-- A final pairing message at the check of its authorization, with everything
else that decides what becomes of it. -/
structure PairingAttempt where
  challenge : PairChallengeState
  token : Bytes
  deviceId : Bytes
  pendingSessionId : Bytes
  pendingToken : Bytes
  pendingShortCode : Bytes
  consumedSessionId : Bytes
  pairingExpiresAt : Int
  now : Int
  random : Bool
  deriving DecidableEq, Repr

/-- The epochs and contracts of the session, in both lock domains. -/
structure SourceState where
  latestEpoch : Nat := 0
  activeEpoch : Nat := 0
  activeContract : MediaContract := {}
  decoderContract : MediaContract := {}
  deriving DecidableEq, Repr

/-- What happened so far. The log is kept for the properties alone: no function
of the session reads it. -/
inductive Observation where
  /-- A message taken up by the handshake, and the epochs and contracts at that moment. -/
  | message (m : WebSocket.Message) (source : SourceState)
  /-- A reply given to `SendControl`, and whether its whole frame was handed to the socket. -/
  | reply (r : Reply) (whole : Bool)
  /-- A successful `AuthorizeQr` or `AuthorizeShortCode`. -/
  | granted
  /-- A final pairing message reached the check of its authorization. -/
  | presented (attempt : PairingAttempt)
  /-- The pairing was committed on the grant of that number. -/
  | paired (grant : Nat) (sessionId : Bytes)
  /-- The `paired` reply of that grant is given to `SendControl`. -/
  | answered (grant : Nat)
  /-- An authenticated epoch and contract were committed. -/
  | committed (epoch : Nat) (contract : MediaContract)
  /-- What a call of `FlushDecoder` or `ReconfigureDecoder` comes to. -/
  | prepared (recovered : Bool)
  /-- A video message of the active epoch, with the recovery state it met and
  whether a sync frame was waiting. -/
  | arrived (arrival : Nat) (keyframe : Bool) (state : DecoderRecoveryState) (waiting : Bool)
  /-- A recovery input split off a keyframe, and the recovery state at its submission. -/
  | recovering (arrival : Nat) (state : DecoderRecoveryState)
  /-- The codec's slot was admitted. -/
  | admitted (slot : InputSlot)
  /-- The pump took a slot and an input off their queues. -/
  | popped (slot : InputSlot) (input : DecodedInput) (state : DecoderRecoveryState)
  /-- The slot went to `SetBufferAttr` and `PushInputBuffer` with this input. -/
  | pushed (slot : InputSlot) (input : DecodedInput)
  /-- `ClearDecoderQueues`. -/
  | cleared
  /-- The queue refused an input and was emptied. -/
  | refused
  /-- `OH_VideoDecoder_Start` succeeded. -/
  | started
  /-- A call of `OH_VideoDecoder_Flush`, `Stop` or `Destroy` began. -/
  | halted
  deriving DecidableEq, Repr

/-- The threads that lock `decoder_lifecycle_mutex_`. -/
inductive LifecycleThread where
  | network
  | surface
  deriving DecidableEq, Repr

/-- The codec instance that was created last, as the platform sees it: what it was
configured with, whether it is started, and the callers of its callbacks that
have not returned. -/
structure AvCodec where
  address : Nat := 0
  contract : Option MediaContract := none
  surface : Option Nat := none
  started : Bool := false
  callbacks : List Nat := []
  deriving DecidableEq, Repr

structure ReceiverSession where
  state : String := "idle"
  detail : String := "正在检查当前 Wi-Fi"
  listening : Bool := false
  connected : Bool := false
  deviceId : Bytes := []
  trustedSenderId : Bytes := []
  trustedCredential : Bytes := []
  pairingRecordVersion : UInt64 := 0
  pendingSessionId : Bytes := []
  pendingToken : Bytes := []
  pendingShortCode : Bytes := []
  consumedSessionId : Bytes := []
  /-- Microseconds of the system clock. -/
  pairingExpiresAt : Int := 0
  latestSourceEpoch : Nat := 0
  activeSourceEpoch : Nat := 0
  activeMediaContract : MediaContract := {}
  desired : Bool := false
  /-- A network thread was launched and has not ended. -/
  worker : Bool := false
  controlSocket : Bool := false
  telemetryQueue : List Bytes := []
  receivedFrames : Nat := 0
  receivedBytes : Nat := 0
  decoderResyncEvents : Nat := 0
  keyframeRequestsSent : Nat := 0
  /-- Who holds `decoder_lifecycle_mutex_`. -/
  lifecycleMutex : Option LifecycleThread := none
  decoderCallbackGate : DecoderLifecycleState := .stopped
  /-- The codec's address. -/
  decoder : Option Nat := none
  decoderMediaContract : MediaContract := {}
  decoderRecovery : DecoderRecoveryCoordinator := {}
  lifecycleState : ReceiverLifecycleState := {}
  inputSlots : List InputSlot := []
  decodeQueue : List DecodedInput := []
  avCodec : AvCodec := {}
  framesDecoded : Nat := 0
  framesDropped : Nat := 0
  log : List Observation := []

/-- One `send` of the loop in `SendControl`, with the `select` behind it. -/
inductive SendCall where
  | sent (count : Nat)
  | interrupted
  | wouldBlock (expired writable : Bool)
  | failed
  deriving DecidableEq, Repr

/-- What one section learns from outside the session: the system clock in
microseconds, `/dev/urandom`, the send mutex and the socket, the status or
address a codec call returns, whether the Wi-Fi address is still the current
one, and whether the listener could be opened. -/
structure External where
  now : Int := 0
  random : Option (Nat → UInt8) := none
  sendMutex : Bool := false
  sends : List SendCall := []
  codecStatus : Int := 0
  codecAddress : Option Nat := none
  addressCurrent : Bool := true
  listens : Bool := true

abbrev Session := Program ReceiverSession External

/-- `RandomHex`: empty when the random bytes cannot be read. -/
def randomHex (random : Option (Nat → UInt8)) (byteCount : Nat) : Bytes :=
  match random with
  | none => []
  | some bytes => lowerHex ((List.range byteCount).map bytes)

/-- The loop of `SendControl`: how many of the remaining bytes are left unsent. -/
def sendLoop : List SendCall → Nat → Nat
  | _, 0 => 0
  | [], remaining => remaining
  | call :: calls, remaining =>
    match call with
    | .sent count => if count = 0 then remaining else sendLoop calls (remaining - count)
    | .interrupted => sendLoop calls remaining
    | .wouldBlock expired writable =>
      if expired || !writable then remaining else sendLoop calls remaining
    | .failed => remaining

namespace ReceiverSession

def note (s : ReceiverSession) (o : Observation) : ReceiverSession := { s with log := s.log ++ [o] }

def source (s : ReceiverSession) : SourceState :=
  ⟨s.latestSourceEpoch, s.activeSourceEpoch, s.activeMediaContract, s.decoderMediaContract⟩

/-- Whether `SendControl` hands the whole frame of a text to the socket. -/
def sendsWhole (s : ReceiverSession) (e : External) (json : Bytes) : Bool :=
  let frame := WebSocket.encodeFrame .text json
  e.sendMutex && s.controlSocket && !frame.isEmpty && sendLoop e.sends frame.length == 0

/-- `SendControl`, with what the log says of the reply beforehand. -/
def sendNoted (notes : List Observation) (reply : Reply) : Session Bool :=
  Program.critical fun e s =>
    let whole := s.sendsWhole e reply.text
    (whole, { s with log := s.log ++ notes ++ [.reply reply whole] })

def sendControl (reply : Reply) : Session Bool := sendNoted [] reply

def setState (state detail : String) (listening connected : Bool) : Session Unit :=
  Program.critical fun _ s =>
    ((), { s with state := state, detail := detail, listening := listening, connected := connected })

/-- An atomic read. -/
def load (read : ReceiverSession → α) : Session α := Program.critical fun _ s => (read s, s)

/-- An atomic update. -/
def modify (f : ReceiverSession → ReceiverSession) : Session Unit :=
  Program.critical fun _ s => ((), f s)

def requestKeyframe : Session Unit :=
  modify fun s => { s with decoderRecovery := s.decoderRecovery.requestKeyFrame }

def closeControlSocket : Session Unit := modify fun s => { s with controlSocket := false }

def configureTrust (deviceId senderId credential : Bytes) (version : UInt64) : Session Bool :=
  if !hex deviceId 32 || ((!senderId.isEmpty || !credential.isEmpty) &&
      (!senderIdValid senderId || !hex credential 64)) then
    return false
  else
    Program.critical fun _ s =>
      (true, { s with
        deviceId := deviceId
        trustedSenderId := senderId
        trustedCredential := credential
        pairingRecordVersion := version })

/-- The clock is read before the lock is taken; only the arguments are compared with it. -/
def authorizeQr (sessionId token : Bytes) (expiresAtMs : Int) : Session Bool :=
  Program.critical fun e s =>
    let expiry := expiresAtMs * 1000
    if !hex sessionId 32 || !hex token 64 || expiry ≤ e.now || expiry > e.now + 65000000 then
      (false, s)
    else
      (true, { s with
        pendingSessionId := sessionId
        pendingToken := token
        pendingShortCode := []
        pairingExpiresAt := expiry
        detail := "一次性扫码授权已就绪，等待 Edge 连接"
        log := s.log ++ [.granted] })

def authorizeShortCode (shortCode : Bytes) : Session Bool :=
  if shortCode.length ≠ 6 ∨ !shortCode.all isDigit then return false
  else
    Program.critical fun e s =>
      (true, { s with
        pendingSessionId := []
        pendingToken := []
        pendingShortCode := shortCode
        pairingExpiresAt := e.now + 60000000
        detail := "一次性短码授权已就绪，请在扩展填写本机数字 IPv4"
        log := s.log ++ [.granted] })

def forgetDevice : Session Unit := do
  modify fun s => { s with
    trustedSenderId := []
    trustedCredential := []
    pendingSessionId := []
    pendingToken := []
    pendingShortCode := []
    pairingRecordVersion := s.pairingRecordVersion + 1
    detail := "已忘记电脑，需要重新扫码配对" }
  closeControlSocket

end ReceiverSession

end HarmonyScreen.Receiver
