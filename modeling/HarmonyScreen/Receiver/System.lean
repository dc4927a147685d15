import HarmonyScreen.Receiver.Authentication

namespace HarmonyScreen.Receiver
open Lib Protocol WebSocket

namespace ReceiverSession

def handleControl (json : Bytes) : Session Bool :=
  if jsonInteger json (ascii "protocol") ≠ some (kVersion : Int) then return false
  else if textIs json "type" "ping" then
    match jsonInteger json (ascii "at") with
    | none => return false
    | some at_ => sendControl (.pong at_)
  else return !textIs json "type" "close"

/-- The answer to a ping goes out in one `send`. -/
def sendPong (payload : Bytes) : Session Bool :=
  Program.critical fun e s =>
    (e.sends.head? == some (.sent (encodeFrame .pong payload).length), s)

/-- One message of a connected session; whether the session goes on. -/
def handleSessionMessage (message : Message) : Session Bool :=
  match message.opcode with
  | .text => handleControl message.payload
  | .binary => do
    handleVideo message.payload
    return true
  | .ping => sendPong message.payload
  | .close => return false
  | .pong | .continuation => return true

def handleSessionMessages : List Message → Session Bool
  | [] => return true
  | message :: messages => do
    let goesOn ← handleSessionMessage message
    if !goesOn then return false else handleSessionMessages messages

def continueWithCurrentAddress : Session Bool := do
  let current ← Program.critical fun e s => (e.addressCurrent, s)
  if current then return true
  else
    modify fun s => { s with desired := false }
    setState "error" "Wi-Fi 地址已变化，请重新确认后开始接收" false false
    return false

/-- One telemetry text, when there is one. -/
def sendTelemetry : Session Bool := do
  let telemetry ← Program.critical fun _ s =>
    (s.telemetryQueue.head?, { s with telemetryQueue := s.telemetryQueue.tail })
  match telemetry with
  | none => return true
  | some text => sendControl (.telemetry text)

/-- What a turn of the session sends when nothing failed: a pending keyframe
request, and one telemetry text. -/
def sendPending : Session Bool := do
  let requested ← Program.critical fun _ s =>
    let (requested, recovery) := s.decoderRecovery.consumeKeyFrameRequest
    (requested, { s with decoderRecovery := recovery })
  let sent ← if requested then sendControl .keyframe else pure true
  if !sent then return false
  else
    if requested then modify fun s => { s with keyframeRequestsSent := s.keyframeRequestsSent + 1 }
    sendTelemetry

/-- The loop of `RunConnectedSession` over the turns it makes. -/
def connectedLoop : List Turn → Decoder → Session Unit
  | [], _ => return ()
  | turn :: turns, decoder => do
    let desired ← load (·.desired)
    let current ← if desired then continueWithCurrentAddress else pure false
    if !current then return ()
    else
      match turn with
      | .ended => return ()
      | .idle =>
        let sent ← sendPending
        if !sent then return () else connectedLoop turns decoder
      | .received data =>
        match push decoder data with
        | (false, _, _) => return ()
        | (true, decoder, messages) =>
          let goesOn ← handleSessionMessages messages
          let sent ← if goesOn then sendPending else pure false
          if !sent then return () else connectedLoop turns decoder

def runConnectedSession (turns : List Turn) (decoder : Decoder) : Session Unit := do
  let socket ← load (·.controlSocket)
  if !socket then return () else connectedLoop turns decoder

/-- A connection that `accept` returned: whether its upgrade succeeded, and the
turns of its handshake and of its session. -/
structure Connection where
  upgraded : Bool
  authentication : List Turn
  session : List Turn

/-- `AcceptWebSocket` on a connection of a private peer. -/
def acceptWebSocket (c : Connection) : Session Unit := do
  modify fun s => { s with controlSocket := true }
  if !c.upgraded then return ()
  else
    let (authenticated, decoder) ← authenticateConnection c.authentication
    if authenticated then runConnectedSession c.session decoder

/-- The text of the state in which the Receiver waits for a computer. -/
def waitingDetail : String := "等待电脑发送画面；首次使用请先连接电脑"

/-- The loop of `NetworkLoop`; a turn without a connection is `none`. When
nobody connects any more it waits to be stopped. -/
def networkTurns : List (Option Connection) → Session Unit
  | [] => Program.await fun s => !s.desired
  | turn :: turns => do
    let desired ← load (·.desired)
    let current ← if desired then continueWithCurrentAddress else pure false
    if !current then return ()
    else
      match turn with
      | none => networkTurns turns
      | some c =>
        acceptWebSocket c
        closeControlSocket
        let desired ← load (·.desired)
        if desired then setState "listening" waitingDetail true false
        networkTurns turns

/-- What ends a network thread: `worker` is down once it can be joined. -/
def networkEnd : Session Unit := do
  closeControlSocket
  modify fun s => { s with telemetryQueue := [] }
  modify fun s => { s with decoderRecovery := {} }
  modify fun s => { s with worker := false }

def networkLoop (turns : List (Option Connection)) : Session Unit := do
  let listens ← Program.critical fun e s => (e.listens, s)
  if !listens then
    let desired ← load (·.desired)
    if desired then setState "error" "无法开始接收，请检查 Wi-Fi 后重试" false false
    closeControlSocket
    modify fun s => { s with worker := false }
  else
    setState "listening" waitingDetail true false
    networkTurns turns
    networkEnd

def stop : Session Unit := do
  modify fun s => { s with desired := false }
  closeControlSocket
  Program.await fun s => !s.worker
  modify fun s => { s with telemetryQueue := [] }
  modify fun s => { s with decoderRecovery := {} }
  setState "idle" "尚未开始接收画面" false false

/-- A device id is generated under one lock and kept under another. -/
def generateDeviceId : Session Bool := do
  let generated ← Program.critical fun e s =>
    (if s.deviceId = [] then randomHex e.random 16 else [], s)
  if generated ≠ [] then
    modify fun s => if s.deviceId = [] then { s with deviceId := generated } else s
  Program.critical fun _ s =>
    if s.deviceId = [] then
      (false, { s with
        state := "error", detail := "无法生成设备身份", listening := false, connected := false })
    else (true, s)

def start : Session Unit := do
  let current ← Program.critical fun e s => (e.addressCurrent, s)
  if !current then setState "error" "这个地址不是平板当前使用的 Wi-Fi 地址" false false
  else
    stop
    let identified ← generateDeviceId
    if !identified then return ()
    else
      modify fun s => { s with
        framesDecoded := 0
        framesDropped := 0
        receivedFrames := 0
        receivedBytes := 0
        decoderResyncEvents := 0
        keyframeRequestsSent := 0
        decoderRecovery := {} }
      modify fun s => { s with desired := true }
      setState "starting" "正在准备接收电脑画面" false false
      modify fun s => { s with worker := true }

/-- The telemetry text about one output buffer. -/
def telemetryText (captureUs displayUs : Int) (decoded : Nat) (s : ReceiverSession) : Bytes :=
  ascii "\x7b\"type\":\"telemetry\",\"protocol\":6,\"captureUs\":" ++ signedDecimal captureUs ++
    ascii ",\"displayUs\":" ++ signedDecimal displayUs ++
    ascii ",\"receivedFrames\":" ++ decimal s.receivedFrames ++
    ascii ",\"receivedBytes\":" ++ decimal s.receivedBytes ++
    ascii ",\"receiverDecodedFrames\":" ++ decimal decoded ++
    ascii ",\"receiverDroppedFrames\":" ++ decimal s.framesDropped ++
    ascii ",\"receiverResyncEvents\":" ++ decimal s.decoderResyncEvents ++
    ascii ",\"receiverKeyframeRequests\":" ++ decimal s.keyframeRequestsSent ++ ascii "\x7d"

/-- `BoundedControlQueue::Push` with the telemetry queue's capacity of eight. -/
def pushTelemetry (text : Bytes) (s : ReceiverSession) : ReceiverSession :=
  { s with telemetryQueue := s.telemetryQueue.drop (s.telemetryQueue.length - 7) ++ [text] }

/-- `DecoderOutput` for a buffer whose attributes can be read and are not the
end of the stream (`shown`); rendering it is the codec's answer. -/
def decoderOutput (decoder : Nat) (shown : Bool) (captureUs : Int) : Session Unit := do
  let allowed ← load fun s => s.callbacksAllowed && s.decoder == some decoder
  if !allowed || !shown then return ()
  else
    let rendered ← codecCall
    if rendered ≠ 0 then return ()
    else
      let decoded ← Program.critical fun _ s =>
        (s.framesDecoded + 1, { s with framesDecoded := s.framesDecoded + 1 })
      if decoded = 1 then setState "displaying" "正在播放电脑发送的画面" true true
      Program.critical fun e s => ((), s.pushTelemetry (s.telemetryText captureUs e.now decoded))

end ReceiverSession

/-- The threads of the process. -/
inductive Thread where
  | network
  | ui
  | surface
  | codec (n : Nat)
  deriving DecidableEq, Repr

/-- What a thread can be asked to do. -/
inductive Job where
  | network (turns : List (Option ReceiverSession.Connection))
  | start
  | stop
  | configureTrust (deviceId senderId credential : Bytes) (version : UInt64)
  | authorizeQr (sessionId token : Bytes) (expiresAtMs : Int)
  | authorizeShortCode (shortCode : Bytes)
  | forgetDevice
  | lifecycle (event : ReceiverSession.LifecycleEvent)
  | needInput (decoder : Nat) (slot : InputSlot)
  | output (decoder : Nat) (shown : Bool) (captureUs : Int)
  | error (errorCode : Int)

def Job.program : Job → Session Unit
  | network turns => ReceiverSession.networkLoop turns
  | start => ReceiverSession.start
  | stop => ReceiverSession.stop
  | configureTrust deviceId senderId credential version => do
    let _ ← ReceiverSession.configureTrust deviceId senderId credential version
  | authorizeQr sessionId token expiresAtMs => do
    let _ ← ReceiverSession.authorizeQr sessionId token expiresAtMs
  | authorizeShortCode shortCode => do
    let _ ← ReceiverSession.authorizeShortCode shortCode
  | forgetDevice => ReceiverSession.forgetDevice
  | lifecycle event => ReceiverSession.onLifecycleEvent event
  | needInput decoder slot => ReceiverSession.decoderNeedInput decoder slot
  | output decoder shown captureUs => ReceiverSession.decoderOutput decoder shown captureUs
  | error errorCode => ReceiverSession.decoderError errorCode

/-- Whose job it is. -/
def Job.isOf : Job → Thread → Bool
  | network _, .network => true
  | start, .ui | stop, .ui | configureTrust .., .ui | authorizeQr .., .ui => true
  | authorizeShortCode _, .ui | forgetDevice, .ui => true
  | lifecycle _, .surface => true
  | needInput .., .codec _ | output .., .codec _ | error _, .codec _ => true
  | _, _ => false

/-- A thread given another's job does nothing. -/
def spawn (thread : Thread) (job : Job) : Session Unit :=
  if job.isOf thread then job.program else .ret ()

/-- A network thread runs only when `Start` has launched it. -/
def launched (s : ReceiverSession) (thread : Thread) (_ : Job) : Prop :=
  thread = .network → s.worker = true

instance (s : ReceiverSession) (thread : Thread) (job : Job) : Decidable (launched s thread job) :=
  inferInstanceAs (Decidable (_ → _))

/-- The states of the process that some schedule reaches. -/
abbrev Reachable (c : Config Thread ReceiverSession External) : Prop :=
  Config.Reaches spawn launched (Config.idle {}) c

end HarmonyScreen.Receiver
