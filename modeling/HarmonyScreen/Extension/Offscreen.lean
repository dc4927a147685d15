import HarmonyScreen.Extension.DirectDelivery
import HarmonyScreen.Extension.TrustedDevice
import HarmonyScreen.Lib.Attempt

namespace HarmonyScreen.Extension
open Receiver Lib Attempt

namespace Offscreen
open DirectProtocol VideoContract

/-- The threads of control: a handler or an invocation from outside, the frame loop of a
capture, and the attempts of a recovery. -/
inductive Thread where
  | handler (n : Nat)
  | frames (loop : Nat)
  | recovery (generation : Nat)
  deriving DecidableEq, Repr

section Video

structure EncoderBinding where
  generation : Nat
  sourceEpoch : Number
  contract : MediaContract
  deriving DecidableEq, Repr

def positive : Number → Bool
  | .integer n => 0 < n
  | .other => false

def createEncoderBinding (generation : Nat) (sourceEpoch : Number) (contract : MediaContract) :
    Except String EncoderBinding :=
  if generation = 0 ∨ !positive sourceEpoch then .error "编码器代际或来源 epoch 无效"
  else (validateMediaContract contract).map fun contract => ⟨generation, sourceEpoch, contract⟩

def isCurrentEncoderBinding (binding : EncoderBinding) (generation : Nat) (sourceEpoch : Number)
    (contract : Option MediaContract) : Bool :=
  if binding.generation ≠ generation ∨ binding.sourceEpoch ≠ sourceEpoch then false
  else
    match contract.map validateMediaContract with
    | some (.ok normalized) => decide (binding.contract = normalized)
    | _ => false

/-- An encoder, with the contract of the configuration that it took. -/
structure VideoEncoder where
  binding : EncoderBinding
  configured : Option MediaContract
  closed : Bool
  deriving DecidableEq, Repr

structure StableFrameSizeTracker where
  width : Nat
  height : Nat
  pendingWidth : Nat := 0
  pendingHeight : Nat := 0
  pendingCount : Nat := 0
  triggered : Bool := false
  deriving DecidableEq, Repr

namespace StableFrameSizeTracker

def threshold : Nat := 3

def resetPending (t : StableFrameSizeTracker) : StableFrameSizeTracker :=
  { width := t.width, height := t.height }

/-- The size that has become stable, if one has, and the tracker afterwards. -/
def observe (t : StableFrameSizeTracker) (width height : Nat) :
    Option (Nat × Nat) × StableFrameSizeTracker :=
  if width = t.width ∧ height = t.height then (none, t.resetPending)
  else if width ≠ t.pendingWidth ∨ height ≠ t.pendingHeight then
    (none, { t with
      pendingWidth := width, pendingHeight := height, pendingCount := 1, triggered := false })
  else
    let t := { t with pendingCount := t.pendingCount + 1 }
    if t.pendingCount < threshold ∨ t.triggered then (none, t)
    else (some (t.pendingWidth, t.pendingHeight), { t with triggered := true })

def commit (t : StableFrameSizeTracker) (width height : Nat) : StableFrameSizeTracker :=
  { t with width := width, height := height }.resetPending

end StableFrameSizeTracker

end Video

section Connections

/-- A `DirectReceiverConnection`; the socket is a place in the list of all sockets. -/
structure Connection where
  sourceEpoch : Number
  mediaContract : MediaContract
  socket : Option Nat
  authenticated : Bool
  deriving DecidableEq, Repr

structure Socket where
  connection : Nat
  /-- The recovery whose attempt made it. -/
  recovery : Option Nat
  /-- The handshake has succeeded and the listeners are attached. -/
  ready : Bool
  /-- Neither side has closed it. -/
  live : Bool
  /-- Its close event has been delivered to the listener. -/
  delivered : Bool
  /-- The handshake succeeded when the recovery was superseded. -/
  late : Bool
  deriving DecidableEq, Repr

/-- How a handshake failed; `recoverable` is what the error says of itself, if anything. -/
structure Failure where
  recoverable : Option Bool
  message : String
  deriving DecidableEq, Repr

inductive ConnectError where
  /-- `ReceiverRecoveryCancelledError` -/
  | cancelled
  | failed (failure : Failure)
  deriving DecidableEq, Repr

def ConnectError.message : ConnectError → String
  | cancelled => "平板连接恢复已取消"
  | failed failure => failure.message

structure Recovery where
  generation : Nat
  connection : Nat
  startedAt : Int
  attempts : Nat
  aborted : Bool
  finished : Bool
  deriving DecidableEq, Repr

end Connections

/-- `directTelemetry`, without what only the monitor page reads. -/
structure Telemetry extends DirectTelemetry where
  directConnected : Bool := false
  directReconnecting : Bool := false
  directReconnectAttempts : Nat := 0
  directReconnects : Nat := 0
  directRecoveryState : String := "idle"
  directRecoveryStartedAt : Option Int := none
  directRecoveryElapsedMs : Int := 0
  directRecoveryLastDurationMs : Int := 0
  directRecoveryTransientFailures : Nat := 0
  directRecoveryCurrentAttempt : Nat := 0
  directRecoveryLastOutcome : Option String := none
  directLastCloseCode : Option Int := none
  directLastCloseWasClean : Option Bool := none
  videoReconfigurationCount : Nat := 0
  videoReconfigurationState : String := "idle"
  deriving DecidableEq, Repr

/-- An invocation, told apart from the later ones of its thread by the length of the history
at its call. -/
structure Call where
  thread : Thread
  time : Nat
  deriving DecidableEq, Repr

/-- What a section of `stopCapture` takes away. -/
inductive Teardown where
  | halted
  | stream
  | encoder
  | encoderClosed
  | receiverClosing
  | receiver
  | variables
  deriving DecidableEq, Repr

inductive Event where
  | stopCalled (call : Call)
  | tears (call : Call) (what : Teardown)
  | stopFinished (call : Call)
  | startCalled (call : Call)
  | began (call : Call)
  | acquired (call : Call)
  /-- A message went to a connection of this epoch and contract; the encoder that put out its
  access unit had taken this configuration. -/
  | sent (sourceEpoch : Number) (mediaContract : MediaContract) (configured : Option MediaContract)
      (message : Bytes)
  deriving DecidableEq

/-- The variables of the module, and what stands behind them. -/
structure Controller where
  mediaStream : Option Nat := none
  videoTrack : Bool := false
  frameReader : Bool := false
  frameLoopPromise : Option Nat := none
  /-- Which frame loops have come to their end. -/
  loops : List Bool := []
  telemetryTimer : Bool := false
  videoEncoder : Option Nat := none
  encoders : List VideoEncoder := []
  activeEncoderGeneration : Nat := 0
  mediaContract : Option MediaContract := none
  sourceDimensions : Option (Nat × Nat) := none
  frameRateGate : Option Number := none
  dimensionTracker : Option StableFrameSizeTracker := none
  encodeCanvas : Option (Number × Number) := none
  receiverConnection : Option Nat := none
  connections : List Connection := []
  sockets : List Socket := []
  receiverRecoveryGeneration : Nat := 0
  receiverRecoveryPromise : Option Nat := none
  receiverRecoveryAbortController : Option Nat := none
  recoveries : List Recovery := []
  sourceEpoch : Number := .integer 0
  trustedDevice : Option DeviceRecord := none
  directTelemetry : Telemetry := {}
  directDelivery : DirectDeliveryOrchestrator := {}
  lastKeyFrameTimestampUs : Option Int := none
  running : Bool := false
  stopping : Bool := false
  reconfiguring : Bool := false
  log : List Event := []
  deriving DecidableEq

/-- A source frame as the loop reads it: its size, and what `encodeFrame` makes of it. -/
structure FrameRead where
  width : Nat
  height : Nat
  timestamp : Int
  encodes : Except String Bool
  deriving DecidableEq

/-- What a section learns from outside. -/
structure Outside where
  now : Int := 0
  failure : Option String := none
  /-- Whether a support check says yes, a configuration succeeds, a buffer is not empty. -/
  holds : Bool := true
  candidates : Except String (List MediaContract) := .error ""
  epoch : Except String Number := .error ""
  handshake : Except Failure Unit := .error ⟨none, ""⟩
  frame : Option FrameRead := none
  deriving DecidableEq

abbrev Async := Attempt Controller Outside

/-- A wait that only the outside ends. -/
def pause : Async Unit := ExceptT.lift (Program.await fun _ => true)

def pauseIf (waits : Bool) : Async Unit := if waits then pause else return ()

namespace Controller

def note (s : Controller) (e : Event) : Controller := { s with log := s.log ++ [e] }

def setConnection (s : Controller) (k : Nat) (f : Connection → Connection) : Controller :=
  { s with connections := s.connections.modify k f }

def setSocket (s : Controller) (j : Nat) (f : Socket → Socket) : Controller :=
  { s with sockets := s.sockets.modify j f }

def setRecovery (s : Controller) (g : Nat) (f : Recovery → Recovery) : Controller :=
  { s with recoveries := s.recoveries.map fun r => if r.generation = g then f r else r }

def isLive (s : Controller) (j : Nat) : Bool := (s.sockets[j]?).any Socket.live

/-- The getter `connected` of a connection. -/
def connected (s : Controller) (k : Nat) : Bool :=
  match s.connections[k]? with
  | none => false
  | some connection => connection.authenticated && connection.socket.any s.isLive

/-- `DirectReceiverConnection.close` -/
def closeConnection (s : Controller) (k : Nat) : Controller :=
  match (s.connections[k]?).bind Connection.socket with
  | none => s.setConnection k fun c => { c with authenticated := false }
  | some j =>
    (s.setSocket j fun socket => { socket with live := false }).setConnection k fun c =>
      { c with authenticated := false, socket := none }

/-- `abort` of the controller of a recovery: a handshake under way gives its socket up. -/
def abort (s : Controller) : Option Nat → Controller
  | none => s
  | some g =>
    let s := s.setRecovery g fun r => { r with aborted := true }
    { s with sockets := s.sockets.map fun socket =>
        if socket.recovery = some g ∧ !socket.ready then { socket with live := false } else socket }

/-- The promise of a recovery is settled. -/
def settled (s : Controller) (g : Nat) : Bool :=
  s.recoveries.all fun r => r.generation ≠ g || r.finished

def elapsed (s : Controller) (now : Int) : Int :=
  match s.directTelemetry.directRecoveryStartedAt with
  | none => s.directTelemetry.directRecoveryElapsedMs
  | some startedAt => max s.directTelemetry.directRecoveryElapsedMs (now - startedAt)

/-- `directDelivery.requireKeyFrame(directTelemetry)` -/
def requireKeyFrame (s : Controller) : Controller :=
  let r := s.directDelivery.requireKeyFrame s.directTelemetry.toDirectTelemetry
  { s with
    directDelivery := r.1
    directTelemetry := { s.directTelemetry with toDirectTelemetry := r.2 } }

end Controller

section Connecting

/-- `connect` up to its wait: a socket is made for the connection. -/
def Controller.openSocket (s : Controller) (k : Nat) (recovery : Option Nat) : Nat × Controller :=
  let socket : Socket := ⟨k, recovery, false, true, false, false⟩
  (s.sockets.length,
    { s with sockets := s.sockets ++ [socket] }.setConnection k fun c =>
      { c with socket := some s.sockets.length, authenticated := false })

/-- What the wait for the handshake comes to. A socket that was closed answers no more, and a
signal that was aborted has settled it before. -/
def Controller.handshake (s : Controller) (j : Nat) (aborted : Bool) (e : Outside) :
    Except ConnectError Unit :=
  if aborted then .error .cancelled
  else
    match e.handshake with
    | .error failure => .error (.failed failure)
    | .ok () =>
      if s.isLive j then .ok ()
      else .error (.failed ⟨none, "Receiver 在挑战证明或鉴权完成前断开"⟩)

def Controller.connectSucceeded (s : Controller) (k j : Nat) (late : Bool) : Controller :=
  (s.setSocket j fun socket => { socket with ready := true, late := late }).setConnection k
    fun c => { c with authenticated := true }

def Controller.connectFailed (s : Controller) (k j : Nat) : Controller :=
  (s.setSocket j fun socket => { socket with live := false }).setConnection k fun c =>
    { c with socket := if c.socket = some j then none else c.socket, authenticated := false }

/-- `connectReceiver` up to the wait in `connect`. -/
def Controller.beginConnection (s : Controller) (contract : Option MediaContract) :
    Except String (Nat × Nat) × Controller :=
  if !positive s.sourceEpoch then (.error "平板连接信息无效", s)
  else
    match contract.map validateMediaContract with
    | none => (.error "动态视频合同超出可信媒体边界", s)
    | some (.error message) => (.error message, s)
    | some (.ok normalized) =>
      match s.trustedDevice.map validateTrustedDevice with
      | none => (.error "已保存的平板凭据无效，请重新配对", s)
      | some (.error message) => (.error message, s)
      | some (.ok _) =>
        let k := s.connections.length
        let connection : Connection := ⟨s.sourceEpoch, normalized, none, false⟩
        let opened := { s with
          connections := s.connections ++ [connection]
          receiverConnection := some k }.openSocket k none
        (.ok (k, opened.1), opened.2)

/-- The rest of `connectReceiver`, and what the caller does in the same task when it succeeds. -/
def Controller.endConnection (s : Controller) (k j : Nat) (e : Outside)
    (next : Controller → Controller) : Except String Unit × Controller :=
  match s.handshake j false e with
  | .ok () =>
    let s := s.connectSucceeded k j false
    (.ok (), next { s with directTelemetry := { s.directTelemetry with directConnected := true } })
  | .error error =>
    let s := s.connectFailed k j
    (.error error.message,
      if s.receiverConnection = some k then { s with receiverConnection := none } else s)

/-- No other continuation is queued behind the message that ends the handshake, so that `next`
follows it in the same task. -/
def connectReceiver (next : Controller → Controller) : Async Unit := do
  let begun ← turn fun _ s => s.beginConnection s.mediaContract
  let connection ← ofResult begun
  pause
  let ended ← turn fun e s => s.endConnection connection.1 connection.2 e next
  ofResult ended

end Connecting

section Encoding

/-- `createEncoder` and `configure` for one candidate: the encoder that took it, if it did. -/
def Controller.createEncoder (s : Controller) (contract : MediaContract) (configures : Bool) :
    Except String (Option Nat) × Controller :=
  let generation := s.activeEncoderGeneration + 1
  let s := { s with activeEncoderGeneration := generation }
  match createEncoderBinding generation s.sourceEpoch contract with
  | .error message => (.error message, s)
  | .ok binding =>
    let encoder : VideoEncoder :=
      ⟨binding, if configures then some binding.contract else none, !configures⟩
    (.ok (if configures then some s.encoders.length else none),
      { s with encoders := s.encoders ++ [encoder] })

def configureAutoVideoEncoder : List MediaContract → Async (Nat × MediaContract)
  | [] => throw "当前 Edge 无法创建安全的 H.264 编码配置；已尝试自动分辨率和不高于 720p 的回退"
  | contract :: rest => do
    let requestedConfig ← ofResult (validateMediaContract contract)
    pause
    let supported ← turn fun e s => (e.holds, s)
    if supported then
      let created ← turn fun e s => s.createEncoder requestedConfig e.holds
      match ← ofResult created with
      | some encoder => return (encoder, requestedConfig)
      | none => configureAutoVideoEncoder rest
    else configureAutoVideoEncoder rest

/-- What `createVideoEncoder` makes of the encoder that was configured; without a canvas
context it throws. -/
def Controller.takeEncoder (s : Controller) (encoder : Nat) (contract : MediaContract)
    (context : Bool) : Except String Unit × Controller :=
  (if context then .ok () else .error "无法创建 H.264 编码缩放画布",
    { s with
      videoEncoder := some encoder
      mediaContract := some contract
      frameRateGate := some contract.maxFps
      encodeCanvas := some (contract.width, contract.height) })

/-- The candidates come from floating-point arithmetic on the sizes and the frame rate. -/
def createVideoEncoder : Async Unit := do
  let candidates ← turn fun e s => (e.candidates, s)
  let result ← configureAutoVideoEncoder (← ofResult candidates)
  let taken ← turn fun e s => s.takeEncoder result.1 result.2 e.holds
  ofResult taken

/-- In the teardown of a stop its sections are noted. -/
def Controller.torn (s : Controller) (call : Option Call) (what : Teardown) : Controller :=
  match call with
  | none => s
  | some call => s.note (.tears call what)

def Controller.discardEncoder (s : Controller) (encoder : Nat) : Controller :=
  { s with
    encoders := s.encoders.modify encoder fun v => { v with closed := true }
    activeEncoderGeneration := s.activeEncoderGeneration + 1
    encodeCanvas := none }

def isConfigured (s : Controller) (encoder : Nat) : Bool :=
  (s.encoders[encoder]?).any fun v => v.configured.isSome && !v.closed

def stopVideoEncoder (call : Option Call) (flush : Bool) : Async Unit := do
  let taken ← turn fun _ s => ((s.videoEncoder, s.videoEncoder.any (isConfigured s)),
    { s with videoEncoder := none }.torn call .encoder)
  match taken.1 with
  | none => return ()
  | some encoder =>
    pauseIf (flush && taken.2)
    turn fun _ s => ((), (s.discardEncoder encoder).torn call .encoderClosed)

end Encoding

section Receiver

/-- `closeReceiver` up to its first wait: the connection, the recovery to wait for, and
whether the buffer is to drain. -/
def Controller.beginClosing (s : Controller) (e : Outside) :
    Option (Nat × Option Nat × Bool) × Controller :=
  let s := { s with receiverRecoveryGeneration := s.receiverRecoveryGeneration + 1 }
  let s := { s.abort s.receiverRecoveryAbortController with
    receiverRecoveryAbortController := none }
  match s.receiverConnection with
  | none => (none, s)
  | some k =>
    let recovery := s.receiverRecoveryPromise
    let cancelled : Telemetry :=
      if s.directTelemetry.directReconnecting then
        { s.directTelemetry with
          directRecoveryState := "cancelled"
          directRecoveryElapsedMs := s.elapsed e.now
          directRecoveryLastDurationMs := s.elapsed e.now
          directRecoveryLastOutcome := some "cancelled" }
      else s.directTelemetry
    (some (k, recovery, s.connected k && e.holds),
      { s with
        receiverRecoveryPromise := none
        directTelemetry := { cancelled with directReconnecting := false } })

def Controller.endClosing (s : Controller) : Controller :=
  { s with
    receiverConnection := none
    directTelemetry := { s.directTelemetry with directConnected := false } }

def awaitRecovery : Option Nat → Async Unit
  | none => return ()
  | some g => ExceptT.lift (Program.await fun s => s.settled g)

def closeReceiver (call : Option Call) : Async Unit := do
  let begun ← turn fun e s =>
    ((s.beginClosing e).1, (s.beginClosing e).2.torn call .receiverClosing)
  match begun with
  | none => return ()
  | some (connection, recovery, draining) =>
    -- Until the buffer is empty, the connection is lost or two seconds are over.
    pauseIf draining
    turn fun _ s => ((), s.closeConnection connection)
    awaitRecovery recovery
    turn fun _ s => ((), s.endClosing.torn call .receiver)

end Receiver

section Stopping

/-- `stopCapture` up to its first wait: whether there is anything to stop, and the reader. -/
def Controller.beginStop (s : Controller) (call : Call) : Option Bool × Controller :=
  if !s.running ∧ s.mediaStream = none ∧ !s.frameReader ∧ s.receiverConnection = none ∧
      s.videoEncoder = none then
    (none, s.note (.stopFinished call))
  else
    let s := { s with
      stopping := true
      running := false
      receiverRecoveryGeneration := s.receiverRecoveryGeneration + 1 }
    (some s.frameReader,
      { s.abort s.receiverRecoveryAbortController with
        telemetryTimer := false
        frameReader := false }.torn (some call) .halted)

def Controller.callStop (s : Controller) (i : Thread) : (Call × Option Bool) × Controller :=
  let call : Call := ⟨i, s.log.length⟩
  let begun := (s.note (.stopCalled call)).beginStop call
  ((call, begun.1), begun.2)

def Controller.stopTracks (s : Controller) : Controller :=
  { s with mediaStream := none, videoTrack := false }

/-- The end of `stopCapture`. -/
def Controller.resetVariables (s : Controller) : Controller :=
  { s with
    mediaContract := none
    sourceDimensions := none
    frameRateGate := none
    dimensionTracker := none
    trustedDevice := none
    reconfiguring := false
    stopping := false }

def stopCapture (i : Thread) : Async Unit := do
  let begun ← turn fun _ s => s.callStop i
  let call := begun.1
  match begun.2 with
  | none => return ()
  | some reader =>
    pauseIf reader
    let loop ← turn fun _ s => (s.frameLoopPromise, s.stopTracks.torn (some call) .stream)
    ExceptT.lift (Program.await fun s => loop.all fun l => (s.loops[l]?).getD true)
    turn fun _ s => ((), { s with frameLoopPromise := none })
    stopVideoEncoder (some call) true
    closeReceiver (some call)
    turn fun _ s =>
      ((), (s.resetVariables.torn (some call) .variables).note (.stopFinished call))

end Stopping

section Starting

/-- `directInfo`, as far as it is checked. -/
structure DirectInfo where
  sourceEpoch : Number
  trustedDevice : Option DeviceRecord

/-- What `startCapture` does behind its own stop. -/
def Controller.beginCapture (s : Controller) (call : Call) (directInfo : Option DirectInfo) :
    Except String Unit × Controller :=
  let s := { s with
    stopping := false
    reconfiguring := false
    directTelemetry := {}
    directDelivery := {}
    lastKeyFrameTimestampUs := none }.note (.began call)
  match directInfo with
  | none => (.error "平板连接信息无效", s)
  | some info =>
    if !positive info.sourceEpoch then (.error "平板连接信息无效", s)
    else (.ok (), { s with sourceEpoch := info.sourceEpoch, trustedDevice := info.trustedDevice })

def Controller.acquireStream (s : Controller) (call : Call) (failure : Option String)
    (tracksFit : Bool) : Except String Unit × Controller :=
  match failure with
  | some message => (.error message, s)
  | none =>
    let s := { s with mediaStream := some s.log.length }.note (.acquired call)
    if tracksFit then (.ok (), { s with videoTrack := true })
    else (.error "捕获流与预期不符", s)

def Controller.openSizingReader (s : Controller) : Except String Unit × Controller :=
  if s.videoTrack then (.ok (), { s with frameReader := true })
  else (.error "Cannot read properties of null (reading 'getSettings')", s)

/-- `captureSettings` is `null` when the track is. -/
def Controller.sizeSource (s : Controller) (width height : Nat) :
    Except String Unit × Controller :=
  (if s.videoTrack then .ok () else .error "Cannot read properties of null (reading 'width')",
    { s with
      frameReader := false
      sourceDimensions := some (width, height)
      dimensionTracker := some { width := width, height := height } })

/-- The end of `startCapture`: the frame loop begins. -/
def Controller.launch (s : Controller) : Except String Unit × Controller :=
  if s.videoTrack then
    (.ok (), { s with
      frameReader := true
      running := true
      loops := s.loops ++ [false]
      frameLoopPromise := some s.loops.length
      telemetryTimer := true })
  else (.error "Failed to construct 'MediaStreamTrackProcessor'", s)

def establish (call : Call) (directInfo : Option DirectInfo) : Async Unit := do
  let begun ← turn fun _ s => s.beginCapture call directInfo
  ofResult begun
  pause
  let acquired ← turn fun e s => s.acquireStream call e.failure e.holds
  ofResult acquired
  -- `applyConstraints`
  pause
  let opened ← turn fun _ s => s.openSizingReader
  ofResult opened
  pause
  let first ← turn fun e s =>
    ((match e.frame with
      | none => .error "Edge 捕获轨没有产生可确认尺寸的视频帧"
      | some frame => .ok (frame, s.frameReader) : Except String (FrameRead × Bool)), s)
  let first ← ofResult first
  -- `frameReader.cancel()`, which throws at once where a stop has taken the reader
  pauseIf first.2
  let sized ← turn fun _ s => s.sizeSource first.1.width first.1.height
  ofResult sized
  createVideoEncoder
  connectReceiver id
  let launched ← turn fun _ s => s.launch
  ofResult launched

def startCapture (i : Thread) (streamId : Bool) (directInfo : Option DirectInfo) : Async Unit := do
  if !streamId then throw "缺少标签页媒体流标识"
  else
    let call ← turn fun _ s => ((⟨i, s.log.length⟩ : Call), s.note (.startCalled ⟨i, s.log.length⟩))
    stopCapture i
    tryCatch (establish call directInfo) fun error => do
      stopCapture i
      throw error

end Starting

/-- How a turn of the frame loop leaves it. -/
inductive LoopState where
  | goesOn
  | ended
  | failed

section Reconfiguring

def Controller.beginReconfiguration (s : Controller) : Bool × Controller :=
  if s.reconfiguring ∨ s.stopping ∨ !s.running then (false, s)
  else
    (true, { s with
      reconfiguring := true
      directTelemetry := { s.directTelemetry with
        videoReconfigurationState := "reconfiguring"
        videoReconfigurationCount := s.directTelemetry.videoReconfigurationCount + 1 } })

/-- The answer to `ALLOCATE_SOURCE_EPOCH`. -/
def Controller.nextEpoch (s : Controller) (answer : Except String Number) :
    Except String Number :=
  match answer, s.sourceEpoch with
  | .ok (.integer epoch), .integer current =>
    if epoch ≤ current then .error "无法持久化新的来源 epoch" else .ok (.integer epoch)
  | .ok (.integer epoch), .other => .ok (.integer epoch)
  | .ok .other, _ => .error "无法持久化新的来源 epoch"
  | .error message, _ => .error message

def Controller.changeEpoch (s : Controller) (sourceEpoch : Number) : Controller :=
  { s with
    sourceEpoch := sourceEpoch
    directDelivery := {}
    lastKeyFrameTimestampUs := none }

def Controller.endReconfiguration (width height : Nat) (s : Controller) : Controller :=
  let tracker := s.dimensionTracker.map fun tracker => tracker.commit width height
  let s := { s with
    sourceDimensions := some (width, height)
    dimensionTracker := tracker
    directTelemetry := { s.directTelemetry with videoReconfigurationState := "connected" } }
  { s.requireKeyFrame with reconfiguring := false }

/-- The `catch` and `finally` of `reconfigureForSource`, and the `catch` of the frame loop
that the error comes to in the same task. -/
def Controller.failReconfiguration (s : Controller) : Controller :=
  { s with
    directTelemetry := { s.directTelemetry with videoReconfigurationState := "failed" }
    reconfiguring := false
    running := if s.stopping then s.running else false }

/-- The `try` of `reconfigureForSource`. -/
def changeSource (width height : Nat) : Async LoopState := do
  pause
  let answer ← turn fun e s => (s.nextEpoch e.epoch, s)
  let nextEpoch ← ofResult answer
  closeReceiver none
  stopVideoEncoder none false
  turn fun _ s => ((), s.changeEpoch nextEpoch)
  createVideoEncoder
  connectReceiver (Controller.endReconfiguration width height)
  return .goesOn

def reconfigureForSource (width height : Nat) : Async LoopState := do
  let begun ← turn fun _ s => s.beginReconfiguration
  if !begun then return .goesOn
  else
    tryCatch (changeSource width height) fun _ =>
      turn fun _ s => (.failed, s.failReconfiguration)

end Reconfiguring

section Frames

/-- The loop reads on, or has come to its end. -/
def Controller.nextRead (s : Controller) : Bool := s.running && s.frameReader

/-- What the loop does with a frame of a size. -/
inductive FrameUse where
  | reconfigure (width height : Nat)
  | use

def Controller.observeFrame (s : Controller) (frame : FrameRead) : FrameUse × Controller :=
  match s.dimensionTracker with
  | none => (.use, s)
  | some tracker =>
    let r := tracker.observe frame.width frame.height
    (match r.1 with
      | some (width, height) => .reconfigure width height
      | none => .use, { s with dimensionTracker := some r.2 })

/-- A frame of the current size is encoded. A keyframe is noted for the delivery. -/
def Controller.encodeFrame (s : Controller) (frame : FrameRead) : LoopState × Controller :=
  if s.sourceDimensions.any fun size => size ≠ (frame.width, frame.height) then (.goesOn, s)
  else
    match frame.encodes with
    | .error _ => (.failed, { s with running := if s.stopping then s.running else false })
    | .ok keyFrame =>
      (.goesOn, if keyFrame then
          { s with
            directDelivery := s.directDelivery.onKeyFrameSubmitted
            lastKeyFrameTimestampUs := some frame.timestamp }
        else s)

/-- The `finally` of the loop, and the end of its promise. -/
def Controller.endLoop (s : Controller) (loop : Nat) : Controller :=
  { s with
    running := if s.stopping then s.running else false
    loops := s.loops.set loop true }

/-- What the loop does with what it has read. -/
def useRead : Option String → Option FrameRead → Async LoopState
  | some _, _ => turn fun _ s =>
    (.failed, { s with running := if s.stopping then s.running else false })
  | none, none => return .ended
  | none, some frame => do
    match ← turn fun _ s => s.observeFrame frame with
    | .reconfigure width height => reconfigureForSource width height
    | .use => turn fun _ s => s.encodeFrame frame

/-- One turn of the loop `consumeFrames`. Behind a failure it waits for the answer of the
service worker. -/
def consumeFrame (loop : Nat) : Async Unit := do
  let reads ← turn fun _ s => (s.nextRead, s)
  if !reads then turn fun _ s => ((), s.endLoop loop)
  else
    pause
    let read ← turn fun e s => ((e.failure, e.frame), s)
    match ← useRead read.1 read.2 with
    | .goesOn => return ()
    | .ended => turn fun _ s => ((), s.endLoop loop)
    | .failed =>
      pause
      turn fun _ s => ((), s.endLoop loop)

end Frames

section Output

/-- `handleEncodedChunk`, of an encoder that may have been closed long ago. -/
def Controller.handleEncodedChunk (s : Controller) (encoder : VideoEncoder)
    (chunk : EncodedVideoChunk) (takes : Bool) : Controller :=
  if !isCurrentEncoderBinding encoder.binding s.activeEncoderGeneration s.sourceEpoch
      s.mediaContract then
    { s with directTelemetry := { s.directTelemetry with
        directDroppedFrames := s.directTelemetry.directDroppedFrames + 1 } }
  else
    match s.directDelivery.deliver chunk (s.receiverConnection.any s.connected) takes
        encoder.binding.sourceEpoch s.directTelemetry.toDirectTelemetry with
    | .error _ =>
      { s with
        directTelemetry := { s.directTelemetry with
          directErrors := s.directTelemetry.directErrors + 1 }
        running := if s.stopping then s.running else false }
    | .ok (message, delivery, counters) =>
      let s := { s with
        directDelivery := delivery
        directTelemetry := { s.directTelemetry with toDirectTelemetry := counters } }
      match message, s.receiverConnection.bind fun k => s.connections[k]? with
      | some message, some connection =>
        s.note (.sent connection.sourceEpoch connection.mediaContract encoder.configured message)
      | _, _ => s

/-- The `error` callback of an encoder. -/
def Controller.encoderError (s : Controller) (encoder : VideoEncoder) : Controller :=
  if encoder.binding.generation ≠ s.activeEncoderGeneration ∨ s.stopping then s
  else { s with running := false }

end Output

section Recovering

/-- `beginReceiverRecovery`, up to the call of `recover`. -/
def Controller.beginReceiverRecovery (s : Controller) (k : Nat) (now : Int) : Controller :=
  if s.receiverRecoveryPromise.isSome ∨ s.stopping ∨ !s.running then s
  else
    let generation := s.receiverRecoveryGeneration + 1
    { s with
      receiverRecoveryGeneration := generation
      receiverRecoveryAbortController := some generation
      receiverRecoveryPromise := some generation
      recoveries := s.recoveries ++ [⟨generation, k, now, 0, false, false⟩]
      directTelemetry := { s.directTelemetry with
        directReconnecting := true
        directRecoveryState := "reconnecting"
        directRecoveryStartedAt := some now
        directRecoveryElapsedMs := 0
        directRecoveryCurrentAttempt := 0
        directRecoveryTransientFailures := 0
        directRecoveryLastOutcome := none } }

/-- The `onClose` of the connection that `connectReceiver` made. -/
def Controller.onClose (s : Controller) (k : Nat) (code : Option Int) (wasClean : Option Bool)
    (now : Int) : Controller :=
  if s.receiverConnection ≠ some k then s
  else
    let s := { s with directTelemetry := { s.directTelemetry with
      directConnected := false
      directLastCloseCode := code
      directLastCloseWasClean := wasClean } }
    if !s.stopping ∧ !s.reconfiguring ∧ s.running then
      { s with directTelemetry := { s.directTelemetry with
          directErrors := s.directTelemetry.directErrors + 1 } }.beginReceiverRecovery k now
    else s

/-- The close event of a socket whose listeners are attached. -/
def Controller.closeEvent (s : Controller) (j : Nat) (code : Option Int) (wasClean : Option Bool)
    (now : Int) : Controller :=
  match s.sockets[j]? with
  | none => s
  | some socket =>
    if !socket.ready ∨ socket.live ∨ socket.delivered then s
    else
      let s := s.setSocket j fun socket => { socket with delivered := true }
      let s := s.setConnection socket.connection fun c =>
        if c.socket = some j then { c with socket := none, authenticated := false } else c
      s.onClose socket.connection code wasClean now

/-- `shouldContinue` -/
def Controller.shouldContinue (s : Controller) (r : Recovery) : Bool :=
  r.generation == s.receiverRecoveryGeneration && s.receiverConnection == some r.connection &&
    s.running && !s.stopping

/-- Whether `onAttempt` and `onTransientFailure` still report. -/
def Controller.reports (s : Controller) (r : Recovery) : Bool :=
  r.generation == s.receiverRecoveryGeneration && s.receiverConnection == some r.connection

/-- The `finally`, behind which the promise is settled. -/
def Controller.endRecovery (s : Controller) (g : Nat) : Controller :=
  let s := s.setRecovery g fun r => { r with finished := true }
  if g = s.receiverRecoveryGeneration then
    { s with receiverRecoveryPromise := none, receiverRecoveryAbortController := none }
  else s

/-- The `then` of a recovery whose connection is up again. -/
def Controller.recovered (s : Controller) (r : Recovery) (now : Int) : Controller :=
  if !s.shouldContinue r then s.closeConnection r.connection
  else
    { s with directTelemetry := { s.directTelemetry with
        directConnected := true
        directReconnecting := false
        directReconnects := s.directTelemetry.directReconnects + 1
        directRecoveryState := "connected"
        directRecoveryElapsedMs := max 0 (now - r.startedAt)
        directRecoveryLastDurationMs := max 0 (now - r.startedAt)
        directRecoveryLastOutcome := some "recovered" } }.requireKeyFrame

/-- The `catch` of a recovery that has failed for good. -/
def Controller.recoveryFailed (s : Controller) (r : Recovery) (now : Int) : Controller :=
  if r.aborted ∨ !s.shouldContinue r then s
  else
    { s with
      directTelemetry := { s.directTelemetry with
        directReconnecting := false
        directErrors := s.directTelemetry.directErrors + 1
        directRecoveryState := "failed_permanent"
        directRecoveryElapsedMs := s.elapsed now
        directRecoveryLastDurationMs := s.elapsed now
        directRecoveryLastOutcome := some "failed_permanent" }
      running := false }

def Controller.recovery? (s : Controller) (g : Nat) : Option Recovery :=
  s.recoveries.find? fun r => r.generation == g

/-- An attempt of `recover` up to the wait in `connect`: the connection and its socket, or
the recovery has ended. A connection that still has a socket fails like a lost one. -/
def Controller.beginAttempt (s : Controller) (r : Recovery) (now : Int) :
    Option (Nat × Option Nat) × Controller :=
  if r.aborted ∨ !s.shouldContinue r then (none, s.endRecovery r.generation)
  else
    let s := s.setRecovery r.generation fun r => { r with attempts := r.attempts + 1 }
    let s := { s with directTelemetry := { s.directTelemetry with
      directReconnectAttempts := s.directTelemetry.directReconnectAttempts + 1
      directRecoveryCurrentAttempt := r.attempts + 1
      directRecoveryElapsedMs := max 0 (now - r.startedAt) } }
    if ((s.connections[r.connection]?).bind Connection.socket).isSome then
      (some (r.connection, none), s)
    else
      let opened := s.openSocket r.connection (some r.generation)
      (some (r.connection, some opened.1), opened.2)

/-- The failure of an attempt: it is reported and the loop goes on, or it ends the recovery. -/
def Controller.attemptFailed (s : Controller) (r : Recovery) (error : ConnectError) (now : Int) :
    Controller :=
  if error = .cancelled ∨ r.aborted ∨ !s.shouldContinue r then s.endRecovery r.generation
  else
    match error with
    | .failed ⟨some false, _⟩ => (s.recoveryFailed r now).endRecovery r.generation
    | _ =>
      { s with directTelemetry := { s.directTelemetry with
          directRecoveryTransientFailures :=
            s.directTelemetry.directRecoveryTransientFailures + 1
          directRecoveryElapsedMs := max 0 (now - r.startedAt) } }

/-- An attempt behind its wait. What follows a success, up to the `finally`, is in the same
task. -/
def Controller.endAttempt (s : Controller) (r : Recovery) (k : Nat) (socket : Option Nat)
    (e : Outside) : Controller :=
  match socket with
  | none => s.attemptFailed r (.failed ⟨none, "平板连接已存在"⟩) e.now
  | some j =>
    match s.handshake j r.aborted e with
    | .ok () =>
      let s := s.connectSucceeded k j (r.generation ≠ s.receiverRecoveryGeneration)
      (s.recovered r e.now).endRecovery r.generation
    | .error error => (s.connectFailed k j).attemptFailed r error e.now

/-- One turn of the loop of `recover`, behind its delay. -/
def attempt (g : Nat) : Async Unit := do
  let begun ← turn fun e s =>
    match s.recovery? g with
    | none => (none, s)
    | some r => if r.finished then (none, s) else s.beginAttempt r e.now
  match begun with
  | none => return ()
  | some (connection, socket) =>
    pauseIf socket.isSome
    turn fun e s => ((),
      match s.recovery? g with
      | none => s
      | some r => s.endAttempt r connection socket e)

end Recovering

section Events

/-- What starts a thread: messages, events of the browser, and the turns of the loops. -/
inductive Job where
  | startCapture (streamId : Bool) (directInfo : Option DirectInfo)
  | stopCapture
  | trackEnded
  | output (encoder : Nat) (chunk : EncodedVideoChunk)
  | encoderError (encoder : Nat)
  | socketLost (socket : Nat)
  | socketClosed (socket : Nat) (code : Option Int) (wasClean : Option Bool)
  | receiverTelemetry (invalid : Nat)
  | keyframe
  | receiverError
  | consumeFrame
  | attempt

/-- The handlers that run to their end at once. -/
def handle (job : Job) (e : Outside) (s : Controller) : Controller :=
  match job with
  | .trackEnded => if s.stopping then s else { s with running := false }
  | .output encoder chunk =>
    match s.encoders[encoder]? with
    | none => s
    | some encoder => s.handleEncodedChunk encoder chunk e.holds
  | .encoderError encoder =>
    match s.encoders[encoder]? with
    | none => s
    | some encoder => s.encoderError encoder
  | .socketLost j => s.setSocket j fun socket => { socket with live := false }
  | .socketClosed j code wasClean => s.closeEvent j code wasClean e.now
  | .receiverTelemetry invalid =>
    { s with directTelemetry := { s.directTelemetry with
        directErrors := s.directTelemetry.directErrors + invalid } }
  | .keyframe =>
    { s.requireKeyFrame with
      directTelemetry := { s.requireKeyFrame.directTelemetry with
        directKeyframeRequests := s.requireKeyFrame.directTelemetry.directKeyframeRequests + 1 } }
  | .receiverError =>
    { s with
      directTelemetry := { s.directTelemetry with
        directErrors := s.directTelemetry.directErrors + 1 }
      running := if s.stopping then s.running else false }
  | _ => s

def operate : Thread → Job → Async Unit
  | i, .startCapture streamId directInfo => startCapture i streamId directInfo
  | i, .stopCapture => stopCapture i
  | .frames loop, .consumeFrame => consumeFrame loop
  | .recovery g, .attempt => attempt g
  | _, job => turn fun e s => ((), handle job e s)

def spawn (i : Thread) (job : Job) : Program Controller Outside Unit := do
  let _ ← (operate i job).run
  return ()

/-- A frame loop runs on its own thread until its end, a recovery on its own; everything else
is handled beside them. -/
def scheduled (s : Controller) : Thread → Job → Bool
  | .frames loop, .consumeFrame => s.loops[loop]? == some false
  | .recovery _, .attempt => true
  | .handler _, .consumeFrame => false
  | .handler _, .attempt => false
  | .handler _, _ => true
  | _, _ => false

end Events

end Offscreen

end HarmonyScreen.Extension
