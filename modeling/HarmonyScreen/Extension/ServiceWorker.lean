import HarmonyScreen.Extension.DirectProtocol
import HarmonyScreen.Lib.Attempt
import HarmonyScreen.Lib.Updates

namespace HarmonyScreen.Extension
open Lib Attempt

namespace ServiceWorker

/-- A value of the script, as it comes in a message or lies in the storage. -/
inductive Value where
  | undefined
  | null
  | boolean (value : Bool)
  | number (value : Number)
  | text (value : String)
  | object (json : String)
  deriving DecidableEq

/-- Whether a condition takes the value for true. -/
def Value.truthy : Value → Bool
  | undefined => false
  | null => false
  | boolean value => value
  | number (.integer value) => value != 0
  | number .other => true
  | text value => value != ""
  | object _ => true

/-- The fields that `telemetryToState` takes over. -/
inductive TelemetryField where
  | fps | totalFrames | lastFrameAgeMs | stallEvents | stalled | encodingFps | submittedFrames
  | encodedFrames | encodedBytes | keyFrames | droppedFrames | encodeErrors | encodeQueueSize
  | bitrateKbps | averageBitrateKbps | lastEncodedAgeMs | encoderConfig | mediaContract
  | sourceDimensions | captureSettingsWidth | captureSettingsHeight | initialFrameMatchedSettings
  | videoReconfigurationCount | videoReconfigurationState | directConnected | directSentFrames
  | directSentBytes | directDroppedFrames | directBufferedAmount | directErrors
  | directKeyframeRequests | directResyncEvents | directReconnecting | directReconnectAttempts
  | directReconnects | directRecoveryState | directRecoveryStartedAt | directRecoveryElapsedMs
  | directRecoveryLastDurationMs | directRecoveryTransientFailures | directRecoveryCurrentAttempt
  | directRecoveryLastOutcome | directLastCloseCode | directLastCloseWasClean | lastPongAt
  | receiverReceivedFrames | receiverReceivedBytes | receiverDecodedFrames | receiverDroppedFrames
  | receiverResyncEvents | receiverKeyframeRequests
  deriving DecidableEq

structure Telemetry where
  fields : TelemetryField → Value
  transition : Value

/-- `createTelemetrySnapshot` of a state: the field of the state under each name. -/
structure Snapshot where
  capturedFrames : Value
  encodedFrames : Value
  encodedBytes : Value
  droppedFrames : Value
  stallEvents : Value
  encodeErrors : Value
  directSentFrames : Value
  receiverReceivedFrames : Value
  directDroppedFrames : Value
  directErrors : Value
  directResyncEvents : Value
  directReconnectAttempts : Value
  directReconnects : Value
  receiverResyncEvents : Value
  receiverKeyframeRequests : Value
  deriving DecidableEq

structure StageRun where
  stage : String
  startedAt : Int
  endedAt : Option Int
  startTelemetry : Snapshot
  endTelemetry : Option Snapshot
  deriving DecidableEq

structure LogEntry where
  time : Int
  level : String
  message : String
  deriving DecidableEq

structure State where
  mode : String
  currentStage : String
  telemetry : TelemetryField → Value
  startedAt : Option Int
  stoppedAt : Option Int
  updatedAt : Int
  stopReason : Option String
  error : Option String
  events : List LogEntry
  stageRuns : List StageRun

/-- The first value of each field. -/
def initialTelemetry : TelemetryField → Value
  | .lastFrameAgeMs | .lastEncodedAgeMs | .encoderConfig | .mediaContract | .sourceDimensions
  | .captureSettingsWidth | .captureSettingsHeight | .initialFrameMatchedSettings
  | .directRecoveryStartedAt | .directRecoveryLastOutcome | .directLastCloseCode
  | .directLastCloseWasClean | .lastPongAt => .null
  | .stalled | .directConnected | .directReconnecting => .boolean false
  | .videoReconfigurationState | .directRecoveryState => .text "idle"
  | _ => .number (.integer 0)

/-- In each task the clock is read once. -/
def createInitialState (now : Int) : State where
  mode := "idle"
  currentStage := "A"
  telemetry := initialTelemetry
  startedAt := none
  stoppedAt := none
  updatedAt := now
  stopReason := none
  error := none
  events := []
  stageRuns := []

/-- `{ ...state, ...telemetryToState(telemetry) }` -/
def State.take (state : State) : Option Telemetry → State
  | none => state
  | some telemetry => { state with telemetry := telemetry.fields }

def createTelemetrySnapshot (state : State) : Snapshot where
  capturedFrames := state.telemetry .totalFrames
  encodedFrames := state.telemetry .encodedFrames
  encodedBytes := state.telemetry .encodedBytes
  droppedFrames := state.telemetry .droppedFrames
  stallEvents := state.telemetry .stallEvents
  encodeErrors := state.telemetry .encodeErrors
  directSentFrames := state.telemetry .directSentFrames
  receiverReceivedFrames := state.telemetry .receiverReceivedFrames
  directDroppedFrames := state.telemetry .directDroppedFrames
  directErrors := state.telemetry .directErrors
  directResyncEvents := state.telemetry .directResyncEvents
  directReconnectAttempts := state.telemetry .directReconnectAttempts
  directReconnects := state.telemetry .directReconnects
  receiverResyncEvents := state.telemetry .receiverResyncEvents
  receiverKeyframeRequests := state.telemetry .receiverKeyframeRequests

def beginStage (stageRuns : List StageRun) (stage : String) (state : State) (startedAt : Int) :
    List StageRun :=
  stageRuns ++ [⟨stage, startedAt, none, createTelemetrySnapshot state, none⟩]

def closeActiveStage (stageRuns : List StageRun) (state : State) (endedAt : Int) : List StageRun :=
  match stageRuns.getLast? with
  | none => stageRuns
  | some active =>
    if active.endedAt.isSome then stageRuns
    else stageRuns.dropLast ++
      [{ active with endedAt := some endedAt, endTelemetry := some (createTelemetrySnapshot state) }]

def appendEvent (events : List LogEntry) (now : Int) (level message : String) : List LogEntry :=
  let appended := events ++ [⟨now, level, message⟩]
  appended.drop (appended.length - 100)

structure TelemetryOptions where
  mode : Option String := none
  event : Option (String × String) := none
  beginStage : Bool := false

section Mutators

/-- What is appended for a change of the connection. -/
def connectionEvents (current : State) (telemetry : Telemetry) (now : Int)
    (events : List LogEntry) : List LogEntry :=
  if !(current.telemetry .directReconnecting).truthy ∧
      (telemetry.fields .directReconnecting).truthy then
    appendEvent events now "WARN" "平板连接中断，正在保持捕获并自动恢复"
  else if (current.telemetry .directReconnecting).truthy ∧
      !(telemetry.fields .directReconnecting).truthy ∧
      (telemetry.fields .directConnected).truthy then
    appendEvent events now "INFO" "平板连接已恢复，正在请求关键帧"
  else events

def telemetryEvents (current : State) (telemetry : Telemetry) (options : TelemetryOptions)
    (now : Int) : List LogEntry :=
  let events := match options.event with
    | some (level, message) => appendEvent current.events now level message
    | none => current.events
  let events :=
    if telemetry.transition = .text "stalled" then
      appendEvent events now "WARN" "连续 2 秒没有收到新视频帧"
    else if telemetry.transition = .text "recovered" then
      appendEvent events now "INFO" "视频帧已恢复"
    else events
  connectionEvents current telemetry now events

def telemetryApplied (telemetry : Telemetry) (options : TelemetryOptions) (now : Int)
    (current : State) : Except String State :=
  let state := { current.take (some telemetry) with
    mode := options.mode.getD current.mode
    updatedAt := now
    events := telemetryEvents current telemetry options now }
  .ok (if options.beginStage ∧ state.stageRuns = [] then
    { state with stageRuns := beginStage state.stageRuns state.currentStage state state.updatedAt }
  else state)

def stageSet (stage : String) (now : Int) (state : State) : Except String State :=
  if state.mode ≠ "capturing" then .error "只能在捕获进行时切换测试阶段"
  else if state.currentStage = stage then .ok state
  else
    .ok { state with
      currentStage := stage
      updatedAt := now
      stageRuns := beginStage (closeActiveStage state.stageRuns state now) stage state now
      events := appendEvent state.events now "STEP" s!"切换到测试阶段 {stage}" }

def stopping (now : Int) (state : State) : Except String State :=
  .ok { state with
    mode := "stopping"
    updatedAt := now
    events := appendEvent state.events now "INFO" "正在停止捕获" }

/-- How a capture ends: its mode, what is noted, and the stage that is closed. -/
def ended (mode : String) (stopReason error : Option String) (telemetry : Option Telemetry)
    (stoppedAt : Int) (level message : String) (now : Int) (current : State) :
    Except String State :=
  let state := { current.take telemetry with
    mode := mode
    stoppedAt := some stoppedAt
    updatedAt := stoppedAt
    stopReason := stopReason.orElse fun _ => current.stopReason
    error := error.orElse fun _ => current.error
    events := appendEvent current.events now level message }
  .ok { state with stageRuns := closeActiveStage state.stageRuns state stoppedAt }

def stopped (reason : String) (telemetry : Option Telemetry) (stoppedAt : Int) :
    Int → State → Except String State :=
  ended "stopped" (some reason) none telemetry stoppedAt "INFO" "捕获与编码已停止"

def unexpectedlyEnded (reason : String) (telemetry : Option Telemetry) (stoppedAt : Int) :
    Int → State → Except String State :=
  ended "stopped" (some reason) none telemetry stoppedAt "WARN" "视频轨意外结束"

def failed (errorMessage : String) (telemetry : Option Telemetry) (stoppedAt : Int) :
    Int → State → Except String State :=
  ended "error" none (some errorMessage) telemetry stoppedAt "ERROR" errorMessage

/-- What a start writes. -/
def starting (now : Int) : State :=
  { createInitialState now with
    mode := "starting"
    startedAt := some now
    updatedAt := now
    events := [⟨now, "INFO", "正在申请当前标签页视频轨"⟩] }

end Mutators

/-- What lies under `STATE_KEY`, if anything does. -/
abbrev Stored := Option State

/-- The storage, the variables of the worker, and the history of the changes. -/
structure Worker where
  stored : Stored
  /-- `updateQueue` is the chain of the updates that were queued, here by their invocations. -/
  updateQueue : List Nat
  settled : Nat
  startInFlight : Bool
  log : List (Updates.Event Stored Int)

structure Tab where
  id : Nat
  /-- The protocol of the address, where the tab shows one. -/
  protocol : Option String

/-- What a section learns from outside. -/
structure Outside where
  now : Int := 0
  failure : Option String := none
  present : Bool := true
  tab : Option Tab := none
  telemetry : Except String (Option Telemetry) := .ok none

abbrev Async := Attempt Worker Outside

/-- An awaited call of the browser. -/
def request (serve : Outside → Worker → α × Worker) : Async α :=
  Attempt.request Outside.failure serve

/-- An awaited call that the state does not depend on. -/
def call : Async Unit := request fun _ s => ((), s)

section Store

/-- An update as a change of what is stored. -/
def updateOf (mutator : Int → State → Except String State) : Updates.Change Stored Int :=
  .update fun now stored =>
    (mutator now (stored.getD (createInitialState now))).toOption.map some

def writeOf (create : Int → State) : Updates.Change Stored Int := .write fun now => some (create now)

/-- An invocation makes a call, and an update stands in the queue. -/
structure Ticket where
  call : Updates.Call
  place : Nat

def note (e : Updates.Event Stored Int) (s : Worker) : Worker := { s with log := s.log ++ [e] }

/-- The storage is asked for a value that is then replaced. -/
def readState (c : Updates.Call) : Async Stored := request fun _ s => (s.stored, note (.read c) s)

def getState : Async State := do
  let result ← request fun _ s => (s.stored, s)
  turn fun e s => (result.getD (createInitialState e.now), s)

def queueUpdate (i : Nat) (mutator : Int → State → Except String State) (s : Worker) :
    Ticket × Worker :=
  (⟨(i, s.log.length), s.updateQueue.length⟩,
    note (.called (i, s.log.length) (updateOf mutator))
      { s with updateQueue := s.updateQueue ++ [i] })

/-- The operation that an update puts behind the queue. -/
def runUpdate (c : Updates.Call) (mutator : Int → State → Except String State) : Async State := do
  let current ← readState c
  let mutated ← turn fun e s =>
    ((mutator e.now (current.getD (createInitialState e.now))).map fun state => (e.now, state), s)
  let changed ← ofResult mutated
  request fun _ s => ((), note (.wrote c (updateOf mutator) changed.1)
    { s with stored := some changed.2 })
  return changed.2

/-- Whether it was rejected or not, the next one goes on. -/
def settle (ticket : Ticket) (e : Updates.Event Stored Int) : Async Unit :=
  turn fun _ s => ((), note e { s with settled := ticket.place + 1 })

def updateState (i : Nat) (mutator : Int → State → Except String State) : Async State := do
  let ticket ← turn fun _ s => queueUpdate i mutator s
  ExceptT.lift (Program.await fun s => s.settled == ticket.place)
  let state ← (do
    try runUpdate ticket.call mutator
    catch message =>
      settle ticket (.failed ticket.call)
      throw message : Async State)
  settle ticket (.returned ticket.call)
  return state

/-- `setState` of a state that is made at the call, beside the queue. -/
def setState (i : Nat) (create : Int → State) : Async State := do
  let called ← turn fun e s =>
    (((i, s.log.length), e.now), note (.called (i, s.log.length) (writeOf create)) s)
  request fun _ s => ((), note (.wrote called.1 (writeOf create) called.2)
    { s with stored := some (create called.2) })
  turn fun _ s => ((), note (.returned called.1) s)
  return create called.2

end Store

section Operations

def hasOffscreenDocument : Async Bool := request fun e s => (e.present, s)

def ensureOffscreenDocument : Async Unit := do
  if ← hasOffscreenDocument then return ()
  call

def updateAction (_mode : String) : Async Unit := call

/-- The answer of the offscreen document, with its telemetry. -/
def sendMessage : Async (Except String (Option Telemetry)) := request fun e s => (e.telemetry, s)

def applyTelemetry (i : Nat) (telemetry : Option Telemetry) (options : TelemetryOptions := {}) :
    Async Unit :=
  match telemetry with
  | none => return ()
  | some telemetry => do
    let state ← updateState i (telemetryApplied telemetry options)
    updateAction (if (state.telemetry .stalled).truthy then "stalled" else state.mode)

def finishUnexpectedCapture (i : Nat) (reason : String) (telemetry : Option Telemetry) :
    Async Unit := do
  let stoppedAt ← turn fun e s => (e.now, s)
  let state ← updateState i (unexpectedlyEnded reason telemetry stoppedAt)
  if ← hasOffscreenDocument then call
  updateAction state.mode

def failProbe (i : Nat) (errorMessage : String) (telemetry : Option Telemetry := none) :
    Async Unit := do
  let stoppedAt ← turn fun e s => (e.now, s)
  let state ← updateState i (failed errorMessage telemetry stoppedAt)
  if ← hasOffscreenDocument then
    try call
    catch _ => pure ()
  call
  updateAction state.mode

def validateCapturableTab : Option Tab → Except String Unit
  | none => .error "无法取得当前活动标签页"
  | some tab =>
    match tab.protocol with
    | none => .error "无法取得当前活动标签页"
    | some protocol =>
      if tab.id = 0 then .error "无法取得当前活动标签页"
      else if protocol ≠ "http:" ∧ protocol ≠ "https:" then
        .error "当前页面不能捕获，请在普通 HTTP/HTTPS 网页上开始测试"
      else .ok ()

def startProbeFromAction (i : Nat) (tab : Option Tab) : Async State := do
  try
    ofResult (validateCapturableTab tab)
    let trusted ← request fun e s => (e.present, s)
    if !trusted then throw "请先用平板扫描二维码完成一次配对"
    -- `allocateSerializedSourceEpoch`
    call
    discard (setState i starting)
    updateAction "starting"
    -- `streamIdPromise`
    call
    ensureOffscreenDocument
    let telemetry ← ofResult (← sendMessage)
    applyTelemetry i telemetry
      { mode := some "capturing"
        event := some ("INFO", "当前标签页已直连发送到 HarmonyOS 平板（不采集音频）")
        beginStage := true }
    call
    updateAction "capturing"
    getState
  catch error =>
    failProbe i error
    throw error

/-- The handler of `START_CAPTURE`. -/
def startCapture (i : Nat) : Async Unit := do
  let busy ← turn fun _ s => (s.startInFlight, { s with startInFlight := true })
  if busy then throw "正在启动，请勿重复操作"
  let finished : Async Unit := turn fun _ s => ((), { s with startInFlight := false })
  try
    let tab ← request fun e s => (e.tab, s)
    discard (startProbeFromAction i tab)
  catch error =>
    finished
    throw error
  finished

def stopProbe (i : Nat) (reason : String) : Async State := do
  discard (updateState i stopping)
  updateAction "stopping"
  let telemetry ← (do
    if ← hasOffscreenDocument then
      let telemetry ← ofResult (← sendMessage)
      call
      return telemetry
    else return none : Async (Option Telemetry))
  let stoppedAt ← turn fun e s => (e.now, s)
  let state ← updateState i (stopped reason telemetry stoppedAt)
  updateAction "stopped"
  return state

def resetProbe (i : Nat) : Async State := do
  let present ← hasOffscreenDocument
  if present then
    try discard sendMessage
    catch _ => pure ()
    call
  let state ← setState i createInitialState
  call
  updateAction "idle"
  return state

def setStage (i : Nat) (stage : String) : Async State := do
  if stage ∉ ["A", "B", "C", "D"] then throw "未知测试阶段"
  updateState i (stageSet stage)

/-- What the messages and the events of the browser start. -/
inductive Operation where
  | startCapture
  | stopCapture
  | resetProbe
  | setStage (stage : String)
  | captureTelemetry (telemetry : Option Telemetry)
  | captureEnded (reason : String) (telemetry : Option Telemetry)
  | captureFailure (error : String) (telemetry : Option Telemetry)

def operate (i : Nat) : Operation → Async Unit
  | .startCapture => startCapture i
  | .stopCapture => discard (stopProbe i "user_stopped_capture")
  | .resetProbe => discard (resetProbe i)
  | .setStage stage => discard (setStage i stage)
  | .captureTelemetry telemetry => applyTelemetry i telemetry
  | .captureEnded reason telemetry => finishUnexpectedCapture i reason telemetry
  | .captureFailure error telemetry => failProbe i error telemetry

def spawn (i : Nat) (operation : Operation) : Program Worker Outside Unit := do
  let _ ← (operate i operation).run
  return ()

end Operations

end ServiceWorker

end HarmonyScreen.Extension
