import HarmonyScreen.Receiver.Session

namespace HarmonyScreen.Receiver.ReceiverSession
open Lib Protocol

/-- The values of the platform's error codes that the session reports itself. -/
def avErrInvalidVal : Int := 3
def avErrUnsupport : Int := 9

def callbacksAllowed (s : ReceiverSession) : Bool :=
  decoderCallbacksAllowed s.decoderCallbackGate

/-- A drop that resynchronizes: the queue is emptied and a new keyframe asked for. -/
def resync (s : ReceiverSession) : ReceiverSession :=
  { s with
    framesDropped := s.framesDropped + 1 + s.decodeQueue.length
    decodeQueue := []
    decoderResyncEvents := s.decoderResyncEvents + 1
    decoderRecovery := s.decoderRecovery.requestKeyFrame }

/-- The body of the loop in `PumpDecoderLocked`, on a slot and an input already
taken off their queues; whether the loop goes on, and the session after it. -/
def pumpTurn (s : ReceiverSession) (slot : InputSlot) (frame : DecodedInput) :
    Bool × ReceiverSession :=
  if !s.decoderRecovery.inputAllowed frame.kind then
    (true, { s with framesDropped := s.framesDropped + 1 })
  else if !slot.fits frame.bytes.length then
    (false, resync { s with decoderRecovery := s.decoderRecovery.requireCodecData })
  else
    let s := { s with
      decoderRecovery := s.decoderRecovery.onInputSubmitted frame.kind slot.pushes
      log := s.log ++ [.pushed slot frame] }
    if slot.pushes then (true, s) else (false, resync s)

/-- The loop of `PumpDecoderLocked` over the offered slots. -/
def pumpLoop (decoder : Nat) : List InputSlot → ReceiverSession → ReceiverSession
  | [], s => s
  | slot :: slots, s =>
    match s.decodeQueue with
    | [] => s
    | frame :: queue =>
      if s.callbacksAllowed && s.decoder == some decoder then
        let taken := { s with
          inputSlots := slots
          decodeQueue := queue
          log := s.log ++ [.popped slot frame s.decoderRecovery.state] }
        match pumpTurn taken slot frame with
        | (true, s) => pumpLoop decoder slots s
        | (false, s) => s
      else s

/-- `PumpDecoderLocked`. No other thread changes the queues meanwhile. -/
def pumpDecoderLocked (decoder : Nat) (s : ReceiverSession) : ReceiverSession :=
  pumpLoop decoder s.inputSlots s

def drop (s : ReceiverSession) : ReceiverSession := { s with framesDropped := s.framesDropped + 1 }

/-- The critical section of `SubmitFrame`. -/
def submitFrameLocked (frame : DecodedInput) (s : ReceiverSession) : ReceiverSession :=
  match s.decoder with
  | none => s.drop
  | some decoder =>
    if !s.callbacksAllowed || !s.decoderRecovery.inputAllowed frame.kind then s.drop
    else
      let queuedFrames := s.decodeQueue.length
      let (admission, recovery) := s.decoderRecovery.admitQueued queuedFrames 3
      let s := { s with decoderRecovery := recovery }
      let s := if admission.clearPending then { s with decodeQueue := [] } else s
      if !admission.accepted then
        { s with
          framesDropped := s.framesDropped + queuedFrames + 1
          decoderResyncEvents := s.decoderResyncEvents + 1
          log := s.log ++ [.refused] }
      else
        pumpDecoderLocked decoder { s with decodeQueue := s.decodeQueue ++ [frame] }

def submitFrame (frame : DecodedInput) : Session Unit := modify (submitFrameLocked frame)

/-- The critical section of `SubmitRecovery`. -/
def submitRecoveryLocked (codecData syncFrame : DecodedInput) (s : ReceiverSession) :
    Bool × ReceiverSession :=
  let s := s.note (.recovering codecData.arrival s.decoderRecovery.state)
  match s.decoder with
  | none => (false, s.drop)
  | some decoder =>
    if !s.callbacksAllowed || s.decoderRecovery.state != .needsCodecData ||
        codecData.kind != .codecData || syncFrame.kind != .syncFrame ||
        codecData.bytes.isEmpty || syncFrame.bytes.isEmpty then (false, s.drop)
    else
      (true, pumpDecoderLocked decoder { s with
        framesDropped := s.framesDropped + s.decodeQueue.length
        decodeQueue := [codecData, syncFrame] })

def submitRecovery (codecData syncFrame : DecodedInput) : Session Bool :=
  Program.critical fun _ s => submitRecoveryLocked codecData syncFrame s

/-- The atomic load of the recovery state in `HandleVideo`. -/
def observeRecovery (arrival : Nat) (keyframe : Bool) : Session DecoderRecoveryState :=
  Program.critical fun _ s =>
    (s.decoderRecovery.state, s.note (.arrived arrival keyframe s.decoderRecovery.state
      (s.decodeQueue.any (·.kind == .syncFrame))))

/-- `++received_frames_` and `received_bytes_ +=`; the new count numbers the message. -/
def countFrame (payloadLength : Nat) : Session Nat :=
  Program.critical fun _ s =>
    (s.receivedFrames + 1, { s with
      receivedFrames := s.receivedFrames + 1
      receivedBytes := s.receivedBytes + payloadLength })

def handleVideo (data : Bytes) : Session Unit := do
  let activeEpoch ← load (·.activeSourceEpoch)
  match decodeVideoHeader data with
  | none => modify drop
  | some header =>
    if header.sourceEpoch ≠ activeEpoch then modify drop
    else
      let arrival ← countFrame header.payloadLength
      let running ← load fun s => s.callbacksAllowed && s.decoder.isSome
      if !running then modify drop
      else
        let keyframe := header.flags &&& kKeyframe ≠ 0
        let recoveryState ← observeRecovery arrival keyframe
        let bytes := (data.drop kHeaderSize).take header.payloadLength
        if recoveryState = .needsCodecData then
          let recovery := splitAvcRecoveryInput bytes
          if !keyframe ∨ !recovery.complete then
            modify drop
            requestKeyframe
          else
            let submitted ← submitRecovery
              ⟨recovery.codecData, header.timestampUs, .codecData, arrival, header.sourceEpoch⟩
              ⟨recovery.syncFrame, header.timestampUs, .syncFrame, arrival, header.sourceEpoch⟩
            if submitted then return () else requestKeyframe
        else if recoveryState = .needsSyncFrame ∧ !keyframe then
          modify drop
          requestKeyframe
        else
          submitFrame ⟨bytes, header.timestampUs, if keyframe then .syncFrame else .frame, arrival,
            header.sourceEpoch⟩

/-- `DecoderNeedInput`. The gate is looked at before the lock is taken, and again inside. -/
def decoderNeedInput (callbackDecoder : Nat) (slot : InputSlot) : Session Unit := do
  let allowed ← load callbacksAllowed
  if !allowed then return ()
  else
    modify fun s =>
      if !s.callbacksAllowed || s.decoder != some callbackDecoder then s
      else
        pumpDecoderLocked callbackDecoder { s with
          inputSlots := s.inputSlots ++ [slot]
          log := s.log ++ [.admitted slot] }

/-- A codec call, by the status it returns. -/
def codecCall : Session Int := Program.critical fun e s => (e.codecStatus, s)

/-- A call that changes the codec when it succeeds. -/
def codecStep (effect : ReceiverSession → ReceiverSession) : Session Int :=
  Program.critical fun e s => (e.codecStatus, if e.codecStatus = 0 then effect s else s)

def configureCodec (contract : MediaContract) (s : ReceiverSession) : ReceiverSession :=
  { s with avCodec := { s.avCodec with contract := some contract } }

/-- `OH_VideoDecoder_SetSurface` with the surface that is registered. -/
def bindCodec (s : ReceiverSession) : ReceiverSession :=
  { s with avCodec := { s.avCodec with surface := some s.lifecycleState.surface } }

/-- `OH_VideoDecoder_Start`: from here on the codec asks for input. -/
def startCodec : Session Int :=
  codecStep fun s =>
    { s with avCodec := { s.avCodec with started := true }, log := s.log ++ [.started] }

/-- `OH_VideoDecoder_Flush` or `Stop` begins: no more callbacks. -/
def haltCodec : Session Unit :=
  modify fun s =>
    { s with avCodec := { s.avCodec with started := false }, log := s.log ++ [.halted] }

/-- It returns when the running callbacks have returned. -/
def callbacksReturned (s : ReceiverSession) : Bool := s.avCodec.callbacks == []

def flushCodec : Session Int := do
  haltCodec
  .atomic callbacksReturned (fun _ s => s) (fun e _ => .ret e.codecStatus)

/-- The results of `Stop` and `Destroy` are not looked at. -/
def stopCodec : Session Unit := do
  haltCodec
  Program.await callbacksReturned

def destroyCodec : Session Unit :=
  modify fun s => { s with avCodec := {}, log := s.log ++ [.halted] }

def setGate (state : DecoderLifecycleState) : Session Unit :=
  modify fun s => { s with decoderCallbackGate := state }

def clearDecoderQueues : Session Unit :=
  modify fun s => { s with inputSlots := [], decodeQueue := [], log := s.log ++ [.cleared] }

def requireCodecData : Session Unit :=
  modify fun s => { s with decoderRecovery := s.decoderRecovery.requireCodecData }

def initializationFailed (connected : Bool) (operation : String) (errorCode : Int) :
    Session Unit :=
  setState "error" ("视频播放准备失败：" ++ operation ++ "（错误码 " ++ toString errorCode ++ "）")
    connected connected

/-- The calls between creating the codec and publishing it. Each must succeed;
otherwise the codec is destroyed again. -/
def prepareDecoder (connected : Bool) :
    List (String × (ReceiverSession → ReceiverSession)) → Session Bool
  | [] => return true
  | (operation, effect) :: operations => do
    let status ← codecStep effect
    if status ≠ 0 then
      initializationFailed connected operation status
      destroyCodec
      setGate .stopped
      return false
    else prepareDecoder connected operations

def createDecoderLocked : Session Bool := do
  let connected ← load (·.connected)
  let shouldRun ← load (·.lifecycleState.decoderShouldRun)
  if !shouldRun then
    initializationFailed connected "Surface" avErrInvalidVal
    return false
  else
    let mediaContract ← load (·.decoderMediaContract)
    if !isValidMediaContract mediaContract then
      setGate .stopped
      return false
    else
      setGate .starting
      let created ← Program.critical fun e s =>
        (e.codecAddress, match e.codecAddress with
          | some address => { s with avCodec := { ({} : AvCodec) with address := address } }
          | none => s)
      match created with
      | none =>
        initializationFailed connected "CreateByMime" avErrUnsupport
        setGate .stopped
        return false
      | some decoder =>
        let prepared ← prepareDecoder connected
          [("RegisterCallback", id), ("CreateVideoFormat", id),
            ("Configure", configureCodec mediaContract), ("SetSurface", bindCodec), ("Prepare", id)]
        if !prepared then return false
        else
          modify fun s => { s with decoder := some decoder }
          setGate .running
          let start ← startCodec
          if start ≠ 0 then
            initializationFailed connected "Start" start
            setGate .stopping
            clearDecoderQueues
            modify fun s => { s with decoder := none }
            destroyCodec
            setGate .stopped
            return false
          else
            requireCodecData
            return true

def destroyDecoderLocked : Session Unit := do
  setGate .stopping
  clearDecoderQueues
  let decoder ← Program.critical fun _ s => (s.decoder, { s with decoder := none })
  if decoder.isSome then
    stopCodec
    destroyCodec
  setGate .stopped
  requireCodecData

def lockLifecycle (thread : LifecycleThread) : Session Unit :=
  .atomic (fun s => s.lifecycleMutex == none)
    (fun _ s => { s with lifecycleMutex := some thread }) (fun _ _ => .ret ())

def unlockLifecycle : Session Unit := modify fun s => { s with lifecycleMutex := none }

/-- The gate opens again before `OH_VideoDecoder_Start`. -/
def restartDecoder : Session Bool := do
  setGate .running
  let status ← startCodec
  return status == 0

/-- `FlushDecoder` under the lifecycle lock. -/
def flushDecoderLocked : Session Bool := do
  let decoder ← load (·.decoder)
  if decoder.isSome then
    setGate .flushing
    clearDecoderQueues
    let flushed ← flushCodec
    let restarted ← if flushed = 0 then restartDecoder else pure false
    if evaluateFlushRecovery (flushed == 0) restarted = .resume then
      return true
    else
      destroyDecoderLocked
      let shouldRun ← load (·.lifecycleState.decoderShouldRun)
      if shouldRun then createDecoderLocked else return false
  else
    setGate .flushing
    clearDecoderQueues
    setGate .stopped
    let shouldRun ← load (·.lifecycleState.decoderShouldRun)
    if shouldRun then createDecoderLocked else return true

/-- The resynchronization is counted; what the operation comes to is settled before. -/
def countResync (prepared : Bool) : Session Unit :=
  modify fun s => { s with
    decoderResyncEvents := s.decoderResyncEvents + 1, log := s.log ++ [.prepared prepared] }

def flushDecoder : Session Bool := do
  lockLifecycle .network
  let recovered ← flushDecoderLocked
  requireCodecData
  unlockLifecycle
  countResync recovered
  requestKeyframe
  return recovered

def reconfigureDecoder (contract : MediaContract) : Session Bool :=
  if !isValidMediaContract contract then do
    modify fun s => s.note (.prepared false)
    return false
  else do
    lockLifecycle .network
    let previous ← load (·.decoderMediaContract)
    destroyDecoderLocked
    modify fun s => { s with decoderMediaContract := contract }
    let shouldRun ← load (·.lifecycleState.decoderShouldRun)
    let prepared ← if shouldRun then createDecoderLocked else pure true
    if !prepared then modify fun s => { s with decoderMediaContract := previous }
    requireCodecData
    unlockLifecycle
    countResync prepared
    requestKeyframe
    return prepared

/-- `ApplyLifecycleDecisionLocked`. -/
def applyLifecycleDecisionLocked (decision : ReceiverLifecycleDecision) : Session Bool :=
  if !decision.accepted then return false
  else do
    if decision.stopDecoder then destroyDecoderLocked
    if !decision.startDecoder then return false else createDecoderLocked

/-- The surface and foreground callbacks of the XComponent and the ability. -/
inductive LifecycleEvent where
  | surfaceCreated (component surface : Nat)
  | surfaceChanged (component surface : Nat)
  | surfaceDestroyed (component surface : Nat)
  | foreground
  | background
  deriving DecidableEq, Repr

def LifecycleEvent.decide (event : LifecycleEvent) (l : ReceiverLifecycleState)
    (decoder : DecoderRuntimeSnapshot) : ReceiverLifecycleDecision × ReceiverLifecycleState :=
  match event with
  | .surfaceCreated component surface => l.surfaceCreated component surface decoder
  | .surfaceChanged component surface => l.surfaceChanged component surface decoder
  | .surfaceDestroyed component surface => l.surfaceDestroyed component surface decoder
  | .foreground => l.setForeground decoder
  | .background => l.setBackground decoder

/-- `OnSurfaceCreated`, `OnSurfaceChanged` and `OnAppForeground` ask for a
keyframe when the decoder was started; the other two never start it. -/
def onLifecycleEvent (event : LifecycleEvent) : Session Unit := do
  lockLifecycle .surface
  let decision ← Program.critical fun _ s =>
    let (decision, lifecycleState) :=
      event.decide s.lifecycleState ⟨s.decoderCallbackGate, s.decoder.isSome⟩
    (decision, { s with lifecycleState := lifecycleState })
  let decoderStarted ← applyLifecycleDecisionLocked decision
  unlockLifecycle
  match event with
  | .surfaceDestroyed _ _ | .background => return ()
  | _ => if decoderStarted then requestKeyframe

/-- `DecoderError`. -/
def decoderError (errorCode : Int) : Session Unit := do
  let connected ← load (·.connected)
  setState "error" ("视频播放出错（错误码 " ++ toString errorCode ++ "）") connected connected

end HarmonyScreen.Receiver.ReceiverSession
