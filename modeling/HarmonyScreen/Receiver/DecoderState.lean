namespace HarmonyScreen.Receiver

inductive DecoderLifecycleState where
  | stopped
  | starting
  | running
  | flushing
  | stopping
  deriving DecidableEq, Repr

inductive FlushRecoveryAction where
  | resume
  | rebuild
  deriving DecidableEq, Repr

inductive DecoderInputKind where
  | codecData
  | syncFrame
  | frame
  deriving DecidableEq, Repr

inductive DecoderRecoveryState where
  | needsCodecData
  | needsSyncFrame
  | ready
  deriving DecidableEq, Repr

structure DecodeQueueAdmission where
  accepted : Bool
  clearPending : Bool
  requestKeyFrame : Bool
  nextState : DecoderRecoveryState

def evaluateDecodeQueueAdmission (queuedFrames capacity : Nat)
    (currentState : DecoderRecoveryState) : DecodeQueueAdmission :=
  if queuedFrames < capacity then ⟨true, false, false, currentState⟩
  else ⟨false, true, true, .needsCodecData⟩

def decoderCallbacksAllowed (state : DecoderLifecycleState) : Bool := state == .running

def evaluateFlushRecovery (flushSucceeded restartSucceeded : Bool) : FlushRecoveryAction :=
  if flushSucceeded && restartSucceeded then .resume else .rebuild

def decoderInputAllowed (state : DecoderRecoveryState) (kind : DecoderInputKind) : Bool :=
  match state with
  | .needsCodecData => kind == .codecData
  | .needsSyncFrame => kind == .syncFrame
  | .ready => kind == .syncFrame || kind == .frame

def advanceDecoderRecovery (state : DecoderRecoveryState) (kind : DecoderInputKind)
    (pushed : Bool) : DecoderRecoveryState :=
  if !pushed then .needsCodecData
  else if state = .needsCodecData ∧ kind = .codecData then .needsSyncFrame
  else if state = .needsSyncFrame ∧ kind = .syncFrame then .ready
  else state

/-- `DecoderRecoveryCoordinator`. -/
structure DecoderRecoveryCoordinator where
  state : DecoderRecoveryState := .needsCodecData
  keyframeRequestPending : Bool := false
  deriving DecidableEq, Repr

namespace DecoderRecoveryCoordinator

def inputAllowed (c : DecoderRecoveryCoordinator) (kind : DecoderInputKind) : Bool :=
  decoderInputAllowed c.state kind

def requireCodecData (c : DecoderRecoveryCoordinator) : DecoderRecoveryCoordinator :=
  { c with state := .needsCodecData }

def requestKeyFrame (c : DecoderRecoveryCoordinator) : DecoderRecoveryCoordinator :=
  { c with keyframeRequestPending := true }

def consumeKeyFrameRequest (c : DecoderRecoveryCoordinator) :
    Bool × DecoderRecoveryCoordinator :=
  (c.keyframeRequestPending, { c with keyframeRequestPending := false })

/-- `Admit`; the caller clears its queue when the admission says so. -/
def admitQueued (c : DecoderRecoveryCoordinator) (queuedFrames capacity : Nat) :
    DecodeQueueAdmission × DecoderRecoveryCoordinator :=
  let admission := evaluateDecodeQueueAdmission queuedFrames capacity c.state
  if admission.accepted then (admission, c)
  else
    let c := { c with state := admission.nextState }
    (admission, if admission.requestKeyFrame then c.requestKeyFrame else c)

def onInputSubmitted (c : DecoderRecoveryCoordinator) (kind : DecoderInputKind)
    (submitted : Bool) : DecoderRecoveryCoordinator :=
  let c := { c with state := advanceDecoderRecovery c.state kind submitted }
  if submitted then c else c.requestKeyFrame

end DecoderRecoveryCoordinator

structure DecoderRuntimeSnapshot where
  state : DecoderLifecycleState
  available : Bool

structure ReceiverLifecycleDecision where
  accepted : Bool := false
  stopDecoder : Bool := false
  startDecoder : Bool := false
  deriving DecidableEq, Repr

/-- `ReceiverLifecycleState`; zero is no component or no surface. -/
structure ReceiverLifecycleState where
  foreground : Bool := true
  component : Nat := 0
  surface : Nat := 0
  deriving DecidableEq, Repr

namespace ReceiverLifecycleState

def decoderShouldRun (l : ReceiverLifecycleState) : Bool := l.foreground && l.surface != 0

def reconcile (l : ReceiverLifecycleState) (accepted identityChanged : Bool)
    (decoder : DecoderRuntimeSnapshot) : ReceiverLifecycleDecision :=
  let decoderExists := decoder.available || decoder.state != .stopped
  let decoderHealthy := decoder.available && decoder.state == .running
  { accepted := accepted
    stopDecoder := decoderExists && (!l.decoderShouldRun || identityChanged || !decoderHealthy)
    startDecoder := l.decoderShouldRun && (identityChanged || !decoderHealthy) }

def surfaceCreated (l : ReceiverLifecycleState) (component surface : Nat)
    (decoder : DecoderRuntimeSnapshot) : ReceiverLifecycleDecision × ReceiverLifecycleState :=
  if component = 0 ∨ surface = 0 then ({}, l)
  else
    let identityChanged := component != l.component || surface != l.surface
    let l := { l with component := component, surface := surface }
    (l.reconcile true identityChanged decoder, l)

def surfaceChanged (l : ReceiverLifecycleState) (component surface : Nat)
    (decoder : DecoderRuntimeSnapshot) : ReceiverLifecycleDecision × ReceiverLifecycleState :=
  if component = 0 ∨ surface = 0 ∨ (l.component ≠ 0 ∧ component ≠ l.component) then ({}, l)
  else
    let identityChanged := component != l.component || surface != l.surface
    let l := { l with component := component, surface := surface }
    (l.reconcile true identityChanged decoder, l)

def surfaceDestroyed (l : ReceiverLifecycleState) (component surface : Nat)
    (decoder : DecoderRuntimeSnapshot) : ReceiverLifecycleDecision × ReceiverLifecycleState :=
  if l.component = 0 ∨ l.surface = 0 ∨ component ≠ l.component ∨ surface ≠ l.surface then ({}, l)
  else
    let l := { l with component := 0, surface := 0 }
    (l.reconcile true true decoder, l)

def setForeground (l : ReceiverLifecycleState) (decoder : DecoderRuntimeSnapshot) :
    ReceiverLifecycleDecision × ReceiverLifecycleState :=
  let l := { l with foreground := true }
  (l.reconcile true false decoder, l)

def setBackground (l : ReceiverLifecycleState) (decoder : DecoderRuntimeSnapshot) :
    ReceiverLifecycleDecision × ReceiverLifecycleState :=
  let l := { l with foreground := false }
  (l.reconcile true false decoder, l)

end ReceiverLifecycleState

end HarmonyScreen.Receiver
