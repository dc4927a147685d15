import Mathlib.Logic.Relation
import HarmonyScreen.Extension.DirectProtocol

namespace HarmonyScreen.Extension
open Receiver DirectProtocol

structure DirectResyncPolicy where
  keyFrameRequired : Bool := true
  awaitingKeyFrameDelivery : Bool := true
  resyncEvents : Nat := 0
  deriving DecidableEq, Repr

namespace DirectResyncPolicy

def shouldEncodeKeyFrame (p : DirectResyncPolicy) (periodicKeyFrameRequired : Bool) : Bool :=
  p.keyFrameRequired || periodicKeyFrameRequired

def onKeyFrameSubmitted (p : DirectResyncPolicy) : DirectResyncPolicy :=
  { p with keyFrameRequired := false }

def canDeliverEncodedChunk (p : DirectResyncPolicy) (type : String) : Bool :=
  !p.awaitingKeyFrameDelivery || type == "key"

def onEncodedChunkDelivered (p : DirectResyncPolicy) (type : String) : DirectResyncPolicy :=
  if type = "key" then { p with awaitingKeyFrameDelivery := false } else p

/-- Whether a resynchronization was started, and the policy afterwards. -/
def requireKeyFrame (p : DirectResyncPolicy) : Bool × DirectResyncPolicy :=
  let startedResync := !p.awaitingKeyFrameDelivery
  (startedResync,
    { keyFrameRequired := true
      awaitingKeyFrameDelivery := true
      resyncEvents := if startedResync then p.resyncEvents + 1 else p.resyncEvents })

end DirectResyncPolicy

/-- The counters of `directTelemetry` that delivery changes. -/
structure DirectTelemetry where
  directResyncEvents : Nat := 0
  directDroppedFrames : Nat := 0
  directSentFrames : Nat := 0
  directSentBytes : Nat := 0
  directErrors : Nat := 0
  directKeyframeRequests : Nat := 0
  deriving DecidableEq, Repr

structure DirectDeliveryOrchestrator where
  policy : DirectResyncPolicy := {}
  sequence : Nat := 0
  deriving DecidableEq, Repr

namespace DirectDeliveryOrchestrator

def shouldEncodeKeyFrame (o : DirectDeliveryOrchestrator) (periodicKeyFrameRequired : Bool) : Bool :=
  o.policy.shouldEncodeKeyFrame periodicKeyFrameRequired

def onKeyFrameSubmitted (o : DirectDeliveryOrchestrator) : DirectDeliveryOrchestrator :=
  { o with policy := o.policy.onKeyFrameSubmitted }

def requireKeyFrame (o : DirectDeliveryOrchestrator) (telemetry : DirectTelemetry) :
    DirectDeliveryOrchestrator × DirectTelemetry :=
  let (started, policy) := o.policy.requireKeyFrame
  ({ o with policy := policy },
    if started then { telemetry with directResyncEvents := telemetry.directResyncEvents + 1 }
    else telemetry)

def dropForResync (o : DirectDeliveryOrchestrator) (telemetry : DirectTelemetry) :
    DirectDeliveryOrchestrator × DirectTelemetry :=
  o.requireKeyFrame { telemetry with directDroppedFrames := telemetry.directDroppedFrames + 1 }

/-- `deliver` to a connection that is `connected` and whose `sendVideo` `takes`
the message or refuses it: the message it took, if any. -/
def deliver (chunk : EncodedVideoChunk) (connected takes : Bool) (sourceEpoch : Number)
    (o : DirectDeliveryOrchestrator) (telemetry : DirectTelemetry) :
    Except String (Option Bytes × DirectDeliveryOrchestrator × DirectTelemetry) :=
  if chunk.byteLength > directVideoMaxPayloadBytes then .error "单个 H.264 编码块超过 8 MiB"
  else if !connected || !o.policy.canDeliverEncodedChunk chunk.type then
    .ok (none, o.dropForResync telemetry)
  else
    match createDirectVideoMessage chunk sourceEpoch (.integer o.sequence) with
    | .error message => .error message
    | .ok message =>
      if !takes then .ok (none, o.dropForResync telemetry)
      else
        .ok (some message,
          { policy := o.policy.onEncodedChunkDelivered chunk.type
            sequence := (o.sequence + 1) % 2 ^ 32 },
          { telemetry with
            directSentFrames := telemetry.directSentFrames + 1
            directSentBytes := telemetry.directSentBytes + chunk.byteLength })

end DirectDeliveryOrchestrator

def keyframeIntervalUs : Int := 2000000

/-- Without a last keyframe (`NaN`) one is due. -/
def shouldRequestPeriodicKeyFrame (timestampUs : Int) (lastKeyFrameTimestampUs : Option Int) :
    Bool :=
  if timestampUs < 0 then true
  else
    match lastKeyFrameTimestampUs with
    | none => true
    | some last =>
      if last < 0 ∨ timestampUs < last then true else timestampUs - last ≥ keyframeIntervalUs

/-- A chunk that the current encoder put out. The connection that took its
message is recorded with the message. -/
structure Output where
  generation : Nat
  type : String
  sent : Option (Nat × Bytes)
  deriving DecidableEq, Repr

/-- The part of a capture that delivers frames. -/
structure Capture where
  delivery : DirectDeliveryOrchestrator := {}
  telemetry : DirectTelemetry := {}
  sourceEpoch : Number := .integer 1
  lastKeyFrameTimestampUs : Option Int := none
  running : Bool := true
  activeEncoderGeneration : Nat := 1
  /-- The frames inside the encoder, oldest first: which were submitted with `keyFrame: true`. -/
  encoder : List Bool := []
  connection : Nat := 0
  connected : Bool := false
  /-- A reconnect has succeeded and its `requireKeyFrame` is still to come. -/
  recovering : Bool := false
  /-- Kept for the properties alone. -/
  outputs : List Output := []

/-- A source frame, and what `encodeFrame` finds out about it: whether the
encoder is configured, how long its queue is, whether the size is the
contract's, whether the rate gate lets it pass, and whether `encode` throws. -/
structure SourceFrame where
  timestamp : Int
  configured : Bool
  encodeQueueSize : Nat
  sizeMatches : Bool
  shouldSubmit : Bool
  encodes : Bool

def maxEncodeQueueSize : Nat := 2

namespace Capture

/-- `encodeFrame`; where it throws or drops the frame, delivery is left alone. -/
def encodeFrame (frame : SourceFrame) (s : Capture) : Capture :=
  if !frame.configured || frame.encodeQueueSize ≥ maxEncodeQueueSize || !frame.sizeMatches ||
      !frame.shouldSubmit || !frame.encodes then s
  else
    let keyFrame := s.delivery.shouldEncodeKeyFrame
      (shouldRequestPeriodicKeyFrame frame.timestamp s.lastKeyFrameTimestampUs)
    let s := { s with encoder := s.encoder ++ [keyFrame] }
    if keyFrame then
      { s with
        delivery := s.delivery.onKeyFrameSubmitted
        lastKeyFrameTimestampUs := some frame.timestamp }
    else s

/-- `handleEncodedChunk` on a chunk of the current encoder. -/
def handleEncodedChunk (chunk : EncodedVideoChunk) (takes : Bool) (s : Capture) : Capture :=
  match s.delivery.deliver chunk s.connected takes s.sourceEpoch s.telemetry with
  | .error _ =>
    { s with
      telemetry := { s.telemetry with directErrors := s.telemetry.directErrors + 1 }
      running := false }
  | .ok (sent, delivery, telemetry) =>
    { s with
      delivery := delivery
      telemetry := telemetry
      outputs := s.outputs ++
        [⟨s.activeEncoderGeneration, chunk.type, sent.map fun message => (s.connection, message)⟩] }

def requireKeyFrame (s : Capture) : Capture :=
  let (delivery, telemetry) := s.delivery.requireKeyFrame s.telemetry
  { s with delivery := delivery, telemetry := telemetry }

/-- What can happen while a capture goes on. -/
inductive Step : Capture → Capture → Prop where
  | frame (frame : SourceFrame) : Step s (s.encodeFrame frame)
  /-- The encoder puts out its oldest frame, a key chunk if one was asked for. -/
  | output (chunk : EncodedVideoChunk) (takes : Bool) (oldest : s.encoder = key :: rest)
      (asked : key = true → chunk.type = "key")
      (accepted : ∃ message,
        createDirectVideoMessage chunk s.sourceEpoch (.integer s.delivery.sequence) = .ok message)
      (settled : s.recovering = false) :
      Step s ({ s with encoder := rest }.handleEncodedChunk chunk takes)
  /-- A chunk of an encoder that is no longer current. -/
  | stale : Step s { s with telemetry :=
      { s.telemetry with directDroppedFrames := s.telemetry.directDroppedFrames + 1 } }
  | lost : Step s { s with connected := false }
  | reconnected : Step s
      { s with connection := s.connection + 1, connected := true, recovering := true }
  | recovered : Step s { s.requireKeyFrame with recovering := false }
  /-- A `keyframe` message of the Receiver. -/
  | requested : Step s { s.requireKeyFrame with telemetry :=
      { s.requireKeyFrame.telemetry with
        directKeyframeRequests := s.requireKeyFrame.telemetry.directKeyframeRequests + 1 } }
  /-- `reset` with a fresh encoder, as for another size of the source. -/
  | reset (epoch : Nat) : Step s { s with
      delivery := {}
      sourceEpoch := .integer epoch
      lastKeyFrameTimestampUs := none
      activeEncoderGeneration := s.activeEncoderGeneration + 1
      encoder := [] }

/-- The states of a capture that began with a source epoch. -/
def Reachable (s : Capture) : Prop :=
  ∃ (epoch : Nat) (connected : Bool),
    Relation.ReflTransGen Step { sourceEpoch := .integer epoch, connected := connected } s

end Capture

end HarmonyScreen.Extension
