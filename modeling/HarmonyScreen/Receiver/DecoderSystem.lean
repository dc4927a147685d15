import HarmonyScreen.Lib.Discipline
import HarmonyScreen.Receiver.Decoding

namespace HarmonyScreen.Receiver
open Lib Protocol

/-- The threads that use the decoder. -/
inductive DecoderThread where
  | network
  | surface
  | codec (n : Nat)
  deriving DecidableEq, Repr

/-- What they are asked to do, in any order. -/
inductive DecoderJob where
  /-- An authentication makes its epoch the active one. -/
  | activate (epoch : Nat)
  | video (data : Bytes)
  | flush
  | reconfigure (contract : MediaContract)
  | lifecycle (event : ReceiverSession.LifecycleEvent)
  | needInput (decoder : Nat) (slot : InputSlot)

namespace ReceiverSession

/-- The codec calls back with a free input buffer; it does so only while it is started. -/
def needInputCallback (caller decoder : Nat) (slot : InputSlot) : Session Unit := do
  .atomic (fun s => s.avCodec.started && s.avCodec.address == decoder)
    (fun _ s => { s with avCodec := { s.avCodec with callbacks := caller :: s.avCodec.callbacks } })
    (fun _ _ => .ret ())
  decoderNeedInput decoder slot
  modify fun s => { s with
    avCodec := { s.avCodec with callbacks := s.avCodec.callbacks.filter (· != caller) } }

end ReceiverSession

namespace DecoderSystem
open ReceiverSession

def spawn : DecoderThread → DecoderJob → Session Unit
  | .network, .activate epoch => modify fun s => { s with activeSourceEpoch := epoch }
  | .network, .video data => handleVideo data
  | .network, .flush => do
    let _ ← flushDecoder
  | .network, .reconfigure contract => do
    let _ ← reconfigureDecoder contract
  | .surface, .lifecycle event => onLifecycleEvent event
  | .codec n, .needInput decoder slot => needInputCallback n decoder slot
  | _, _ => .ret ()

/-- Whether a section is told of a codec call that fails. -/
def Succeeds (e : External) : Prop := e.codecStatus = 0 ∧ e.codecAddress.isSome = true

/-- Every run of these threads, whatever the codec's calls return. -/
abbrev Reachable (c : Config DecoderThread ReceiverSession External) : Prop :=
  Config.Reaches spawn (fun _ _ _ => True) (Config.idle {}) c

end DecoderSystem

end HarmonyScreen.Receiver
