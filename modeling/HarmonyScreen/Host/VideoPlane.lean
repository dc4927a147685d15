import HarmonyScreen.Host.DataPlaneGate
import HarmonyScreen.Host.VideoHeader
import HarmonyScreen.Lib.Focus

namespace HarmonyScreen.Host
open Lib Receiver Protocol

/-- The threads of the host that a session depends on. -/
inductive Worker where
  | control
  | pipe
  deriving DecidableEq, Repr

/-- A datagram that was handed to the socket, and the host at that moment. -/
structure Sending where
  frame : PipeFrame
  peer : Peer
  packet : Bytes
  server : HostServer
  changes : List GateEvent

/-- What the threads share: the gate keeps its own history, and `sent` is the history of the
socket. -/
structure HostPlane where
  server : HostServer := {}
  gate : DataPlaneGate Worker := {}
  sent : List Sending := []

/-- What a section learns from outside: the clock, the number for a new pairing code, and how the
answer to a frame went. -/
structure Learned where
  now : Nat := 0
  random : Option UInt32 := none
  answers : FrameAnswers := {}
  deriving DecidableEq, Repr

abbrev HostProgram := Program HostPlane Learned

namespace HostPlane
open Program

def onGate (p : DataPlaneGate.GateProgram Worker α) : HostProgram α :=
  p.focus HostPlane.gate (fun gate s => { s with gate := gate }) fun _ => ()

theorem onGate_critical (f : Unit → DataPlaneGate Worker → α × DataPlaneGate Worker) :
    onGate (.critical f) =
      .critical fun _ s => ((f () s.gate).1, { s with gate := (f () s.gate).2 }) := rfl

theorem onGate_bind (p : DataPlaneGate.GateProgram Worker α)
    (f : α → DataPlaneGate.GateProgram Worker β) :
    onGate (p >>= f) = onGate p >>= fun a => onGate (f a) := Program.focus_bind p f

/-- A section of the control thread on the session, most of them under `state_mutex_`. -/
def session (f : Learned → HostServer → α × HostServer) : HostProgram α :=
  .critical fun e s => ((f e s.server).1, { s with server := (f e s.server).2 })

def rotatePairingCode : HostProgram Unit :=
  session fun e server => ((), server.rotatePairingCode e.random)

def clearSession : HostProgram Unit := do
  onGate (DataPlaneGate.revoke .control)
  session fun _ server => ((), { server with
    paired := false, resumePending := false, sessionShort := 0, videoPeer := {} })
  rotatePairingCode

def markDisconnected : HostProgram Unit :=
  session fun e server => ((), server.markDisconnected e.now)

def expireResumeWindow : HostProgram Unit := do
  let expired ← session fun e server =>
    (decide (server.resumePending ∧ e.now ≥ server.resumeDeadline), server)
  if expired then clearSession

/-- `SendControl(client, SessionMessage())`, with the text left out. -/
def sendSession : HostProgram Bool := session fun e server => (e.answers.sent, server)

/-- The first frame of a connection from this address. -/
def authenticate (json : Bytes) (peer : Peer) : HostProgram Unit := do
  let type := jsonString json (ascii "type")
  let code := jsonString json (ascii "pairingCode")
  let requestedSession := jsonString json (ascii "sessionId")
  let version := jsonInteger json (ascii "protocol")
  let port := jsonInteger json (ascii "videoPort")
  let videoPeer := { peer with port := kVideoPort }
  let (canResume, codeMatches) ← session fun e server =>
    ((decide (type = some (ascii "resume") ∧ requestedSession = some (lowerHex server.sessionId) ∧
        server.paired ∧ server.resumePending ∧ e.now < server.resumeDeadline ∧
        peer.address = server.videoPeer.address),
      decide (type = some (ascii "pair") ∧ code = some server.pairingCode ∧ !server.paired)), server)
  if (¬ canResume ∧ ¬ codeMatches) ∨ version ≠ some kProtocolVersion ∨
      port ≠ some (kVideoPort.toNat : Int) then return
  if canResume then
    session fun _ server => ((), { server with resumePending := false, videoPeer := videoPeer })
    if !(← sendSession) then return
    let _ ← onGate (DataPlaneGate.openGate .control)
  else
    let random ← session fun e server =>
      (if e.answers.randomOk then some e.answers.random else none,
        { server with sessionId := e.answers.random })
    match random with
    | none => return
    | some bytes =>
      let shortId := (readBig (bytes.take 4).reverse).toUInt32
      session fun _ server => ((), { server with
        paired := true, resumePending := false
        sessionShort := if shortId = 0 then 1 else shortId
        videoPeer := videoPeer })
      if !(← sendSession) then return
      let _ ← onGate (DataPlaneGate.openGate .control)

/-- `RunIfAllowed` with the `sendto` of `SendVideoFrame`. -/
def sendIfAllowed (token : UInt64) (frame : PipeFrame) (peer : Peer) (packet : Bytes) :
    HostProgram Bool := do
  onGate (DataPlaneGate.lockSendMutex .pipe)
  if !(← onGate (DataPlaneGate.load DataPlaneGate.allowed)) then
    onGate DataPlaneGate.unlockSendMutex
    return false
  if (← onGate (DataPlaneGate.load DataPlaneGate.epoch)) ≠ token then
    onGate DataPlaneGate.unlockSendMutex
    return false
  .critical fun _ s => ((), { s with
    gate := { s.gate with log := s.gate.log ++ [.acted token] }
    sent := s.sent ++ [⟨frame, peer, packet, s.server, s.gate.log⟩] })
  onGate DataPlaneGate.unlockSendMutex
  return true

/-- The loop of `SendVideoFrame`; behind it, the gate is asked whether to record the frame. -/
def sendFragments (token : UInt64) (frame : PipeFrame) (peer : Peer) : List Bytes → HostProgram Unit
  | [] => do
    let _ ← onGate (DataPlaneGate.canSend token)
  | packet :: packets => do
    if !(← sendIfAllowed token frame peer packet) then return
    sendFragments token frame peer packets

def sendVideoFrame (frame : PipeFrame) : HostProgram Unit := do
  match ← onGate DataPlaneGate.capture with
  | none => return
  | some token =>
    let server ← .critical fun _ s => (s.server, s)
    if !server.paired ∨ server.sessionShort = 0 then return
    let packets := videoDatagrams frame server.sessionShort
    if packets = [] then return
    sendFragments token frame server.videoPeer packets

/-- What the threads are given to do, in any order: the control thread meets its rounds, the frames
of its connections, the Wi-Fi gate and the ends of connections; the pipe thread meets frames. -/
inductive Job where
  | round
  | frame (json : Bytes) (peer : Peer)
  | wifiNotAllowed
  | disconnected
  | video (frame : PipeFrame)
  deriving DecidableEq, Repr

def spawn : Worker → Job → HostProgram Unit
  | .control, .round => expireResumeWindow
  | .control, .frame json peer => authenticate json peer
  | .control, .wifiNotAllowed => clearSession
  | .control, .disconnected => markDisconnected
  | .pipe, .video frame => sendVideoFrame frame
  | _, _ => return

/-- `Start` has drawn a pairing code. -/
def start (random : Option UInt32) : HostPlane :=
  { server := ({} : HostServer).rotatePairingCode random }

end HostPlane

end HarmonyScreen.Host
