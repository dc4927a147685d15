import HarmonyScreen.Host.HssProtocol

namespace HarmonyScreen.Host
open Receiver Protocol

def kProtocolVersion : Int := 1
def kVideoPort : UInt16 := 47101

/-- `sockaddr_in`, without its family. -/
structure Peer where
  address : UInt32 := 0
  port : UInt16 := 0
  deriving DecidableEq, Repr

/-- The session state of the host. Times are nanoseconds of the steady clock. -/
structure HostServer where
  pairingCode : Bytes := []
  paired : Bool := false
  resumePending : Bool := false
  resumeDeadline : Nat := 0
  sessionId : Bytes := List.replicate 16 0
  sessionShort : UInt32 := 0
  videoPeer : Peer := {}
  /-- What the calls of `Open` and `Revoke` leave of the data plane gate. -/
  dataPlaneOpen : Bool := false
  deriving DecidableEq, Repr

def seconds (count : Nat) : Nat := count * 1000000000

namespace HostServer

/-- `random` is none when the random generator fails. -/
def rotatePairingCode (random : Option UInt32) (s : HostServer) : HostServer :=
  match random with
  | none => { s with pairingCode := ascii "------" }
  | some value =>
    { s with pairingCode := decimal (100000 + value.toNat % 900000), paired := false }

def clearSession (random : Option UInt32) (s : HostServer) : HostServer :=
  rotatePairingCode random { s with
    dataPlaneOpen := false, paired := false, resumePending := false, sessionShort := 0
    videoPeer := {} }

def markDisconnected (now : Nat) (s : HostServer) : HostServer :=
  if s.paired then { s with resumePending := true, resumeDeadline := now + seconds 5 } else s

def expireResumeWindow (now : Nat) (random : Option UInt32) (s : HostServer) : HostServer :=
  if s.resumePending ∧ now ≥ s.resumeDeadline then s.clearSession random else s

end HostServer

/-- A connection in `HandleClient`. -/
structure HostClient where
  peer : Peer
  lastMessage : Nat
  decoder : ControlFrameDecoder := {}
  /-- The frames of the last receive that are still to be handled. -/
  frames : List Bytes := []
  authenticated : Bool := false
  /-- `HandleClient` has returned. -/
  returned : Bool := false
  deriving DecidableEq, Repr

/-- What happens to the sessions. -/
inductive SessionEvent where
  | paired
  | resumed (now : Nat)
  | ended (now : Nat) (authenticated : Bool)
  deriving DecidableEq, Repr

/-- What a frame's handling learns: whether the generator filled the session identifier, the
bytes it left there, and whether the answer could be sent. -/
structure FrameAnswers where
  randomOk : Bool := true
  random : Bytes := []
  sent : Bool := true
  deriving DecidableEq, Repr

/-- The control thread: it serves one connection at a time. -/
structure ControlLoop where
  server : HostServer
  client : Option HostClient := none
  now : Nat := 0
  log : List SessionEvent := []
  deriving DecidableEq, Repr

namespace ControlLoop

/-- The first frame of a connection decides whether it is let in; the texts that are sent back
are left out. -/
def authenticate (json : Bytes) (now : Nat) (answers : FrameAnswers) (client : HostClient)
    (s : HostServer) : HostClient × HostServer × List SessionEvent :=
  let type := jsonString json (ascii "type")
  let code := jsonString json (ascii "pairingCode")
  let requestedSession := jsonString json (ascii "sessionId")
  let version := jsonInteger json (ascii "protocol")
  let port := jsonInteger json (ascii "videoPort")
  let canResume := type = some (ascii "resume") ∧ requestedSession = some (lowerHex s.sessionId) ∧
    s.paired ∧ s.resumePending ∧ now < s.resumeDeadline ∧ client.peer.address = s.videoPeer.address
  let codeMatches := type = some (ascii "pair") ∧ code = some s.pairingCode ∧ !s.paired
  let videoPeer := { client.peer with port := kVideoPort }
  if (¬ canResume ∧ ¬ codeMatches) ∨ version ≠ some kProtocolVersion ∨
      port ≠ some (kVideoPort.toNat : Int) then
    ({ client with returned := true }, s, [])
  else if canResume then
    let s := { s with resumePending := false, videoPeer := videoPeer }
    if !answers.sent then ({ client with returned := true }, s, [.resumed now])
    else
      ({ client with authenticated := true }, { s with dataPlaneOpen := true }, [.resumed now])
  else
    let s := { s with sessionId := answers.random }
    if !answers.randomOk then ({ client with returned := true }, s, [])
    else
      let shortId := (readBig (answers.random.take 4).reverse).toUInt32
      let s := { s with
        paired := true, resumePending := false
        sessionShort := if shortId = 0 then 1 else shortId
        videoPeer := videoPeer }
      if !answers.sent then ({ client with returned := true }, s, [.paired])
      else ({ client with authenticated := true }, { s with dataPlaneOpen := true }, [.paired])

/-- Frames of an authenticated connection do not touch the session. -/
def handleFrame (json : Bytes) (now : Nat) (answers : FrameAnswers) (client : HostClient)
    (s : HostServer) : HostClient × HostServer × List SessionEvent :=
  if !client.authenticated then authenticate json now answers client s else (client, s, [])

/-- What the control thread meets. -/
inductive Event where
  /-- The start of a round of the loop, with `ExpireResumeWindow`. -/
  | round (random : Option UInt32)
  | accept (peer : Peer)
  /-- The Wi-Fi gate refuses the connection's address. -/
  | wifiNotAllowed (random : Option UInt32)
  | receive (bytes : Bytes)
  | receiveTimeout
  /-- The peer closed the connection, or receiving failed. -/
  | closed
  | frame (answers : FrameAnswers)
  /-- Behind `HandleClient`: the socket is closed, then `MarkDisconnected`. -/
  | disconnect
  deriving DecidableEq, Repr

/-- A round of `HandleClient` at its head, where no frame is left; nothing for the events that
cannot happen there. -/
def serve (now : Nat) (event : Event) (client : HostClient) (s : HostServer) :
    Option (HostClient × HostServer) :=
  match event with
  | .wifiNotAllowed random => some ({ client with returned := true }, s.clearSession random)
  | .receive bytes =>
    let pushed := client.decoder.push bytes
    let client := { client with lastMessage := now, decoder := pushed.decoder }
    if pushed.error.isSome then some ({ client with returned := true }, s)
    else some ({ client with frames := pushed.frames }, s)
  | .receiveTimeout =>
    if now - client.lastMessage > seconds 3 then some ({ client with returned := true }, s)
    else some (client, s)
  | .closed => some ({ client with returned := true }, s)
  | _ => none

/-- One step of the control thread; an event that cannot happen where it stands changes
nothing. -/
def step (now : Nat) (event : Event) (c : ControlLoop) : ControlLoop :=
  match c.client with
  | none =>
    match event with
    | .round random => { c with server := c.server.expireResumeWindow now random, now := now }
    | .accept peer => { c with client := some { peer := peer, lastMessage := now }, now := now }
    | _ => c
  | some client =>
    if client.returned then
      if event = .disconnect then
        { server := c.server.markDisconnected now, client := none, now := now
          log := c.log ++ [.ended now client.authenticated] }
      else c
    else
      match client.frames, event with
      | [], event =>
        match serve now event client c.server with
        | some (client, server) => { c with server := server, client := some client, now := now }
        | none => c
      | json :: frames, .frame answers =>
        let (client, server, log) :=
          handleFrame json now answers { client with frames := frames } c.server
        { server := server, client := some client, now := now, log := c.log ++ log }
      | _ :: _, _ => c

/-- What the loop starts with: `Start` has drawn a pairing code. -/
def start (random : Option UInt32) : ControlLoop :=
  { server := ({} : HostServer).rotatePairingCode random }

/-- The states that a run comes to whose steps all satisfy `ok`; time does not run back. -/
inductive Reaches (ok : Nat → Event → ControlLoop → Prop) (c₀ : ControlLoop) : ControlLoop → Prop where
  | refl : Reaches ok c₀ c₀
  | step (now : Nat) (event : Event) (reached : Reaches ok c₀ c) (later : c.now ≤ now)
      (h : ok now event c) : Reaches ok c₀ (c.step now event)

/-- The time at which the last authenticated connection of the session ended. -/
def lastEnded (log : List SessionEvent) : Option Nat :=
  log.foldl (fun
    | _, .paired => none
    | last, .resumed _ => last
    | last, .ended now authenticated => if authenticated then some now else last) none

end ControlLoop

end HarmonyScreen.Host
