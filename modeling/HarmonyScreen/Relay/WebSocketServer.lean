import HarmonyScreen.Relay.LanVideo
import HarmonyScreen.Receiver.Upgrade
import HarmonyScreen.Receiver.WebSocket
import HarmonyScreen.Lib.Base64
import HarmonyScreen.Lib.SecureHash

namespace HarmonyScreen.Relay
open Lib Receiver Receiver.Protocol
open Receiver.WebSocket (unmask lower crlf findFirst)

def kMaxHandshakeBytes : Nat := 16 * 1024
def kMaxWebSocketMessageBytes : Nat := kLocalVideoHeaderSize + kMaxVideoPayloadBytes

structure WebSocketFrame where
  final : Bool
  opcode : UInt8
  payload : Bytes
  deriving DecidableEq, Repr

/-- What `ReceiveExact` fills, and what the client sends behind it. -/
def receiveExact (count : Nat) (stream : Bytes) : Except String (Bytes × Bytes) :=
  if stream.length < count then .error "WebSocket connection closed"
  else .ok (stream.take count, stream.drop count)

/-- The payload length of `ReceiveFrame`, extended or not. -/
def receiveLength (code : UInt8) (stream : Bytes) : Except String (Nat × Bytes) :=
  if code = 126 then do
    let (extended, stream) ← receiveExact 2 stream
    return (readBig extended, stream)
  else if code = 127 then do
    let (extended, stream) ← receiveExact 8 stream
    if extended.getD 0 0 &&& 0x80 ≠ 0 then throw "invalid WebSocket 64-bit length"
    return (readBig extended, stream)
  else return (code.toNat, stream)

def receiveFrame (stream : Bytes) : Except String (WebSocketFrame × Bytes) := do
  let (header, stream) ← receiveExact 2 stream
  let final := header.getD 0 0 &&& 0x80 != 0
  let reserved := header.getD 0 0 &&& 0x70
  let opcode := header.getD 0 0 &&& 0x0f
  let masked := header.getD 1 0 &&& 0x80 != 0
  if reserved ≠ 0 ∨ !masked then throw "unsupported WebSocket frame flags"
  if opcode ≠ 0x0 ∧ opcode ≠ 0x1 ∧ opcode ≠ 0x2 ∧ opcode ≠ 0x8 ∧ opcode ≠ 0x9 ∧ opcode ≠ 0xA then
    throw "unsupported WebSocket opcode"
  let (payloadLength, stream) ← receiveLength (header.getD 1 0 &&& 0x7f) stream
  if payloadLength > kMaxWebSocketMessageBytes then throw "WebSocket message exceeds local limit"
  if opcode ≥ 0x8 ∧ payloadLength > 125 then throw "WebSocket control frame is too large"
  if opcode ≥ 0x8 ∧ !final then throw "WebSocket control frame is fragmented"
  let (mask, stream) ← receiveExact 4 stream
  let (payload, stream) ← receiveExact payloadLength stream
  return (⟨final, opcode, unmask mask payload⟩, stream)

theorem bind_ok {α β : Type} {x : Except String α} {f : α → Except String β} {b : β}
    (h : x >>= f = .ok b) : ∃ a, x = .ok a ∧ f a = .ok b := by
  cases x with
  | error message => cases h
  | ok a => exact ⟨a, rfl, h⟩

theorem guard_ok {α : Type} {p : Prop} [Decidable p] {message : String} {x : Except String α} {a : α}
    (h : (if p then throw message else x) = .ok a) : ¬ p ∧ x = .ok a := by
  split at h
  · cases h
  · exact ⟨‹_›, h⟩

theorem receiveExact_ok {count : Nat} {stream bytes rest : Bytes}
    (h : receiveExact count stream = .ok (bytes, rest)) :
    bytes.length = count ∧ stream = bytes ++ rest := by
  unfold receiveExact at h
  split at h
  · cases h
  · cases h
    exact ⟨by rw [List.length_take]; omega, (List.take_append_drop _ _).symm⟩

theorem receiveLength_le {code : UInt8} {stream rest : Bytes} {length : Nat}
    (h : receiveLength code stream = .ok (length, rest)) : rest.length ≤ stream.length := by
  unfold receiveLength at h
  split at h
  · obtain ⟨⟨extended, left⟩, hextended, hrest⟩ := bind_ok h
    cases hrest
    simp [(receiveExact_ok hextended).2]
  · split at h
    · obtain ⟨⟨extended, left⟩, hextended, hrest⟩ := bind_ok h
      obtain ⟨-, hrest⟩ := guard_ok hrest
      cases hrest
      simp [(receiveExact_ok hextended).2]
    · cases h
      exact Nat.le_refl _

/-- A frame takes its mask at least. -/
theorem receiveFrame_shrinks {stream rest : Bytes} {frame : WebSocketFrame}
    (h : receiveFrame stream = .ok (frame, rest)) : rest.length < stream.length := by
  obtain ⟨⟨header, behind⟩, hheader, h⟩ := bind_ok h
  obtain ⟨-, h⟩ := guard_ok h
  obtain ⟨-, h⟩ := guard_ok h
  obtain ⟨⟨payloadLength, body⟩, hlength, h⟩ := bind_ok h
  obtain ⟨-, h⟩ := guard_ok h
  obtain ⟨-, h⟩ := guard_ok h
  obtain ⟨-, h⟩ := guard_ok h
  obtain ⟨⟨mask, masked⟩, hmask, h⟩ := bind_ok h
  obtain ⟨⟨payload, left⟩, hpayload, h⟩ := bind_ok h
  cases h
  have hshorter := receiveLength_le hlength
  obtain ⟨hfour, rfl⟩ := receiveExact_ok hmask
  obtain ⟨-, rfl⟩ := receiveExact_ok hpayload
  obtain ⟨-, rfl⟩ := receiveExact_ok hheader
  simp only [List.length_append] at *
  omega

/-- The client's socket: what the client will still have sent when its connection ends, and the
history of what was sent to it. -/
structure ClientSocket where
  stream : Bytes
  sends : Nat := 0
  sent : List Bytes := []
  deriving DecidableEq, Repr

namespace ClientSocket

/-- `SendAll`; `accepts` says which of the calls go through. -/
def sendAll (accepts : Nat → Bool) (data : Bytes) (socket : ClientSocket) : Bool × ClientSocket :=
  if accepts socket.sends then
    (true, { socket with sends := socket.sends + 1, sent := socket.sent ++ [data] })
  else (false, { socket with sends := socket.sends + 1 })

/-- The bytes of `SendFrame`. -/
def frameBytes (opcode : UInt8) (payload : Bytes) : Bytes :=
  (0x80 ||| opcode) ::
    (if payload.length ≤ 125 then [payload.length.toUInt8]
    else if payload.length ≤ 0xffff then 126 :: bigEndian 2 payload.length
    else 127 :: bigEndian 8 payload.length) ++ payload

def sendFrame (accepts : Nat → Bool) (opcode : UInt8) (payload : Bytes) (socket : ClientSocket) :
    Bool × ClientSocket :=
  socket.sendAll accepts (frameBytes opcode payload)

theorem sendFrame_stream (accepts : Nat → Bool) (opcode : UInt8) (payload : Bytes)
    (socket : ClientSocket) : (socket.sendFrame accepts opcode payload).2.stream = socket.stream := by
  unfold sendFrame sendAll
  split <;> rfl

/-- The loop of `ReceiveMessage`, with the message as far as it has come. -/
def receiveMessage (accepts : Nat → Bool) (messageOpcode : UInt8) (messagePayload : Bytes)
    (socket : ClientSocket) : Except String WebSocketFrame × ClientSocket :=
  match _h : receiveFrame socket.stream with
  | .error message => (.error message, socket)
  | .ok (frame, stream) =>
    let socket := { socket with stream := stream }
    if frame.opcode = 0x8 then (.ok frame, socket)
    else if frame.opcode = 0x9 then
      let pong := socket.sendFrame accepts 0xA frame.payload
      if pong.1 then receiveMessage accepts messageOpcode messagePayload pong.2
      else (.error "WebSocket send failed", pong.2)
    else if frame.opcode = 0xA then receiveMessage accepts messageOpcode messagePayload socket
    else if frame.opcode = 0x0 ∧ messageOpcode = 0 then
      (.error "WebSocket continuation has no initial frame", socket)
    else if frame.opcode ≠ 0x0 ∧ messageOpcode ≠ 0 then
      (.error "WebSocket data frame interrupted a fragmented message", socket)
    else
      let messageOpcode := if frame.opcode = 0x0 then messageOpcode else frame.opcode
      if frame.payload.length > kMaxWebSocketMessageBytes - messagePayload.length then
        (.error "fragmented WebSocket message exceeds local limit", socket)
      else
        let messagePayload := messagePayload ++ frame.payload
        if frame.final then (.ok ⟨true, messageOpcode, messagePayload⟩, socket)
        else receiveMessage accepts messageOpcode messagePayload socket
termination_by socket.stream.length
decreasing_by
  · exact (congrArg List.length (sendFrame_stream _ _ _ _)).trans_lt (receiveFrame_shrinks _h)
  · exact receiveFrame_shrinks _h
  · exact receiveFrame_shrinks _h

theorem receiveMessage_shrinks {accepts : Nat → Bool} {messageOpcode : UInt8} {messagePayload : Bytes}
    {socket socket' : ClientSocket} {frame : WebSocketFrame}
    (h : receiveMessage accepts messageOpcode messagePayload socket = (.ok frame, socket')) :
    socket'.stream.length < socket.stream.length := by
  fun_induction receiveMessage accepts messageOpcode messagePayload socket with
  | case1 | case4 | case6 | case7 | case8 => cases h
  | case2 _ _ _ _ _ hframe | case9 _ _ _ _ _ hframe =>
    obtain ⟨-, rfl⟩ := Prod.mk.inj h
    exact receiveFrame_shrinks hframe
  | case3 _ _ _ _ _ hframe _ _ _ _ _ ih =>
    refine (ih h).trans ?_
    rw [sendFrame_stream]
    exact receiveFrame_shrinks hframe
  | case5 _ _ _ _ _ hframe _ _ _ _ ih | case10 _ _ _ _ _ hframe _ _ _ _ _ _ _ _ _ _ ih =>
    exact (ih h).trans (receiveFrame_shrinks hframe)

end ClientSocket

section Handshake

/-- `std::isspace` of the C locale. -/
def isSpace (c : UInt8) : Bool := c = 0x20 ∨ (0x09 ≤ c ∧ c ≤ 0x0d)

def trim (value : Bytes) : Bytes := ((value.dropWhile isSpace).reverse.dropWhile isSpace).reverse

/-- The request, and what has arrived behind the last `recv`; `arrivals` is what the calls of `recv`
give one after another. What the last of them gave beyond the request stays in it. -/
def receiveHandshake (request : Bytes) (arrivals : List Bytes) : Except String (Bytes × List Bytes) :=
  if (findFirst (crlf ++ crlf) request).isSome then .ok (request, arrivals)
  else
    match arrivals with
    | [] | [] :: _ => .error "WebSocket handshake connection closed"
    | received :: arrivals =>
      if (request ++ received).length > kMaxHandshakeBytes then
        .error "WebSocket handshake exceeds 16 KiB"
      else receiveHandshake (request ++ received) arrivals

theorem line_shrinks {request : Bytes} {stop : Nat} (h : findFirst crlf request = some stop) :
    (request.drop (stop + 2)).length < request.length := by
  cases request with
  | nil => cases h
  | cons b request =>
    rw [List.length_drop, List.length_cons]
    omega

/-- The loop of `ParseHeaders` from a cursor on: the request line, once there is one, and the map
of the headers. -/
def parseHeaders (requestLine : Option Bytes) (headers : List (Bytes × Bytes)) (request : Bytes) :
    Except String (Option Bytes × List (Bytes × Bytes)) :=
  match _h : findFirst crlf request with
  | none => .ok (requestLine, headers)
  | some stop =>
    let line := request.take stop
    if line = [] then .ok (requestLine, headers)
    else if requestLine = none then parseHeaders (some line) headers (request.drop (stop + 2))
    else
      match findFirst [0x3a] line with
      | none => .error "malformed WebSocket header"
      | some separator =>
        let name := lower (trim (line.take separator))
        let value := trim (line.drop (separator + 1))
        if name = [] ∨ headers.any (fun header => header.1 == name) then
          .error "duplicate or empty WebSocket header"
        else parseHeaders requestLine (headers ++ [(name, value)]) (request.drop (stop + 2))
termination_by request.length
decreasing_by
  · exact line_shrinks _h
  · exact line_shrinks _h

def kWebSocketGuid : Bytes := ascii "258EAFA5-E914-47DA-95CA-C5AB0DC85B11"

/-- SHA-1 and Base64 are the system's. -/
def createWebSocketAccept (clientKey : Bytes) : Bytes :=
  Base64.encode (SecureHash.sha1.digest (clientKey ++ kWebSocketGuid))

def requireHeader (headers : List (Bytes × Bytes)) (name : Bytes) : Except String Bytes :=
  match headers.find? fun header => header.1 == name with
  | none => .error "required WebSocket header is missing"
  | some header => .ok header.2

/-- `PerformHandshake` up to its answer; beside it, what the connection still holds. -/
def performHandshake (expectedOrigin : Bytes) (arrivals : List Bytes) :
    Except String (Bytes × List Bytes) := do
  let (request, arrivals) ← receiveHandshake [] arrivals
  let (requestLine, headers) ← parseHeaders none [] request
  if requestLine.getD [] ≠ ascii "GET /capture HTTP/1.1" then
    throw "unexpected WebSocket request target"
  let upgrade ← requireHeader headers (ascii "upgrade")
  if lower upgrade ≠ ascii "websocket" then throw "WebSocket handshake policy rejected"
  let connection ← requireHeader headers (ascii "connection")
  if findFirst (ascii "upgrade") (lower connection) = none then
    throw "WebSocket handshake policy rejected"
  let version ← requireHeader headers (ascii "sec-websocket-version")
  if version ≠ ascii "13" then throw "WebSocket handshake policy rejected"
  let origin ← requireHeader headers (ascii "origin")
  if origin ≠ expectedOrigin then throw "WebSocket handshake policy rejected"
  let key ← requireHeader headers (ascii "sec-websocket-key")
  return (ascii "HTTP/1.1 101 Switching Protocols\r\n" ++ (ascii "Upgrade: websocket\r\n" ++
    (ascii "Connection: Upgrade\r\n" ++ (ascii "Sec-WebSocket-Accept: " ++
    (createWebSocketAccept key ++ (crlf ++ crlf))))), arrivals)

end Handshake

def isExpectedAuthMessage (message token : Bytes) : Bool :=
  message == ascii "\x7b\"type\":\"auth\",\"token\":\"" ++ (token ++ ascii "\"\x7d")

def escapeJson (value : Bytes) : Bytes :=
  value.flatMap fun c =>
    if c = 0x5c then [0x5c, 0x5c]
    else if c = 0x22 then [0x5c, 0x22]
    else if c = 0x0d then [0x5c, 0x72]
    else if c = 0x0a then [0x5c, 0x6e]
    else if c = 0x09 then [0x5c, 0x74]
    else if c ≥ 0x20 then [c]
    else []

/-- What the clock and the other threads bring to a round of `RunClient`. -/
structure Turn where
  stopping : Bool := false
  /-- What became of the LAN sender since the last round; only the client's thread gives it video. -/
  meanwhile : LanSender → LanSender := id
  send : Nat → Bytes → Int
  keyframeRequested : Bool := false
  telemetryDue : Bool := false
  receiverDecoded : UInt64 := 0
  receiverDropped : UInt64 := 0

/-- All that the client's thread learns from outside. -/
structure World where
  accepts : Nat → Bool
  turns : Nat → Turn

structure RelayClient where
  socket : ClientSocket
  authenticated : Bool := false
  counters : VideoCounters := {}
  sender : LanSender
  deriving DecidableEq, Repr

/-- How a part of `RunClient` ended. -/
inductive Ending where
  | returned
  | thrown (message : String)
  deriving DecidableEq, Repr

namespace RelayClient

def sendFrame (accepts : Nat → Bool) (opcode : UInt8) (payload : Bytes) (c : RelayClient) :
    Bool × RelayClient :=
  let (sent, socket) := c.socket.sendFrame accepts opcode payload
  (sent, { c with socket := socket })

def sendText (accepts : Nat → Bool) (text : Bytes) (c : RelayClient) : Bool × RelayClient :=
  c.sendFrame accepts 0x1 text

def keyframeText : Bytes :=
  ascii "\x7b\"type\":\"keyframe\",\"reason\":\"loss_flush_or_session_start\"," ++
    ascii "\"requireCodecConfig\":true\x7d"

/-- The text of `send_telemetry`. -/
def telemetryText (t : Turn) (c : RelayClient) : Bytes :=
  ascii "\x7b\"type\":\"telemetry\",\"receivedFrames\":" ++ (decimal c.counters.receivedFrames.toNat ++
    (ascii ",\"receivedBytes\":" ++ (decimal c.counters.receivedBytes.toNat ++
    (ascii ",\"keyFrames\":" ++ (decimal c.counters.keyFrames.toNat ++
    (ascii ",\"invalidMessages\":" ++ (decimal c.counters.invalidMessages.toNat ++
    (ascii ",\"lanConnected\":" ++ (ascii (if c.sender.connected then "true" else "false") ++
    (ascii ",\"lanSentFrames\":" ++ (decimal c.sender.sentFrames.toNat ++
    (ascii ",\"lanSentBytes\":" ++ (decimal c.sender.sentBytes.toNat ++
    (ascii ",\"lanSentDatagrams\":" ++ (decimal c.sender.sentDatagrams.toNat ++
    (ascii ",\"lanSendErrors\":" ++ (decimal c.sender.sendErrors.toNat ++
    (ascii ",\"receiverDecodedFrames\":" ++ (decimal t.receiverDecoded.toNat ++
    (ascii ",\"receiverDroppedFrames\":" ++ (decimal t.receiverDropped.toNat ++
    ascii "\x7d")))))))))))))))))))))

/-- Sends are followed by `next` when they go through. -/
def thenIf (sent : Bool × RelayClient) (next : RelayClient → Option Ending × RelayClient) :
    Option Ending × RelayClient :=
  if sent.1 then next sent.2 else (some (.thrown "WebSocket send failed"), sent.2)

/-- The part of a round behind `ReceiveMessage`; `none` where the loop goes on. -/
def onMessage (accepts : Nat → Bool) (t : Turn) (frame : WebSocketFrame) (c : RelayClient) :
    Option Ending × RelayClient :=
  if frame.opcode = 0x8 then
    thenIf (c.sendFrame accepts 0x8 frame.payload) fun c => (some .returned, c)
  else if frame.opcode = 0x1 then
    if frame.payload = ascii "\x7b\"type\":\"stats\"\x7d" then
      thenIf (c.sendText accepts (c.telemetryText t)) fun c => (none, c)
    else if frame.payload = ascii "\x7b\"type\":\"close\"\x7d" then
      thenIf (c.sendText accepts (c.telemetryText t)) fun c =>
        thenIf (c.sendFrame accepts 0x8 []) fun c => (some .returned, c)
    else
      (some (.thrown "unexpected local control message"), { c with
        counters := { c.counters with invalidMessages := c.counters.invalidMessages + 1 } })
  else if frame.opcode ≠ 0x2 then
    (some (.thrown "unexpected local WebSocket message type"), { c with
      counters := { c.counters with invalidMessages := c.counters.invalidMessages + 1 } })
  else
    let (result, counters, sender) := runVideoMessage t.send frame.payload c.counters c.sender
    let c := { c with counters := counters, sender := sender }
    match result with
    | .error message => (some (.thrown message), c)
    | .ok () =>
      let due (c : RelayClient) : Option Ending × RelayClient :=
        if t.telemetryDue then
          thenIf (c.sendText accepts (c.telemetryText t)) fun c => (none, c)
        else (none, c)
      if t.keyframeRequested then thenIf (c.sendText accepts keyframeText) due else due c

theorem sendFrame_stream (accepts : Nat → Bool) (opcode : UInt8) (payload : Bytes) (c : RelayClient) :
    (c.sendFrame accepts opcode payload).2.socket.stream = c.socket.stream :=
  ClientSocket.sendFrame_stream accepts opcode payload c.socket

/-- What each part of a chain of sends keeps, the chain keeps. -/
theorem thenIf_keeps {α : Type} (part : RelayClient → α) {sent : Bool × RelayClient}
    {next : RelayClient → Option Ending × RelayClient} (h : ∀ c, part (next c).2 = part c) :
    part (thenIf sent next).2 = part sent.2 := by
  unfold thenIf
  split
  · exact h sent.2
  · rfl

def stream (c : RelayClient) : Bytes := c.socket.stream

theorem onMessage_stream (accepts : Nat → Bool) (t : Turn) (frame : WebSocketFrame) (c : RelayClient) :
    (onMessage accepts t frame c).2.socket.stream = c.socket.stream := by
  have hsend (opcode : UInt8) (payload : Bytes) (ending : Option Ending) (c : RelayClient) :
      (thenIf (c.sendFrame accepts opcode payload) fun c => (ending, c)).2.socket.stream =
        c.socket.stream :=
    (thenIf_keeps stream fun _ => rfl).trans (sendFrame_stream _ _ _ _)
  unfold onMessage
  split
  · exact hsend _ _ _ _
  · split
    · split
      · exact hsend _ _ _ _
      · split
        · exact (thenIf_keeps stream fun c => hsend _ _ _ c).trans (sendFrame_stream _ _ _ _)
        · rfl
    · split
      · rfl
      · dsimp only
        split
        · rfl
        · have hdue (c : RelayClient) : (if t.telemetryDue = true then
              thenIf (c.sendText accepts (c.telemetryText t)) fun c => (none, c)
              else (none, c)).2.socket.stream = c.socket.stream := by
            split
            · exact hsend _ _ _ c
            · rfl
          split
          · exact (thenIf_keeps stream hdue).trans (sendFrame_stream _ _ _ _)
          · exact hdue _

/-- The client's thread once it has its next message. -/
def received (t : Turn) (socket : ClientSocket) (c : RelayClient) : RelayClient :=
  { c with socket := socket, sender := { t.meanwhile c.sender with taken := c.sender.taken } }

/-- The loop of `RunClient`. -/
def serve (w : World) (turn : Nat) (c : RelayClient) : Ending × RelayClient :=
  let t := w.turns turn
  if t.stopping then (.returned, c)
  else
    match _h : c.socket.receiveMessage w.accepts 0 [] with
    | (.error message, socket) => (.thrown message, { c with socket := socket })
    | (.ok frame, socket) =>
      match _next : onMessage w.accepts t frame (c.received t socket) with
      | (some ending, c) => (ending, c)
      | (none, c) => serve w (turn + 1) c
termination_by c.socket.stream.length
decreasing_by
  exact (congrArg (fun r => r.2.socket.stream.length) _next).symm.trans
    (congrArg List.length (onMessage_stream _ _ _ _)) |>.trans_lt
    (ClientSocket.receiveMessage_shrinks _h)

/-- `RunClient` between the authentication and its loop. -/
def greet (w : World) (c : RelayClient) : Option Ending × RelayClient :=
  thenIf (c.sendText w.accepts (ascii "\x7b\"type\":\"ready\",\"protocol\":1\x7d")) fun c =>
    if (w.turns 0).keyframeRequested then
      thenIf (c.sendText w.accepts keyframeText) fun c => (none, c)
    else (none, c)

/-- `RunClient` on a connection whose calls of `recv` give `arrivals` one after another; `turn` 0 is
its part up to the loop. -/
def runClient (w : World) (expectedOrigin token : Bytes) (arrivals : List Bytes)
    (sender : LanSender) : Ending × RelayClient :=
  match performHandshake expectedOrigin arrivals with
  | .error message => (.thrown message, { socket := { stream := arrivals.flatten }, sender := sender })
  | .ok (response, arrivals) =>
    let c : RelayClient := { socket := { stream := arrivals.flatten }, sender := sender }
    let (sent, socket) := c.socket.sendAll w.accepts response
    if !sent then (.thrown "WebSocket send failed", { c with socket := socket })
    else
      match socket.receiveMessage w.accepts 0 [] with
      | (.error message, socket) => (.thrown message, { c with socket := socket })
      | (.ok authentication, socket) =>
        let c := { c with socket := socket }
        if authentication.opcode ≠ 0x1 ∨ !isExpectedAuthMessage authentication.payload token then
          (.thrown "local bridge authentication failed", c)
        else
          match greet w { c with authenticated := true } with
          | (some ending, c) => (ending, c)
          | (none, c) => serve w 1 c

/-- The rest of `Run`: an error is told to an authenticated client. -/
def run (w : World) (expectedOrigin token : Bytes) (arrivals : List Bytes) (sender : LanSender)
    (stopping : Bool) : RelayClient :=
  match runClient w expectedOrigin token arrivals sender with
  | (.thrown message, c) =>
    let c :=
      if c.authenticated ∧ !stopping then
        let (sent, c) := c.sendText w.accepts
          (ascii "\x7b\"type\":\"error\",\"code\":\"local_protocol_rejected\"," ++
            (ascii "\"detail\":\"" ++ (escapeJson (ascii message) ++ ascii "\"\x7d")))
        if sent then (c.sendFrame w.accepts 0x8 []).2 else c
      else c
    { c with authenticated := false }
  | (.returned, c) => { c with authenticated := false }

end RelayClient

end HarmonyScreen.Relay
