import HarmonyScreen.Extension.TrustedDevice

namespace HarmonyScreen.Extension
open Receiver

/-- What `JSON.parse` gives; texts by their UTF-8. A number comes with what `String` writes for it. -/
inductive Value where
  | null
  | boolean (value : Bool)
  | number (value : Number) (text : Bytes)
  | string (value : Bytes)
  | array (items : List Value)
  | object (members : List (Bytes × Value))

namespace Value

/-- `value?.key`; nothing inherited has a name that is asked for. -/
def member (key : String) : Value → Option Value
  | object members => members.lookup (ascii key)
  | _ => none

mutual

/-- `String(value)`; an object whose `toString` is no function throws. -/
def text : Value → Option Bytes
  | null => some (ascii "null")
  | boolean value => some (ascii (if value then "true" else "false"))
  | number _ text => some text
  | string value => some value
  | array items => (joined items).map ([0x2c].intercalate ·)
  | object members =>
    if members.any (·.1 == ascii "toString") then none else some (ascii "[object Object]")

/-- The texts that `join` puts commas between. -/
def joined : List Value → Option (List Bytes)
  | [] => some []
  | null :: items => (joined items).map ([] :: ·)
  | item :: items =>
    match text item, joined items with
    | some text, some texts => some (text :: texts)
    | _, _ => none

end

/-- `String(value ?? default)` -/
def textOr (default : String) : Option Value → Option Bytes
  | none | some null => some (ascii default)
  | some value => value.text

/-- `value.key === expected` -/
def isText (value : Value) (key : String) (expected : Bytes) : Bool :=
  match value.member key with
  | some (string text) => text == expected
  | _ => false

theorem isText_unique {message : Value} {key : String} {a b : Bytes}
    (ha : message.isText key a = true) (hb : message.isText key b = true) : a = b := by
  unfold Value.isText at ha hb
  split at ha
  · rename_i text htext
    rw [htext] at hb
    exact (beq_iff_eq.mp ha).symm.trans (beq_iff_eq.mp hb)
  · cases ha

/-- `value.key === expected` -/
def isNumber (value : Value) (key : String) (expected : Number) : Bool :=
  match value.member key, expected with
  | some (number (.integer n) _), .integer m => n == m
  | _, _ => false

/-- `===` -/
def strictEquals : Option Value → Option Value → Bool
  | none, none | some null, some null => true
  | some (boolean a), some (boolean b) => a == b
  | some (number _ a), some (number _ b) => a == b
  | some (string a), some (string b) => a == b
  | _, _ => false

def ofNumber (n : Number) : Value := number n n.string

end Value

/-- What the script takes from the browser: `JSON.parse`, and the HMAC-SHA256 of Web Crypto. -/
structure Platform where
  parse : Bytes → Option Value
  hmac : (keyBytes message : Bytes) → Bytes

namespace DirectProtocol

def hexToBytes (value : Bytes) (byteCount : Nat) (message : String) : Except String Bytes :=
  if hexTest (byteCount * 2) value then
    .ok ((List.range byteCount).map fun index =>
      UInt8.ofNat (Protocol.readHex ((value.drop (index * 2)).take 2)))
  else .error message

def hmacSha256Hex (p : Platform) (keyBytes message : Bytes) : Bytes :=
  Protocol.lowerHex (p.hmac keyBytes message)

def computePairProof (p : Platform) (token : Bytes) (c : PairChallenge) : Except String Bytes := do
  let keyBytes ← hexToBytes token 32 "配对令牌格式无效"
  return hmacSha256Hex p keyBytes (← createPairProofMessage c)

def computeAuthProof (p : Platform) (credential : Bytes) (c : AuthChallenge) :
    Except String Bytes := do
  let keyBytes ← hexToBytes credential 32 "长期凭据格式无效"
  return hmacSha256Hex p keyBytes (← createAuthProofMessage c)

/-- `text.charCodeAt(index) || 0` -/
def charCodeAt (text : Bytes) (index : Nat) : Nat := (text.getD index 0).toNat

def constantTimeEqualProof (left right : Bytes) : Bool :=
  let difference := (List.range 64).foldl
    (fun difference index => difference ||| (charCodeAt left index ^^^ charCodeAt right index))
    (left.length ^^^ right.length)
  difference == 0 && hexTest 64 left

theorem charCodeAt_xor (left right : Bytes) (index : Nat) :
    charCodeAt left index ^^^ charCodeAt right index = 0 ↔
      left.getD index 0 = right.getD index 0 := by
  rw [Nat.xor_eq_zero_iff, charCodeAt, charCodeAt, UInt8.toNat_inj]

theorem constantTimeEqualProof_iff (left right : Bytes) :
    constantTimeEqualProof left right = true ↔ left = right ∧ hexTest 64 left = true := by
  simp only [constantTimeEqualProof, Bool.and_eq_true, beq_iff_eq, Protocol.foldl_or,
    charCodeAt_xor, List.mem_range]
  constructor
  · rintro ⟨⟨hlength, hsame⟩, htest⟩
    rw [Nat.xor_eq_zero_iff] at hlength
    have hsize : left.length = 64 := by
      simp only [hexTest, Bool.and_eq_true, beq_iff_eq] at htest
      exact htest.1
    refine ⟨List.ext_getElem hlength fun i hi hj => ?_, htest⟩
    have hat := hsame i (by omega)
    rwa [List.getD_eq_getElem _ _ hi, List.getD_eq_getElem _ _ hj] at hat
  · rintro ⟨rfl, htest⟩
    simpa using htest

end DirectProtocol

namespace DirectClient
open DirectProtocol VideoContract

def directMaxControlTextBytes : Nat := 2048

/-- An error that a promise is rejected with. -/
inductive Failure where
  /-- `ReceiverProtocolError`, with its code -/
  | protocol (code : Bytes)
  /-- `DirectConnectionError` -/
  | connection (code : String)
  /-- `ReceiverRecoveryCancelledError` -/
  | cancelled
  /-- Any other exception of the script. -/
  | script
  deriving DecidableEq

namespace Failure

/-- What the error says of itself, if anything. -/
def recoverable : Failure → Option Bool
  | protocol _ => some false
  | connection _ => some true
  | cancelled => some false
  | script => none

/-- `new ReceiverProtocolError(code)` -/
def receiver (code : String) : Failure := protocol (ascii code)

end Failure

/-- An object as it is handed to `JSON.stringify`. -/
abbrev Object := List (String × Value)

/-- The data of a `message` event; a text by its UTF-8. -/
inductive Data where
  | binary
  | text (value : Bytes)
  deriving DecidableEq

inductive Outcome where
  | resolved (value : Value)
  | rejected (failure : Failure)

inductive Stage where
  | opening
  | awaitingProof
  | verifyingProof
  | awaitingResult
  deriving DecidableEq, Repr

/-- What happened on the socket; nothing of the script reads it. -/
inductive Observation where
  | received (data : Data)
  | sent (request : Object)
  | settled

/-- What `openProofExchange` is called with. -/
structure Options where
  challenge : Object
  proofType : String
  expectedType : String
  /-- What `buildSecretRequest` comes to; `available` tells whether Web Crypto computes. -/
  buildSecretRequest : (available : Bool) → Value → Except Failure Object
  skipProof : Bool := false
  validateFinal : Value → Option Value → Except Failure Unit := fun _ _ => .ok ()
  connectionError : String

/-- The variables of one `openProofExchange`. -/
structure Exchange where
  stage : Stage := .opening
  /-- The listener for `open` runs once. -/
  opens : Bool := true
  proofMessage : Option Value := none
  /-- The message whose proof is being computed. -/
  verifying : Option Value := none
  outcome : Option Outcome := none
  /-- `socket.close` was called. -/
  closed : Bool := false
  log : List Observation := []

namespace Exchange

def note (x : Exchange) (o : Observation) : Exchange := { x with log := x.log ++ [o] }

def settled (x : Exchange) : Bool := x.outcome.isSome

/-- `finish`; the listeners and the timer are gone afterwards. -/
def finish (x : Exchange) (outcome : Outcome) : Exchange :=
  if x.settled then x else { x with outcome := some outcome, log := x.log ++ [.settled] }

def reject (x : Exchange) (failure : Failure) : Exchange := x.finish (.rejected failure)

def closeSocket (x : Exchange) : Exchange := { x with closed := true }

def send (x : Exchange) (request : Object) : Exchange := x.note (.sent request)

end Exchange

/-- What can happen next. `throws` tells whether `send` throws; `verified` is the end of the
computation that the handler of a message awaits. -/
inductive Event where
  | opened (throws : Bool)
  | message (data : Data)
  | error
  | closed
  | aborted
  | timedOut
  | verified (available throws : Bool)
  deriving DecidableEq

def handleOpen (r : Options) (x : Exchange) (throws : Bool) : Exchange :=
  if !x.opens then x
  else
    let x := { x with
      opens := false
      stage := if r.skipProof then .awaitingResult else .awaitingProof }
    if throws then (x.reject .script).closeSocket else x.send r.challenge

/-- A text has at least as many bytes as UTF-16 units. -/
def controlMessageExceedsLimit (value : Bytes) : Bool := value.length > directMaxControlTextBytes

/-- `new ReceiverProtocolError(message.code)`, unless the constructor throws. -/
def receiverError (message : Value) : Option Failure :=
  (Value.textOr "unknown" (message.member "code")).map fun code => .protocol (code.take 64)

/-- The handler of a message up to its `await`. -/
def handleMessage (p : Platform) (r : Options) (x : Exchange) (data : Data) :
    Exchange :=
  if x.stage ≠ .awaitingProof ∧ x.stage ≠ .awaitingResult then
    (x.reject (.receiver "unsolicited_response")).closeSocket
  else
    match data with
    | .binary => x.reject (.receiver "invalid_response")
    | .text value =>
      if controlMessageExceedsLimit value then
        (x.reject (.receiver "control_message_too_large")).closeSocket
      else
        match p.parse value with
        | none => x.reject (.receiver "invalid_response")
        | some message =>
          if message.isText "type" (ascii "error") then
            -- nobody waits for the promise of a handler that throws
            match receiverError message with
            | none => x
            | some failure => x.reject failure
          else if !message.isNumber "protocol" (.integer directProtocol) then
            x.reject (.receiver "protocol_mismatch")
          else if x.stage = .awaitingProof then
            if !message.isText "type" (ascii r.proofType) then
              (x.reject (.receiver "challenge_response_invalid")).closeSocket
            else
              { x with
                stage := .verifyingProof
                proofMessage := some message
                verifying := some message }
          else if !message.isText "type" (ascii r.expectedType) then
            x.reject (.receiver "protocol_mismatch")
          else
            match r.validateFinal message x.proofMessage with
            | .error failure => x.reject failure
            | .ok () => x.finish (.resolved message)

/-- The rest of the handler of a proof. -/
def handleVerified (r : Options) (x : Exchange) (message : Value) (available throws : Bool) :
    Exchange :=
  match r.buildSecretRequest available message with
  | .error failure => (x.reject failure).closeSocket
  | .ok secretRequest =>
    if x.settled then x
    else if throws then (x.reject .script).closeSocket
    else { x.send secretRequest with stage := .awaitingResult }

/-- One event of an `openProofExchange`. -/
def exchangeStep (p : Platform) (r : Options) (x : Exchange) : Event → Exchange
  | .verified available throws =>
    match x.verifying with
    | none => x
    | some message => handleVerified r { x with verifying := none } message available throws
  | event =>
    if x.settled then x
    else
      match event with
      | .opened throws => handleOpen r x throws
      | .message data => handleMessage p r (x.note (.received data)) data
      | .error => x.reject (.connection r.connectionError)
      | .closed => x.reject (.connection "receiver_closed")
      | .aborted => (x.reject .cancelled).closeSocket
      | .timedOut =>
        (x.reject (.receiver (if x.stage = .awaitingResult then "handshake_timeout"
          else "challenge_timeout"))).closeSocket
      | .verified _ _ => x

/-- A run of `openProofExchange`. -/
def Exchange.run (p : Platform) (r : Options) (events : List Event) : Exchange :=
  events.foldl (exchangeStep p r) {}

def connectionErrorForHost (host : Text) : String :=
  match normalizeReceiverHost host with
  | .ok host =>
    if host = defaultReceiverHost then "automatic_address_or_connection_failed"
    else "receiver_connection_failed"
  | .error _ => "receiver_connection_failed"

def string (value : String) : Value := .string (ascii value)

/-- An exception that the script throws by itself. -/
def scripted (result : Except String α) : Except Failure α := result.mapError fun _ => .script

section Pairing

/-- `proof.proof` and `proof.deviceId` as `test` reads them. -/
def testedText (proof : Value) (key : String) (test : Bytes → Bool) : Except Failure Bytes :=
  match Value.textOr "" (proof.member key) with
  | none => .error .script
  | some text => if test text then .ok text else .error (.receiver "challenge_response_invalid")

def pairChallenge (authorization : Authorization) (senderId nonce : Bytes) : Object :=
  [("type", string "pair_challenge"), ("protocol", .ofNumber (.integer directProtocol)),
    ("mode", string "pair"), ("sessionId", .string authorization.sessionId),
    ("senderId", .string senderId), ("nonce", .string nonce)]

def pairSecretRequest (authorization : Authorization) (senderId nonce : Bytes) : Object :=
  [("type", string "pair"), ("protocol", .ofNumber (.integer directProtocol)),
    ("mode", string "pair"), ("sessionId", .string authorization.sessionId),
    ("token", .string authorization.token), ("senderId", .string senderId),
    ("nonce", .string nonce)]

/-- `buildSecretRequest` of `pairReceiver`. -/
def buildPairRequest (p : Platform) (authorization : Authorization) (senderId nonce : Bytes)
    (available : Bool) (proof : Value) : Except Failure Object := do
  if !proof.isText "mode" (ascii "pair") ∨ !proof.isText "proofMode" (ascii "qr") ∨
      !proof.isText "sessionId" authorization.sessionId ∨ !proof.isText "senderId" senderId ∨
      !proof.isText "nonce" nonce then
    .error (.receiver "challenge_response_invalid")
  else
    let deviceId ← testedText proof "deviceId" (hexTest 32)
    let given ← testedText proof "proof" (hexTest 64)
    let expectedProof ← scripted (computePairProof p authorization.token
      ⟨ascii "qr", authorization.sessionId, senderId, nonce, deviceId⟩)
    if !available then .error .script
    else if !constantTimeEqualProof given expectedProof then
      .error (.receiver "challenge_proof_invalid")
    else .ok (pairSecretRequest authorization senderId nonce)

/-- The exchange of `pairReceiver` with the default host. -/
def pairOptions (p : Platform) (authorization : Authorization) (senderId nonce : Bytes) : Options where
  challenge := pairChallenge authorization senderId nonce
  proofType := "pair_proof"
  expectedType := "paired"
  buildSecretRequest := buildPairRequest p authorization senderId nonce
  validateFinal response proof :=
    if !Value.strictEquals (response.member "deviceId") (proof.bind (·.member "deviceId")) then
      .error (.receiver "challenge_response_invalid")
    else .ok ()
  connectionError := connectionErrorForHost defaultReceiverHost

def pairManualIpv4 (authorization : Authorization) (senderId : Bytes) : Object :=
  [("type", string "pair_manual_ipv4"), ("protocol", .ofNumber (.integer directProtocol)),
    ("mode", string "pair_manual_ipv4"), ("sessionId", .string authorization.sessionId),
    ("token", .string authorization.token), ("senderId", .string senderId)]

/-- The exchange of `pairReceiver` with a numeric host: the token goes with the first message. -/
def pairManualOptions (authorization : Authorization) (senderId : Bytes) (host : Text) : Options where
  challenge := pairManualIpv4 authorization senderId
  proofType := ""
  expectedType := "paired"
  buildSecretRequest _ _ := .error .script
  skipProof := true
  connectionError := connectionErrorForHost host

/-- The exchange that `pairReceiver` opens; `nonce` is used with the default host only. -/
def pairReceiverOptions (p : Platform) (host : Text) (authorization : Authorization)
    (senderId nonce : Bytes) : Options :=
  if host = defaultReceiverHost then pairOptions p authorization senderId nonce
  else pairManualOptions authorization senderId host

/-- The device of an answer, whose members are tested as texts. -/
def pairedDevice (senderId : Bytes) (host : Text) (now : Int) (response : Value) :
    Except String TrustedDevice :=
  validateTrustedDevice
    { senderId := some senderId
      deviceId := Value.textOr "" (response.member "deviceId")
      credential := Value.textOr "" (response.member "credential")
      host := some host
      pairedAt := some (.integer now) }

/-- What `pairReceiver` has come to after these events, if it has ended. -/
def pairReceiver (p : Platform) (host : Text) (authorization : Authorization)
    (senderId nonce : Bytes) (now : Int) (events : List Event) :
    Option (Except Failure TrustedDevice) :=
  match normalizeReceiverHost host with
  | .error _ => some (.error .script)
  | .ok host =>
    match (Exchange.run p (pairReceiverOptions p host authorization senderId nonce) events).outcome
    with
    | none => none
    | some (.rejected failure) => some (.error failure)
    | some (.resolved response) => some (scripted (pairedDevice senderId host now response))

end Pairing

section Authentication

/-- A `DirectReceiverConnection` as it was constructed. -/
structure DirectReceiverConnection where
  trustedDevice : TrustedDevice
  sourceEpoch : Int
  mediaContract : MediaContract
  hcontract : validateMediaContract mediaContract = .ok mediaContract

/-- The challenge's members that the proof is about. -/
def DirectReceiverConnection.challenge (c : DirectReceiverConnection) (nonce : Bytes) :
    AuthChallenge where
  senderId := c.trustedDevice.senderId
  deviceId := c.trustedDevice.deviceId
  sourceEpoch := .integer c.sourceEpoch
  nonce := nonce
  width := c.mediaContract.width
  height := c.mediaContract.height
  maxFps := c.mediaContract.maxFps

def authChallenge (c : AuthChallenge) : Object :=
  [("type", string "auth_challenge"), ("protocol", .ofNumber (.integer directProtocol)),
    ("mode", string "auth"), ("senderId", .string c.senderId), ("deviceId", .string c.deviceId),
    ("sourceEpoch", .ofNumber c.sourceEpoch), ("nonce", .string c.nonce),
    ("codec", .string c.codec), ("avcFormat", .string c.avcFormat), ("width", .ofNumber c.width),
    ("height", .ofNumber c.height), ("maxFps", .ofNumber c.maxFps)]

def authSecretRequest (credential : Bytes) (c : AuthChallenge) : Object :=
  [("type", string "auth"), ("protocol", .ofNumber (.integer directProtocol)),
    ("mode", string "auth"), ("senderId", .string c.senderId), ("deviceId", .string c.deviceId),
    ("credential", .string credential), ("sourceEpoch", .ofNumber c.sourceEpoch),
    ("nonce", .string c.nonce), ("codec", .string c.codec), ("avcFormat", .string c.avcFormat),
    ("width", .ofNumber c.width), ("height", .ofNumber c.height), ("maxFps", .ofNumber c.maxFps)]

/-- `buildSecretRequest` of `connect`. -/
def buildAuthRequest (p : Platform) (credential : Bytes) (c : AuthChallenge) (available : Bool)
    (proof : Value) : Except Failure Object := do
  if !proof.isText "mode" (ascii "auth") ∨ !proof.isText "senderId" c.senderId ∨
      !proof.isText "deviceId" c.deviceId ∨ !proof.isNumber "sourceEpoch" c.sourceEpoch ∨
      !proof.isText "nonce" c.nonce ∨ !isProofNonce c.nonce then
    .error (.receiver "challenge_response_invalid")
  else
    let given ← testedText proof "proof" (hexTest 64)
    let expectedProof ← scripted (computeAuthProof p credential c)
    if !available then .error .script
    else if !constantTimeEqualProof given expectedProof then
      .error (.receiver "challenge_proof_invalid")
    else .ok (authSecretRequest credential c)

/-- The exchange of `connect`. -/
def connectOptions (p : Platform) (c : DirectReceiverConnection) (nonce : Bytes) : Options where
  challenge := authChallenge (c.challenge nonce)
  proofType := "auth_proof"
  expectedType := "ready"
  buildSecretRequest := buildAuthRequest p c.trustedDevice.credential (c.challenge nonce)
  validateFinal response _ :=
    if !response.isNumber "sourceEpoch" (.integer c.sourceEpoch) ∨
        !response.isNumber "width" c.mediaContract.width ∨
        !response.isNumber "height" c.mediaContract.height ∨
        !response.isNumber "maxFps" c.mediaContract.maxFps then
      .error (.receiver "challenge_response_invalid")
    else .ok ()
  connectionError := connectionErrorForHost c.trustedDevice.host

/-- A `connect` under way, and what it leaves behind. -/
structure Connect where
  exchange : Exchange := {}
  /-- `this.socket` is the socket of this call. -/
  socket : Bool := true
  authenticated : Bool := false
  heartbeat : Bool := false
  /-- What the promise came to. -/
  result : Option Outcome := none

/-- What can happen to a connection. -/
inductive ConnectEvent where
  | exchange (event : Event)
  /-- The interval of the heartbeat, and whether the socket is open. -/
  | heartbeat (isOpen : Bool) (now : Int)
  /-- `close`, and whether the socket is open. -/
  | close (isOpen : Bool)

def ping (now : Int) : Object :=
  [("type", string "ping"), ("protocol", .ofNumber (.integer directProtocol)),
    ("at", .ofNumber (.integer now))]

def closeRequest : Object :=
  [("type", string "close"), ("protocol", .ofNumber (.integer directProtocol))]

/-- What `connect` does once its exchange has settled. -/
def Connect.settle (c : DirectReceiverConnection) (k : Connect) : Connect :=
  match k.result, k.exchange.outcome with
  | none, some (.rejected failure) =>
    { k with
      exchange := k.exchange.closeSocket
      socket := false
      authenticated := false
      result := some (.rejected failure) }
  | none, some (.resolved response) =>
    if !response.isNumber "sourceEpoch" (.integer c.sourceEpoch) then
      { k with
        exchange := k.exchange.closeSocket
        socket := false
        authenticated := false
        result := some (.rejected (.receiver "epoch_stale")) }
    else
      { k with heartbeat := true, authenticated := true, result := some (.resolved response) }
  | _, _ => k

def Connect.step (p : Platform) (c : DirectReceiverConnection) (nonce : Bytes)
    (k : Connect) : ConnectEvent → Connect
  | .exchange event =>
    match k.result, event with
    | some (.resolved _), .closed =>
      { k with heartbeat := false, socket := false, authenticated := false }
    | _, _ =>
      { k with exchange := exchangeStep p (connectOptions p c nonce) k.exchange event }.settle c
  | .heartbeat isOpen now =>
    if k.heartbeat && isOpen then { k with exchange := k.exchange.send (ping now) } else k
  | .close isOpen =>
    if !k.socket then { k with heartbeat := false, authenticated := false }
    else
      { k with
        exchange := if isOpen then (k.exchange.send closeRequest).closeSocket
          else k.exchange.closeSocket
        socket := false
        authenticated := false
        heartbeat := false }

/-- A run of `connect` and of the connection that it leaves. -/
def Connect.run (p : Platform) (c : DirectReceiverConnection) (nonce : Bytes)
    (events : List ConnectEvent) : Connect := events.foldl (Connect.step p c nonce) {}

end Authentication

end DirectClient

end HarmonyScreen.Extension
