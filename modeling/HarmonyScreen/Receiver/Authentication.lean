import HarmonyScreen.Receiver.Decoding

namespace HarmonyScreen.Receiver
open Lib Protocol WebSocket

structure AuthChallengeState where
  senderId : Bytes
  deviceId : Bytes
  nonce : Bytes
  sourceEpoch : Nat
  mediaContract : MediaContract
  deriving DecidableEq, Repr

/-- `ChallengeStage`, together with the challenge that the stage waits to see completed. -/
inductive ChallengeStage where
  | initial
  | pairFinal (challenge : PairChallengeState)
  | authFinal (challenge : AuthChallengeState)
  deriving DecidableEq, Repr

/-- Whether a message ends `AuthenticateConnection`, or the loop goes on. -/
inductive Handled where
  | returned (result : Bool)
  | next (stage : ChallengeStage)
  deriving DecidableEq, Repr

/-- `JsonString(json, key).value_or("")`. -/
def text (json : Bytes) (key : String) : Bytes := (jsonString json (ascii key)).getD []

/-- Whether a string member is there with this value. -/
def textIs (json : Bytes) (key value : String) : Bool :=
  jsonString json (ascii key) == some (ascii value)

def uint32Max : Int := 2 ^ 32 - 1

def parseMediaContract (json : Bytes) : Option MediaContract :=
  match jsonInteger json (ascii "width"), jsonInteger json (ascii "height"),
      jsonInteger json (ascii "maxFps") with
  | some width, some height, some maxFps =>
    if width ≤ 0 ∨ height ≤ 0 ∨ maxFps ≤ 0 ∨ width > uint32Max ∨ height > uint32Max ∨
        maxFps > uint32Max then none
    else
      let contract : MediaContract := ⟨width.toNat, height.toNat, maxFps.toNat⟩
      if isValidMediaContract contract then some contract else none
  | _, _, _ => none

/-- The members that both authentication messages must carry besides their identities. -/
def codecValid (json : Bytes) : Bool :=
  textIs json "mode" "auth" && textIs json "codec" "video/avc" && textIs json "avcFormat" "annexb"

/-- `duration_cast` from microseconds to milliseconds. -/
def milliseconds (us : Int) : Int := us.tdiv 1000

namespace ReceiverSession

/-- The number of grants given so far: the one a pairing uses is the last. -/
def grants (s : ReceiverSession) : Nat := s.log.count .granted

def refuse (code : ErrorCode) : Session Handled := do
  let _ ← sendControl (.error code)
  return .returned false

/-- The critical section of a `pair_challenge`: the token that keys the proof, or the refusal. -/
def pairChallengeLocked (sessionId : Bytes) (now : Int) (s : ReceiverSession) :
    Except ErrorCode Bytes :=
  if s.consumedSessionId ≠ [] ∧ sessionId = s.consumedSessionId then
    .error .authorizationReplayed
  else if milliseconds now ≥ milliseconds s.pairingExpiresAt then .error .authorizationExpired
  else if s.pendingSessionId ≠ [] ∧ sessionId = s.pendingSessionId ∧ hex s.pendingToken 64 then
    .ok s.pendingToken
  else if s.pendingShortCode ≠ [] then .error .shortCodeRequiresManualIpv4
  else .error .pairingFailed

def pairChallenge (json : Bytes) : Session Handled :=
  let sessionId := text json "sessionId"
  let senderId := text json "senderId"
  let nonce := text json "nonce"
  if !textIs json "mode" "pair" ∨ !hex sessionId 32 ∨ !senderIdValid senderId ∨ !hex nonce 64 then
    refuse .challengeInvalid
  else do
    let (secret, deviceId) ← Program.critical fun e s =>
      ((pairChallengeLocked sessionId e.now s, s.deviceId), s)
    match secret with
    | .error code => refuse code
    | .ok secret =>
      let proof := computePairProof secret (ascii "qr") sessionId senderId nonce deviceId
      if proof = [] then refuse .challengeInvalid
      else
        let sent ← sendControl (.pairProof (ascii "qr") sessionId senderId nonce deviceId proof)
        if !sent then return .returned false
        else return .next (.pairFinal ⟨sessionId, senderId, nonce, deviceId, false⟩)

/-- The authorization of a final pairing message as the commit section evaluates it. -/
def evaluateAuthorization (sessionId token : Bytes) (now : Int) (s : ReceiverSession) :
    PairingAuthorizationResult :=
  evaluatePairingAuthorization sessionId token s.pendingSessionId s.pendingToken
    s.pendingShortCode s.consumedSessionId (milliseconds s.pairingExpiresAt) (milliseconds now)

def attempt (challenge : PairChallengeState) (token : Bytes) (e : External)
    (s : ReceiverSession) : PairingAttempt :=
  ⟨challenge, token, s.deviceId, s.pendingSessionId, s.pendingToken, s.pendingShortCode,
    s.consumedSessionId, s.pairingExpiresAt, e.now, e.random.isSome⟩

/-- The writes of an accepted pairing. -/
def acceptPairing (challenge : PairChallengeState) (credential : Bytes) (s : ReceiverSession) :
    ReceiverSession :=
  { s with
    trustedSenderId := challenge.senderId
    trustedCredential := credential
    consumedSessionId := challenge.sessionId
    pendingSessionId := []
    pendingToken := []
    pendingShortCode := []
    pairingRecordVersion := s.pairingRecordVersion + 1
    log := s.log ++ [.paired s.grants challenge.sessionId] }

/-- The critical section of a final pairing message, whose session and sender are
those of its challenge: the new credential and the number of the grant it used,
or the refusal. -/
def commitPairing (challenge : PairChallengeState) (token : Bytes) (e : External)
    (s : ReceiverSession) : Except ErrorCode (Bytes × Nat) × ReceiverSession :=
  let s := s.note (.presented (s.attempt challenge token e))
  match s.evaluateAuthorization challenge.sessionId token e.now with
  | .replayed => (.error .authorizationReplayed, s)
  | .expired => (.error .authorizationExpired, s)
  | .mismatch => (.error .pairingFailed, s)
  | .accepted =>
    let credential := randomHex e.random 32
    if credential = [] ∨ s.deviceId ≠ challenge.deviceId then (.error .pairingFailed, s)
    else (.ok (credential, s.grants), s.acceptPairing challenge credential)

/-- Whether a message completes the pairing challenge that was made. -/
def pairFinalValid (challenge : PairChallengeState) (json : Bytes) : Bool :=
  let manualFinal := challenge.manualIpv4 && textIs json "type" "pair_manual_ipv4" &&
    textIs json "mode" "pair_manual_ipv4"
  let proofFinal := !challenge.manualIpv4 && textIs json "type" "pair" && textIs json "mode" "pair"
  (manualFinal || proofFinal) && text json "sessionId" == challenge.sessionId &&
    text json "senderId" == challenge.senderId && text json "nonce" == challenge.nonce &&
    hex (text json "token") 64

def pairFinal (challenge : PairChallengeState) (json : Bytes) : Session Handled :=
  if !pairFinalValid challenge json then refuse .challengeStateInvalid
  else do
    let committed ← Program.critical (commitPairing challenge (text json "token"))
    match committed with
    | .error code => refuse code
    | .ok (credential, grant) =>
      -- the result of this `SendControl` is not looked at
      let _ ← sendNoted [.answered grant] (.paired challenge.deviceId credential)
      setState "paired" "电脑连接成功，下次使用无需再次扫码" true false
      return .returned false

/-- The branch of `pair_manual_ipv4`, which falls through to the final branch
with the same message. -/
def pairManualIpv4 (json : Bytes) : Session Handled :=
  let sessionId := text json "sessionId"
  let senderId := text json "senderId"
  if !textIs json "mode" "pair_manual_ipv4" ∨ !hex sessionId 32 ∨ !senderIdValid senderId then
    refuse .challengeInvalid
  else do
    let deviceId ← load (·.deviceId)
    pairFinal ⟨sessionId, senderId, [], deviceId, true⟩ json

/-- The members of an `auth_challenge`, when all of them are valid. -/
def parseAuthChallenge (json : Bytes) : Option AuthChallengeState :=
  let senderId := text json "senderId"
  let deviceId := text json "deviceId"
  let nonce := text json "nonce"
  match jsonInteger json (ascii "sourceEpoch"), parseMediaContract json with
  | some epoch, some mediaContract =>
    if !senderIdValid senderId ∨ !hex deviceId 32 ∨ !hex nonce 64 ∨ epoch ≤ 0 ∨
        epoch > uint32Max ∨ !codecValid json then none
    else some ⟨senderId, deviceId, nonce, epoch.toNat, mediaContract⟩
  | _, _ => none

/-- The critical section of an `auth_challenge`: the credential that keys the
proof, or the first refusal that applies. -/
def authChallengeLocked (challenge : AuthChallengeState) (s : ReceiverSession) :
    Except ErrorCode Bytes :=
  if s.trustedSenderId = [] ∨ s.trustedCredential = [] then .error .notPaired
  else if challenge.senderId ≠ s.trustedSenderId ∨ challenge.deviceId ≠ s.deviceId then
    .error .identityMismatch
  else
    match evaluateSourceContract challenge.sourceEpoch challenge.mediaContract
        s.latestSourceEpoch s.activeMediaContract with
    | .epochStale => .error .epochStale
    | .epochContractMismatch => .error .epochContractMismatch
    | .accepted => .ok s.trustedCredential

def authChallenge (json : Bytes) : Session Handled :=
  match parseAuthChallenge json with
  | none => refuse .challengeInvalid
  | some challenge => do
    let decision ← load (authChallengeLocked challenge)
    match decision with
    | .error code => refuse code
    | .ok credential =>
      let proof := computeAuthProof credential challenge.senderId challenge.deviceId
        challenge.sourceEpoch challenge.nonce challenge.mediaContract
      if proof = [] then refuse .challengeInvalid
      else
        let sent ← sendControl (.authProof challenge.senderId challenge.deviceId
          challenge.sourceEpoch challenge.nonce proof)
        if !sent then return .returned false else return .next (.authFinal challenge)

/-- Whether an `auth` message repeats the challenge and carries a credential. -/
def authFinalValid (challenge : AuthChallengeState) (json : Bytes) : Bool :=
  textIs json "type" "auth" && text json "senderId" == challenge.senderId &&
    text json "deviceId" == challenge.deviceId && text json "nonce" == challenge.nonce &&
    jsonInteger json (ascii "sourceEpoch") == some (challenge.sourceEpoch : Int) &&
    codecValid json && parseMediaContract json == some challenge.mediaContract &&
    hex (text json "credential") 64

/-- The epoch and contract to go back to when the decoder cannot be prepared. -/
structure Previous where
  epoch : Nat
  contract : MediaContract

/-- The critical section of an `auth`: it commits the epoch and the contract, or refuses. -/
def commitAuth (challenge : AuthChallengeState) (credential : Bytes) (s : ReceiverSession) :
    Except ErrorCode Previous × ReceiverSession :=
  if challenge.senderId ≠ s.trustedSenderId ∨ challenge.deviceId ≠ s.deviceId ∨
      !constantTimeEqual credential s.trustedCredential then (.error .identityMismatch, s)
  else
    match evaluateSourceContract challenge.sourceEpoch challenge.mediaContract
        s.latestSourceEpoch s.activeMediaContract with
    | .epochStale => (.error .epochStale, s)
    | .epochContractMismatch => (.error .epochContractMismatch, s)
    | .accepted =>
      (.ok ⟨s.latestSourceEpoch, s.activeMediaContract⟩,
        { s with
          latestSourceEpoch := challenge.sourceEpoch
          activeSourceEpoch := challenge.sourceEpoch
          activeMediaContract := challenge.mediaContract
          log := s.log ++ [.committed challenge.sourceEpoch challenge.mediaContract] })

/-- Takes the commit back, unless another epoch became active. -/
def rollbackAuth (challenge : AuthChallengeState) (previous : Previous) (s : ReceiverSession) :
    ReceiverSession :=
  if s.activeSourceEpoch = challenge.sourceEpoch ∧
      s.activeMediaContract = challenge.mediaContract then
    { s with
      latestSourceEpoch := previous.epoch
      activeSourceEpoch := previous.epoch
      activeMediaContract := previous.contract }
  else s

def authFinal (challenge : AuthChallengeState) (json : Bytes) : Session Handled :=
  if !authFinalValid challenge json then refuse .challengeStateInvalid
  else do
    let committed ← Program.critical fun _ s => commitAuth challenge (text json "credential") s
    match committed with
    | .error code => refuse code
    | .ok previous =>
      let decoderPrepared ←
        if previous.contract = challenge.mediaContract then flushDecoder
        else reconfigureDecoder challenge.mediaContract
      if !decoderPrepared then
        modify (rollbackAuth challenge previous)
        refuse .decoderConfigurationFailed
      else
        let sent ← sendControl (.ready challenge.sourceEpoch challenge.mediaContract)
        if !sent then return .returned false
        else
          setState "connected" "电脑已连接，正在准备播放画面" true true
          return .returned true

/-- One message of the handshake. Its being taken up is recorded first. -/
def handleMessage (stage : ChallengeStage) (message : Message) : Session Handled := do
  modify fun s => s.note (.message message s.source)
  if message.opcode ≠ .text ∨ message.payload.length > 2048 then refuse .challengeInvalid
  else
    let json := message.payload
    if jsonInteger json (ascii "protocol") ≠ some (kVersion : Int) then refuse .protocolMismatch
    else
      match stage with
      | .initial =>
        if textIs json "type" "pair_manual_ipv4" then pairManualIpv4 json
        else if textIs json "type" "pair_challenge" then pairChallenge json
        else if textIs json "type" "auth_challenge" then authChallenge json
        else refuse .challengeRequired
      | .pairFinal challenge => pairFinal challenge json
      | .authFinal challenge => authFinal challenge json

def handleMessages : List Message → ChallengeStage → Session Handled
  | [], stage => return .next stage
  | message :: messages, stage => do
    let handled ← handleMessage stage message
    match handled with
    | .returned result => return .returned result
    | .next stage => handleMessages messages stage

/-- One turn of a receive loop: `select` found nothing, the connection ended, or
`recv` returned data. -/
inductive Turn where
  | idle
  | ended
  | received (data : Bytes)
  deriving DecidableEq, Repr

/-- The loop of `AuthenticateConnection`, over the turns it makes until its
deadline. With the result comes `websocket_decoder_`, which only the thread of
the connection uses. -/
def authenticateLoop : List Turn → Decoder → ChallengeStage → Session (Bool × Decoder)
  | [], decoder, _ => return (false, decoder)
  | turn :: turns, decoder, stage => do
    let desired ← load (·.desired)
    if !desired then return (false, decoder)
    else
      match turn with
      | .idle => authenticateLoop turns decoder stage
      | .ended => return (false, decoder)
      | .received data =>
        match push decoder data with
        | (false, decoder, _) => return (false, decoder)
        | (true, decoder, messages) =>
          let handled ← handleMessages messages stage
          match handled with
          | .returned result => return (result, decoder)
          | .next stage => authenticateLoop turns decoder stage

/-- `AuthenticateConnection` on a connection whose decoder was just reset. -/
def authenticateConnection (turns : List Turn) : Session (Bool × Decoder) := do
  let socket ← load (·.controlSocket)
  if !socket then return (false, {}) else authenticateLoop turns {} .initial

end ReceiverSession

end HarmonyScreen.Receiver
