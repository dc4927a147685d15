import HarmonyScreen.Extension.TrustedDevice
import HarmonyScreen.Lib.Attempt

namespace HarmonyScreen.Extension
open Receiver Lib Attempt

namespace Setup
open DirectProtocol HostPermissions

structure Pending where
  host : Text
  authorization : Authorization
  deriving DecidableEq

/-- What the operations do with the trusted receiver, each with the invocation that does it. -/
inductive Event where
  | read (thread : Nat) (record : DeviceRecord)
  | exchanged (thread : Nat) (device : TrustedDevice)
  | completed (thread : Nat) (device : TrustedDevice)
  | updated (thread : Nat) (device : TrustedDevice)
  | removed (thread : Nat)
  | failed (thread : Nat) (message : String)
  deriving DecidableEq

/-- The two storages, the variables of the page and the fields that its operations read. -/
structure Page where
  trusted : Option DeviceRecord
  senderId : Option Bytes
  pending : Option Pending
  authorization : Option Authorization
  address : Text
  pairedHost : Text
  /-- `pendingStateWrite` is the chain of the writes that were queued. -/
  writesQueued : Nat
  writesSettled : Nat
  log : List Event
  /-- The granted origins, as the last call of `chrome.permissions` left them. -/
  origins : List Text := []
  deriving DecidableEq

/-- What the final message of a pairing exchange names. -/
structure PairedResponse where
  deviceId : Option Bytes
  credential : Option Bytes
  deriving DecidableEq

/-- What a section learns from outside. -/
structure Outside where
  now : Int := 0
  random : Bytes := []
  failure : Option String := none
  granted : Bool := true
  /-- What is granted as `chrome.permissions` is called. -/
  origins : List Text := []
  response : Except String PairedResponse := .error ""
  deriving DecidableEq

/-- An asynchronous function, cut where others may run. -/
abbrev Async := Attempt Page Outside

/-- An awaited call of the browser. -/
def request (serve : Outside → Page → α × Page) : Async α :=
  Attempt.request Outside.failure serve

def showError (i : Nat) (message : String) : Async Unit :=
  turn fun _ s => ((), { s with log := s.log ++ [.failed i message] })

section PairingStore

def getOrCreateSenderId : Async Bytes := do
  let existing ← request fun _ s => (s.senderId, s)
  if senderIdTest (existing.getD []) then return existing.getD []
  let senderId ← turn fun e s => (e.random, s)
  request fun _ s => ((), { s with senderId := some senderId })
  return senderId

/-- `getTrustedReceiver` behind the answer of the storage. -/
def checkTrustedReceiver : Option DeviceRecord → Async (Option TrustedDevice)
  | none => return none
  | some record =>
    match validateTrustedDevice record with
    | .ok device => return some device
    | .error _ => do
      request fun _ s => ((), { s with trusted := none })
      return none

def getTrustedReceiver (observed : DeviceRecord → List Event) : Async (Option TrustedDevice) := do
  let result ← request fun _ s =>
    (s.trusted, { s with log := s.log ++ (s.trusted.map observed).getD [] })
  checkTrustedReceiver result

def saveTrustedReceiver (saved : TrustedDevice → Event) (trustedReceiver : DeviceRecord) :
    Async TrustedDevice := do
  let normalized ← ofResult (validateTrustedDevice
    { trustedReceiver with host := some (trustedReceiver.host.getD defaultReceiverHost) })
  request fun _ s =>
    ((), { s with trusted := some normalized.toRecord, log := s.log ++ [saved normalized] })
  return normalized

def forgetTrustedReceiver (i : Nat) : Async Unit :=
  request fun _ s => ((), { s with trusted := none, log := s.log ++ [.removed i] })

end PairingStore

section PendingPairingStore

/-- `length` counts code units of UTF-16. -/
def utf16Length (value : Text) : Nat :=
  (value.map fun c => if c.toNat > 0xffff then 2 else 1).sum

def normalizePendingHost (value : Text) : Except String Text :=
  let host := trim value
  if host = [] ∨ utf16Length host > 255 ∨ host.any (fun c => c.toNat ≤ 0x1f || c.toNat == 0x7f) then
    .error "待配对地址无效"
  else .ok host

def normalizePendingPairing (value : Pending) (now : Int) : Except String Pending := do
  let candidate := value.authorization
  let authorization ←
    parsePairingAuthorization candidate.sessionId candidate.token candidate.expiresAt now
  if candidate.shortCode ≠ authorization.shortCode then throw "待配对短码无效"
  return ⟨← normalizePendingHost value.host, authorization⟩

def getPendingPairing : Async (Option Pending) := do
  let now ← turn fun e s => (e.now, s)
  let result ← request fun _ s => (s.pending, s)
  match result with
  | none => return none
  | some value =>
    match normalizePendingPairing value now with
    | .ok pending => return some pending
    | .error _ =>
      request fun _ s => ((), { s with pending := none })
      return none

def savePendingPairing (pending : Pending) (now : Int) : Async Unit := do
  let normalized ← ofResult (normalizePendingPairing pending now)
  request fun _ s => ((), { s with pending := some normalized })

def clearPendingPairing : Async Unit :=
  request fun _ s => ((), { s with pending := none })

end PendingPairingStore

section Permissions

section Api

def contains (origin : Text) : Async Bool :=
  request fun e s => (e.origins.contains origin, { s with origins := e.origins })

def requestOrigin (origin : Text) : Async Bool :=
  request fun e s =>
    (e.granted, { s with origins := if e.granted then origin :: e.origins else e.origins })

def remove (origin : Text) : Async Bool :=
  request fun e s =>
    (e.granted,
      { s with origins := if e.granted then e.origins.filter (· ≠ origin) else e.origins })

def getAll : Async (List Text) :=
  request fun e s => (e.origins, { s with origins := e.origins })

end Api

structure Lease where
  origin : Option Text
  added : Bool

def acquireHostPermission (host : Text) : Async Lease := do
  match ← ofResult (manualHostOrigin host) with
  | none => return ⟨none, false⟩
  | some origin =>
    if ← contains origin then return ⟨some origin, false⟩
    if !(← requestOrigin origin) then
      throw "需要允许访问你刚输入的平板私网地址"
    return ⟨some origin, true⟩

def hasHostPermission (host : Text) : Async Bool := do
  match ← ofResult (manualHostOrigin host) with
  | none => return true
  | some origin => contains origin

def revokeHostPermission : Option Text → Async Unit
  | none => return ()
  | some origin => do
    if !(← remove origin) then
      throw ("无法撤销未使用的地址权限：" ++ String.ofList origin)

def withHostPermission (host : Text) (operation : Async α) : Async α := do
  let lease ← acquireHostPermission host
  try operation
  catch error =>
    if lease.added then
      try revokeHostPermission lease.origin
      catch _ => throw "操作失败，且临时地址权限未能撤销"
    throw error

def revokeAll : List Text → Async Unit
  | [] => return ()
  | origin :: origins => do
    revokeHostPermission (some origin)
    revokeAll origins

def cleanupUnusedManualHostPermissions (usedHosts : List Text) : Async Unit := do
  let usedOrigins ← ofResult (usedHosts.mapM manualHostOrigin)
  let granted ← getAll
  revokeAll (granted.filter fun origin =>
    isManualPrivateIpv4Origin origin && !usedOrigins.contains (some origin))

end Permissions

/-- A write of the pending state, with its place in the chain. -/
structure Write where
  ticket : Nat
  snapshot : Pending

def Page.persistPendingState (s : Page) (host : Text) (authorization : Authorization) :
    Write × Page :=
  (⟨s.writesQueued, ⟨host, authorization⟩⟩, { s with writesQueued := s.writesQueued + 1 })

/-- Behind the writes before it, whether these were rejected or not. -/
def Write.settle (write : Write) : Async Unit := do
  let now ← ExceptT.lift (.atomic (fun s => s.writesSettled == write.ticket) (fun _ s => s)
    fun e _ => .ret e.now)
  let settled : Async Unit := turn fun _ s => ((), { s with writesSettled := write.ticket + 1 })
  try savePendingPairing write.snapshot now
  catch message =>
    settled
    throw message
  settled

def clearPendingState : Async Unit := do
  let writes ← turn fun _ s => (s.writesQueued, s)
  ExceptT.lift (Program.await fun s => decide (writes ≤ s.writesSettled))
  clearPendingPairing

def createPairingAuthorization (e : Outside) : Authorization :=
  let token := Protocol.lowerHex ((e.random.drop 16).take 32)
  { sessionId := Protocol.lowerHex (e.random.take 16)
    token := token
    expiresAt := e.now + pairingTtlMs
    shortCode := (shortCodeFromToken token).toOption.getD [] }

/-- `refreshAuthorization` up to its `await`. -/
def Page.renewAuthorization (e : Outside) (s : Page) : Write × Page :=
  let authorization := createPairingAuthorization e
  { s with authorization := some authorization }.persistPendingState s.address authorization

def refreshAuthorization : Async Unit := do
  let write ← turn Page.renewAuthorization
  write.settle

def Page.renderTrusted (s : Page) (trusted : Option TrustedDevice) : Page :=
  { s with pairedHost := (trusted.map TrustedDevice.host).getD defaultReceiverHost }

def renderTrusted (trusted : Option TrustedDevice) : Async Unit :=
  turn fun _ s => ((), s.renderTrusted trusted)

def validManualPermissionHost (host : Text) : Option Text :=
  match normalizeReceiverHost host with
  | .error _ => none
  | .ok normalized =>
    match manualHostOrigin normalized with
    | .ok (some _) => some normalized
    | _ => none

def loadPairingState (i : Nat) : Async Unit := do
  let trusted ← getTrustedReceiver fun _ => []
  renderTrusted trusted
  let pending ← (if trusted.isSome then pure none else getPendingPairing : Async (Option Pending))
  let pendingPermissionHost := pending.bind fun pending => validManualPermissionHost pending.host
  let usedHosts := match trusted with
    | some trusted => [trusted.host]
    | none => pendingPermissionHost.toList
  try cleanupUnusedManualHostPermissions usedHosts
  catch error => showError i error
  match trusted, pending with
  | some _, _ => clearPendingState
  | none, some pending =>
    turn fun _ s =>
      ((), { s with authorization := some pending.authorization, address := pending.host })
    match pendingPermissionHost with
    | none => return ()
    | some host => discard (hasHostPermission host)
  | none, none => refreshAuthorization

/-- `updatePendingHost`, called with the text that was typed. -/
def input (text : Text) : Async Unit := do
  let write ← turn fun _ s =>
    match s.authorization with
    | none => (none, { s with address := text })
    | some authorization =>
      let r := { s with address := text }.persistPendingState text authorization
      (some r.1, r.2)
  match write with
  | none => return ()
  | some write => write.settle

/-- What the exchange has come to, with the answer from outside. -/
def Page.exchange (i : Nat) (host : Text) (authorization : Option Authorization) (senderId : Bytes)
    (e : Outside) (s : Page) : Except String TrustedDevice × Page :=
  match authorization, e.response with
  | none, _ => (.error "Cannot read properties of null (reading 'sessionId')", s)
  | some _, .error message => (.error message, s)
  | some _, .ok response =>
    match validateTrustedDevice ⟨some senderId, response.deviceId, response.credential, some host,
      some (.integer e.now)⟩ with
    | .error message => (.error message, s)
    | .ok device => (.ok device, { s with log := s.log ++ [.exchanged i device] })

def pairReceiver (i : Nat) (host : Text) (authorization : Option Authorization) (senderId : Bytes) :
    Async TrustedDevice := do
  let result ← turn fun e s => s.exchange i host authorization senderId e
  ofResult result

/-- How `completePairing` goes on behind its checks. -/
inductive Begun where
  | expired (write : Write)
  | invalid (message : String)
  | ready (host : Text) (write : Write)

def Page.beginPairing (e : Outside) (s : Page) : Begun × Page :=
  match s.authorization with
  | none =>
    let r := s.renewAuthorization e
    (.expired r.1, r.2)
  | some authorization =>
    if authorization.expiresAt ≤ e.now then
      let r := s.renewAuthorization e
      (.expired r.1, r.2)
    else
      match normalizeReceiverHost s.address with
      | .error message => (.invalid message, s)
      | .ok host =>
        let r := { s with address := host }.persistPendingState host authorization
        (.ready host r.1, r.2)

def completePairing (i : Nat) : Async Unit := do
  try
    match ← turn Page.beginPairing with
    | .expired write =>
      write.settle
      throw "二维码已过期，请用平板扫描新二维码"
    | .invalid message => throw message
    | .ready host write =>
      write.settle
      let senderId ← getOrCreateSenderId
      let trusted ← withHostPermission host do
        let authorization ← turn fun _ s => (s.authorization, s)
        let paired ← pairReceiver i host authorization senderId
        saveTrustedReceiver (.completed i) paired.toRecord
      turn fun _ s => ((), { s with authorization := none }.renderTrusted (some trusted))
      clearPendingState
      cleanupUnusedManualHostPermissions [trusted.host]
  catch error => showError i error

def forgetPairing (i : Nat) : Async Unit := do
  try
    forgetTrustedReceiver i
    cleanupUnusedManualHostPermissions []
  catch error => showError i error
  renderTrusted none
  refreshAuthorization

def updateTrustedHost (i : Nat) : Async Unit := do
  try
    match ← getTrustedReceiver fun record => [.read i record] with
    | none => throw "没有可更新的已配对平板"
    | some trusted =>
      let pairedHost ← turn fun _ s => (s.pairedHost, s)
      let host ← ofResult (normalizeReceiverHost pairedHost)
      let updated ← withHostPermission host
        (saveTrustedReceiver (.updated i) { trusted.toRecord with host := some host })
      renderTrusted (some updated)
      cleanupUnusedManualHostPermissions [updated.host]
  catch error => showError i error

/-- What the page starts: its load, and what the user does in it. -/
inductive Operation where
  | loadPairingState
  | completePairing
  | updateTrustedHost
  | forgetPairing
  | refreshAuthorization
  | input (text : Text)
  | typePairedHost (text : Text)

def operate (i : Nat) : Operation → Async Unit
  | .loadPairingState => loadPairingState i
  | .completePairing => completePairing i
  | .updateTrustedHost => updateTrustedHost i
  | .forgetPairing => forgetPairing i
  | .refreshAuthorization => refreshAuthorization
  | .input text => input text
  | .typePairedHost text => turn fun _ s => ((), { s with pairedHost := text })

/-- A rejection that nobody awaits ends the invocation too. -/
def spawn (i : Nat) (operation : Operation) : Program Page Outside Unit := do
  let _ ← (operate i operation).run
  return ()

end Setup

end HarmonyScreen.Extension
