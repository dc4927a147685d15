import HarmonyScreen.Extension.ProofMessages

namespace HarmonyScreen.Extension
open Receiver

namespace DirectProtocol

/-- A text of the script that a user may have typed. -/
abbrev Text := List Char

def defaultReceiverHost : Text := "harmony-web-companion.local".toList
def pairingTtlMs : Int := 60000

/-- What `trim` takes off. -/
def isSpace (c : Char) : Bool :=
  (0x09 ≤ c.toNat && c.toNat ≤ 0x0d) || (0x2000 ≤ c.toNat && c.toNat ≤ 0x200a) ||
    [0x20, 0xa0, 0x1680, 0x2028, 0x2029, 0x202f, 0x205f, 0x3000, 0xfeff].contains c.toNat

def trim (value : Text) : Text :=
  ((value.dropWhile isSpace).reverse.dropWhile isSpace).reverse

/-- `/^\d{1,3}$/` -/
def octetTest (part : Text) : Bool :=
  1 ≤ part.length && part.length ≤ 3 && part.all Char.isDigit

/-- `Number` of a text that passed the test. -/
def octetNumber (part : Text) : Nat :=
  part.foldl (fun n c => n * 10 + (c.toNat - 0x30)) 0

/-- No letter beyond ASCII has a digit, a dot or a letter of the default host in lower case, so
that lowering those of ASCII decides the same. -/
def normalizeReceiverHost (value : Text) : Except String Text :=
  let host := (trim value).map Char.toLower
  if host = defaultReceiverHost then .ok host
  else
    let octets := host.splitOn '.'
    let numbers := octets.map octetNumber
    if octets.length ≠ 4 ∨ (octets.any fun part => !octetTest part) ∨
        (numbers.any fun n => n > 255) then
      .error "请输入有效的平板私网 IPv4，或使用默认 .local 地址"
    else
      let a := numbers.getD 0 0
      let b := numbers.getD 1 0
      if a = 10 ∨ (a = 172 ∧ 16 ≤ b ∧ b ≤ 31) ∨ (a = 192 ∧ b = 168) ∨ (a = 169 ∧ b = 254) then
        .ok (['.'].intercalate (numbers.map (Nat.toDigits 10)))
      else .error "v0.1 只允许可信局域网 IPv4 地址"

/-- What the storage may hold for a device, or an answer may name. -/
structure DeviceRecord where
  senderId : Option Bytes
  deviceId : Option Bytes
  credential : Option Bytes
  host : Option Text
  pairedAt : Option Number
  deriving DecidableEq

structure TrustedDevice where
  senderId : Bytes
  deviceId : Bytes
  credential : Bytes
  host : Text
  pairedAt : Int
  hsender : senderIdTest senderId = true
  hdevice : hexTest 32 deviceId = true
  hcredential : hexTest 64 credential = true
  deriving DecidableEq

/-- A device as it is stored. -/
def TrustedDevice.toRecord (device : TrustedDevice) : DeviceRecord where
  senderId := some device.senderId
  deviceId := some device.deviceId
  credential := some device.credential
  host := some device.host
  pairedAt := some (.integer device.pairedAt)

def safeInteger : Option Number → Int
  | some (.integer n) => if (Number.integer n).isSafeInteger then n else 0
  | _ => 0

def validateTrustedDevice (value : DeviceRecord) : Except String TrustedDevice :=
  let senderId := value.senderId.getD []
  let deviceId := value.deviceId.getD []
  let credential := value.credential.getD []
  if h : senderIdTest senderId = true ∧ hexTest 32 deviceId = true ∧
      hexTest 64 credential = true then
    match normalizeReceiverHost (value.host.getD defaultReceiverHost) with
    | .ok host =>
      .ok ⟨senderId, deviceId, credential, host, safeInteger value.pairedAt, h.1, h.2.1, h.2.2⟩
    | .error message => .error message
  else .error "已保存的平板凭据无效，请重新配对"

theorem validateTrustedDevice_ok {value : DeviceRecord} {device : TrustedDevice}
    (h : validateTrustedDevice value = .ok device) :
    value.senderId.getD [] = device.senderId ∧ value.deviceId.getD [] = device.deviceId ∧
      value.credential.getD [] = device.credential := by
  unfold validateTrustedDevice at h
  simp only at h
  split at h
  · split at h
    · cases h
      exact ⟨rfl, rfl, rfl⟩
    · cases h
  · cases h

def shortCodeFromToken (token : Bytes) : Except String Bytes :=
  if hexTest 64 token then
    let digits := Protocol.decimal (Protocol.readHex (token.take 12) % 1000000)
    .ok (List.replicate (6 - digits.length) 0x30 ++ digits)
  else .error "配对令牌格式无效"

/-- `payload` is written from these fields again wherever it is read. -/
structure Authorization where
  sessionId : Bytes
  token : Bytes
  expiresAt : Int
  shortCode : Bytes
  deriving DecidableEq

/-- `parsePairingAuthorization`, of the payload that these fields are written to. -/
def parsePairingAuthorization (sessionId token : Bytes) (expiresAt now : Int) :
    Except String Authorization :=
  if !hexTest 32 sessionId ∨ !hexTest 64 token ∨ !(Number.integer expiresAt).isSafeInteger ∨
      expiresAt ≤ now ∨ expiresAt > now + pairingTtlMs + 5000 then
    .error "二维码授权无效或已经过期"
  else
    match shortCodeFromToken token with
    | .ok shortCode => .ok ⟨sessionId, token, expiresAt, shortCode⟩
    | .error message => .error message

end DirectProtocol

namespace HostPermissions
open DirectProtocol

/-- The origin of a host that was normalized; the default host needs none. -/
def manualHostOrigin (host : Text) : Except String (Option Text) :=
  match normalizeReceiverHost host with
  | .error message => .error message
  | .ok normalized =>
    if normalized = defaultReceiverHost then .ok none
    else .ok (some ("http://".toList ++ normalized ++ "/*".toList))

/-- What the pattern leaves between `http://` and `/*`. -/
def originHost (origin : Text) : Option Text :=
  let host := (origin.drop 7).dropLast.dropLast
  if origin = "http://".toList ++ host ++ "/*".toList ∧
      (host.splitOn '.').length = 4 ∧ (host.splitOn '.').all octetTest then some host
  else none

def isManualPrivateIpv4Origin (origin : Text) : Bool :=
  match originHost origin with
  | none => false
  | some host =>
    match normalizeReceiverHost host with
    | .ok normalized => normalized == host
    | .error _ => false

end HostPermissions

end HarmonyScreen.Extension
