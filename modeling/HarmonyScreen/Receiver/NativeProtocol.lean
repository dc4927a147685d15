import Mathlib.Data.List.GetD
import Mathlib.Data.Nat.Bitwise
import HarmonyScreen.Receiver.Sha256

namespace HarmonyScreen.Receiver.Protocol

def kVideoMagic : Nat := 0x48574336
def kVersion : Nat := 6
def kHeaderSize : Nat := 32
def kMaxFrameBytes : Nat := 8 * 1024 * 1024
def kKeyframe : Nat := 1

inductive PairingAuthorizationResult where
  | accepted
  | expired
  | replayed
  | mismatch
  deriving DecidableEq, Repr

inductive SourceContractDecision where
  | accepted
  | epochStale
  | epochContractMismatch
  deriving DecidableEq, Repr

structure VideoHeader where
  sourceEpoch : Nat
  sequence : Nat
  flags : Nat
  payloadLength : Nat
  timestampUs : Nat
  deriving DecidableEq, Repr

structure MediaContract where
  width : Nat := 0
  height : Nat := 0
  maxFps : Nat := 0
  deriving DecidableEq, Repr

/-- The big-endian field of `count` bytes at an offset. -/
def field (data : Bytes) (offset count : Nat) : Nat := readBig ((data.drop offset).take count)

def decodeVideoHeader (data : Bytes) : Option VideoHeader :=
  if data.length < kHeaderSize ∨ field data 0 4 ≠ kVideoMagic ∨ field data 4 1 ≠ kVersion then none
  else
    let header : VideoHeader :=
      { flags := field data 5 1
        sourceEpoch := field data 8 4
        sequence := field data 12 4
        payloadLength := field data 16 4
        timestampUs := field data 24 8 }
    if field data 6 2 ≠ kHeaderSize ∨ field data 20 4 ≠ 0 ∨ header.payloadLength = 0 ∨
        header.payloadLength > kMaxFrameBytes ∨ header.flags > kKeyframe ∨
        data.length ≠ kHeaderSize + header.payloadLength then none
    else some header

def evaluateSourceContract (candidateEpoch : Nat) (candidateContract : MediaContract)
    (latestEpoch : Nat) (activeContract : MediaContract) : SourceContractDecision :=
  if candidateEpoch < latestEpoch then .epochStale
  else if candidateEpoch = latestEpoch ∧ candidateContract ≠ activeContract then
    .epochContractMismatch
  else .accepted

def isValidMediaContract (contract : MediaContract) : Bool :=
  if contract.width = 0 ∨ contract.height = 0 ∨ contract.width % 2 ≠ 0 ∨
      contract.height % 2 ≠ 0 ∨ contract.maxFps = 0 ∨ contract.maxFps > 60 then false
  else
    max contract.width contract.height ≤ 1920 ∧ min contract.width contract.height ≤ 1080 ∧
      contract.width * contract.height ≤ 1920 * 1080

def isDigit (character : UInt8) : Bool := 0x30 ≤ character && character ≤ 0x39

def isHex (character : UInt8) : Bool :=
  isDigit character || (0x61 ≤ character && character ≤ 0x66)

/-- `Hex` of the session: exactly `size` lower-case hexadecimal digits. -/
def hex (value : Bytes) (size : Nat) : Bool := value.length == size && value.all isHex

def senderIdValid (value : Bytes) : Bool :=
  16 ≤ value.length && value.length ≤ 64 && value.all fun c => isHex c || c == 0x2d

/-- `std::to_string` of an unsigned integer. -/
def decimal (value : Nat) : Bytes := (Nat.toDigits 10 value).map fun c => c.toNat.toUInt8

/-- `std::from_chars` in base 16 over hexadecimal digits. -/
def readHex (digits : Bytes) : Nat :=
  digits.foldl (fun value c => value * 16 + ((hexValue c).getD 0).toNat) 0

/-- Six decimal digits from the first twelve digits of a token. -/
def pairingShortCode (token : Bytes) : Bytes :=
  if hex token 64 then
    let digits := decimal (readHex (token.take 12) % 1000000)
    List.replicate (6 - digits.length) 0x30 ++ digits
  else []

def pairProofMessage (proofMode sessionId senderId nonce deviceId : Bytes) : Bytes :=
  if proofMode ≠ ascii "qr" ∨ (decodeLowerHex sessionId 16).isNone ∨ !senderIdValid senderId ∨
      (decodeLowerHex nonce 32).isNone ∨ (decodeLowerHex deviceId 16).isNone then []
  else
    ascii "HWC6-PAIR-PROOF\n" ++ proofMode ++ ascii "\n" ++ sessionId ++ ascii "\n" ++
      senderId ++ ascii "\n" ++ nonce ++ ascii "\n" ++ deviceId

def authProofMessage (senderId deviceId : Bytes) (sourceEpoch : Nat) (nonce : Bytes)
    (contract : MediaContract) : Bytes :=
  if !senderIdValid senderId ∨ (decodeLowerHex deviceId 16).isNone ∨ sourceEpoch = 0 ∨
      (decodeLowerHex nonce 32).isNone ∨ !isValidMediaContract contract then []
  else
    ascii "HWC6-AUTH-PROOF\n" ++ senderId ++ ascii "\n" ++ deviceId ++ ascii "\n" ++
      decimal sourceEpoch ++ ascii "\n" ++ nonce ++ ascii "\nvideo/avc\nannexb\n" ++
      decimal contract.width ++ ascii "\n" ++ decimal contract.height ++ ascii "\n" ++
      decimal contract.maxFps

def computePairProof (secret proofMode sessionId senderId nonce deviceId : Bytes) : Bytes :=
  let message := pairProofMessage proofMode sessionId senderId nonce deviceId
  if message = [] then []
  else
    match decodeLowerHex secret 32 with
    | none => []
    | some key => lowerHex (hmacSha256 key message)

def computeAuthProof (credential senderId deviceId : Bytes) (sourceEpoch : Nat) (nonce : Bytes)
    (contract : MediaContract) : Bytes :=
  let message := authProofMessage senderId deviceId sourceEpoch nonce contract
  match decodeLowerHex credential 32 with
  | none => []
  | some key => if message = [] then [] else lowerHex (hmacSha256 key message)

def constantTimeEqualSized (first second : Bytes) (expectedSize : Nat) : Bool :=
  let difference :=
    (first.length ^^^ second.length) ||| (first.length ^^^ expectedSize) |||
      (second.length ^^^ expectedSize)
  (List.range expectedSize).foldl
    (fun difference index =>
      difference ||| (first.getD index 0 ^^^ second.getD index 0).toNat) difference == 0

def constantTimeEqual (first second : Bytes) : Bool := constantTimeEqualSized first second 64

def evaluatePairingAuthorization (sessionId token pendingSessionId pendingToken pendingShortCode
    consumedSessionId : Bytes) (expiresAtMs nowMs : Int) : PairingAuthorizationResult :=
  if sessionId ≠ [] ∧ sessionId = consumedSessionId then .replayed
  else if nowMs ≥ expiresAtMs then .expired
  else
    let qrMatch := pendingSessionId ≠ [] ∧ sessionId = pendingSessionId ∧
      constantTimeEqual token pendingToken
    let shortMatch := pendingShortCode ≠ [] ∧
      constantTimeEqualSized (pairingShortCode token) pendingShortCode 6
    if qrMatch ∨ shortMatch then .accepted else .mismatch

/-- `json.find(needle)`: the text behind the first occurrence. -/
def afterFirst (needle : Bytes) : Bytes → Option Bytes
  | [] => if needle = [] then some [] else none
  | b :: json =>
    if needle.isPrefixOf (b :: json) then some ((b :: json).drop needle.length)
    else afterFirst needle json

def isBlank (b : UInt8) : Bool := b == 0x20 || b == 0x09 || b == 0x0d || b == 0x0a

/-- The text from the value of a key on. -/
def valueStart (json key : Bytes) : Option Bytes := do
  let behindKey ← afterFirst (0x22 :: key ++ [0x22]) json
  let behindColon ← afterFirst [0x3a] behindKey
  return behindColon.dropWhile isBlank

/-- What an escape stands for in `JsonString`: quote, backslash, `n`, `r` and `t`. -/
def unescape (b : UInt8) : Option UInt8 :=
  if b = 0x22 then some 0x22
  else if b = 0x5c then some 0x5c
  else if b = 0x6e then some 0x0a
  else if b = 0x72 then some 0x0d
  else if b = 0x74 then some 0x09
  else none

/-- The text up to the closing quote. -/
def scanString : Bytes → Option Bytes
  | [] => none
  | b :: rest =>
    if b = 0x22 then some []
    else if b = 0x5c then
      match rest with
      | [] => none
      | e :: rest =>
        match unescape e with
        | none => none
        | some c => (scanString rest).map (c :: ·)
    else (scanString rest).map (b :: ·)

def jsonString (json key : Bytes) : Option Bytes :=
  match valueStart json key with
  | some (b :: rest) => if b = 0x22 then scanString rest else none
  | _ => none

/-- `std::from_chars` for a 64-bit signed integer in base 10. -/
def fromChars (text : Bytes) : Option (Int × Bytes) :=
  let negative := text.head? = some 0x2d
  let unsigned := if negative then text.drop 1 else text
  let digits := unsigned.takeWhile isDigit
  let magnitude : Nat := digits.foldl (fun (value : Nat) c => value * 10 + (c.toNat - 0x30)) 0
  let value : Int := if negative then -(magnitude : Int) else magnitude
  if digits = [] ∨ value < -2 ^ 63 ∨ value ≥ 2 ^ 63 then none
  else some (value, unsigned.drop digits.length)

def jsonInteger (json key : Bytes) : Option Int := do
  let start ← valueStart json key
  let (value, rest) ← fromChars start
  match rest.dropWhile isBlank with
  | b :: _ => if b = 0x2c ∨ b = 0x7d ∨ b = 0x5d then some value else none
  | [] => none

def escapeJson (value : Bytes) : Bytes :=
  value.flatMap fun (character : UInt8) =>
    if character = 0x22 then [0x5c, 0x22]
    else if character = 0x5c then [0x5c, 0x5c]
    else if character = 0x0a then [0x5c, 0x6e]
    else if character = 0x0d then [0x5c, 0x72]
    else if character = 0x09 then [0x5c, 0x74]
    else [character]

example : jsonString (ascii "\x7b\"type\": \"pa\\nir\"\x7d") (ascii "type") = some (ascii "pa\nir") := by
  decide

theorem foldl_or (indices : List Nat) (f : Nat → Nat) (acc : Nat) :
    indices.foldl (fun difference index => difference ||| f index) acc = 0 ↔
      acc = 0 ∧ ∀ index ∈ indices, f index = 0 := by
  induction indices generalizing acc with
  | nil => simp
  | cons i indices ih =>
    rw [List.foldl_cons, ih, Nat.or_eq_zero_iff]
    simp [and_assoc]

theorem xor_toNat_eq_zero (a b : UInt8) : (a ^^^ b).toNat = 0 ↔ a = b := by
  rw [UInt8.toNat_xor, Nat.xor_eq_zero_iff, UInt8.toNat_inj]

/-- The comparison says yes exactly to equal texts of the expected size. -/
theorem constantTimeEqualSized_iff (first second : Bytes) (size : Nat) :
    constantTimeEqualSized first second size = true ↔ first.length = size ∧ first = second := by
  unfold constantTimeEqualSized
  simp only [beq_iff_eq, foldl_or, Nat.or_eq_zero_iff, Nat.xor_eq_zero_iff, xor_toNat_eq_zero,
    List.mem_range]
  constructor
  · rintro ⟨⟨⟨-, hf⟩, hs⟩, hall⟩
    refine ⟨hf, List.ext_getElem (by omega) fun i h₁ h₂ => ?_⟩
    have := hall i (by omega)
    rwa [List.getD_eq_getElem _ _ h₁, List.getD_eq_getElem _ _ h₂] at this
  · rintro ⟨rfl, rfl⟩
    simp

theorem constantTimeEqual_iff (first second : Bytes) :
    constantTimeEqual first second = true ↔ first.length = 64 ∧ first = second :=
  constantTimeEqualSized_iff first second 64

theorem hex_length {value : Bytes} {size : Nat} (h : hex value size = true) :
    value.length = size := by
  simp only [hex, Bool.and_eq_true, beq_iff_eq] at h
  exact h.1

theorem hex_ne_nil {value : Bytes} {size : Nat} (h : hex value (size + 1) = true) :
    value ≠ [] := by
  have := hex_length h
  intro hv
  simp [hv] at this

theorem senderIdValid_ne_nil {value : Bytes} (h : senderIdValid value = true) : value ≠ [] := by
  rintro rfl
  simp [senderIdValid] at h

theorem hexValue_isHex {c : UInt8} (h : isHex c = true) : (hexValue c).isSome = true := by
  simp only [isHex, isDigit, Bool.or_eq_true, Bool.and_eq_true, decide_eq_true_eq] at h
  unfold hexValue
  split
  · rfl
  · rw [if_pos (h.resolve_left (by assumption))]
    rfl

theorem decodeHexPairs_isSome {value : Bytes} {n : Nat} (hl : value.length = n * 2)
    (h : value.all isHex = true) : (decodeHexPairs value).isSome = true := by
  induction n generalizing value with
  | zero =>
    rw [List.length_eq_zero_iff.mp (show value.length = 0 by omega)]
    rfl
  | succ n ih =>
    match value with
    | [] | [_] => simp at hl; try omega
    | high :: low :: rest =>
      simp only [List.all_cons, Bool.and_eq_true, List.length_cons] at h hl
      obtain ⟨x, hx⟩ := Option.isSome_iff_exists.mp (hexValue_isHex h.1)
      obtain ⟨y, hy⟩ := Option.isSome_iff_exists.mp (hexValue_isHex h.2.1)
      obtain ⟨z, hz⟩ := Option.isSome_iff_exists.mp (ih (by omega) h.2.2)
      simp [decodeHexPairs, hx, hy, hz]

theorem decodeLowerHex_isSome {value : Bytes} {n : Nat} (h : hex value (n * 2) = true) :
    (decodeLowerHex value n).isSome = true := by
  simp only [hex, Bool.and_eq_true, beq_iff_eq] at h
  rw [decodeLowerHex, if_neg (by simpa using h.1)]
  exact decodeHexPairs_isSome h.1 h.2

theorem isHex_of_hexValue {c : UInt8} (h : (hexValue c).isSome = true) : isHex c = true := by
  unfold hexValue at h
  simp only [isHex, isDigit, Bool.or_eq_true, Bool.and_eq_true, decide_eq_true_eq]
  split at h
  · exact .inl ‹_›
  split at h
  · exact .inr ‹_›
  · cases h

theorem hex_of_decodeHexPairs {value : Bytes} (h : (decodeHexPairs value).isSome = true) :
    value.all isHex = true := by
  induction value using decodeHexPairs.induct with
  | case1 => rfl
  | case2 c => cases h
  | case3 high low rest x y output hrest hy hx ih =>
    have hhigh : isHex high = true := isHex_of_hexValue (by rw [hx]; rfl)
    have hlow : isHex low = true := isHex_of_hexValue (by rw [hy]; rfl)
    rw [List.all_cons, List.all_cons, hhigh, hlow, ih (by rw [hrest]; rfl)]
    rfl
  | case4 high low rest hnone =>
    simp only [decodeHexPairs] at h
    cases h

/-- `DecodeLowerHex` takes exactly the lower-case hexadecimal texts of its length. -/
theorem decodeLowerHex_isNone (value : Bytes) (n : Nat) :
    (decodeLowerHex value n).isNone = !hex value (n * 2) := by
  cases h : hex value (n * 2) with
  | true => simpa [Option.isNone_eq_false_iff] using decodeLowerHex_isSome h
  | false =>
    rw [Bool.not_false, Option.isNone_iff_eq_none]
    by_contra hsome
    have hdecoded := Option.isSome_iff_ne_none.mpr hsome
    unfold decodeLowerHex at hdecoded
    split at hdecoded
    · cases hdecoded
    · rename_i hlength
      have hall := hex_of_decodeHexPairs hdecoded
      simp_all [hex]

/-- From valid fields the proof of an authentication is always computed. -/
theorem computeAuthProof_ne_nil {credential senderId deviceId nonce : Bytes} {epoch : Nat}
    {contract : MediaContract} (hc : hex credential 64 = true) (hs : senderIdValid senderId = true)
    (hd : hex deviceId 32 = true) (he : epoch ≠ 0) (hn : hex nonce 64 = true)
    (hm : isValidMediaContract contract = true) :
    computeAuthProof credential senderId deviceId epoch nonce contract ≠ [] := by
  obtain ⟨key, hkey⟩ := Option.isSome_iff_exists.mp (decodeLowerHex_isSome (n := 32) hc)
  obtain ⟨d, hd⟩ := Option.isSome_iff_exists.mp (decodeLowerHex_isSome (n := 16) hd)
  obtain ⟨n, hn⟩ := Option.isSome_iff_exists.mp (decodeLowerHex_isSome (n := 32) hn)
  have hmessage : authProofMessage senderId deviceId epoch nonce contract ≠ [] := by
    simp [authProofMessage, hs, hd, he, hn, hm, senderIdValid_ne_nil hs]
  rw [computeAuthProof, hkey]
  dsimp only
  rw [if_neg hmessage]
  intro h
  simpa using congrArg List.length h

end HarmonyScreen.Receiver.Protocol
