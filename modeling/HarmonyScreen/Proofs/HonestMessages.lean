import HarmonyScreen.Link.Conversation
import HarmonyScreen.Proofs.FlatObjects
import HarmonyScreen.Proofs.Sha256

namespace HarmonyScreen.Proofs.HonestMessages
open Receiver Receiver.Protocol Receiver.ReceiverSession Lib
open Extension Extension.DirectProtocol Extension.DirectClient FlatObjects ProofMessages

/-- The browser parses flat objects and computes HMAC-SHA256. -/
structure Standard (p : Platform) : Prop where
  parse : ∀ members, Flat members → p.parse (objectOf members).stringify = some (objectOf members)
  hmac : ∀ key message, p.hmac key message = SecureHash.hmac SecureHash.sha256.digest 64 key message

section Secrets
variable {p : Platform} {secret : Bytes}

theorem readHex_pair {high low h l : UInt8} (hhigh : hexValue high = some h)
    (hlow : hexValue low = some l) : UInt8.ofNat (readHex [high, low]) = h * 16 + l := by
  simp [readHex, hhigh, hlow]

/-- Both ends take the same key from a secret. -/
theorem hexToBytes_eq (count : Nat) (message : String) :
    ∀ value : Bytes, hex value (count * 2) = true →
      ∃ key, hexToBytes value count message = .ok key ∧ decodeLowerHex value count = some key := by
  have hpairs : ∀ (n : Nat) (value : Bytes), value.length = n * 2 → value.all isHex = true →
      decodeHexPairs value = some ((List.range n).map fun index =>
        UInt8.ofNat (readHex ((value.drop (index * 2)).take 2))) := by
    intro n
    induction n with
    | zero =>
      intro value hlength _
      obtain rfl := List.length_eq_zero_iff.mp (hlength.trans (Nat.zero_mul 2))
      rfl
    | succ n ih =>
      intro value hlength hall
      match value with
      | [] => simp at hlength
      | [_] =>
        simp only [List.length_singleton] at hlength
        omega
      | high :: low :: rest =>
        simp only [List.all_cons, Bool.and_eq_true, List.length_cons] at hall hlength
        obtain ⟨h, hh⟩ := Option.isSome_iff_exists.mp (hexValue_isHex hall.1)
        obtain ⟨l, hl⟩ := Option.isSome_iff_exists.mp (hexValue_isHex hall.2.1)
        rw [decodeHexPairs, hh, hl, ih rest (by omega) hall.2.2, List.range_succ_eq_map,
          List.map_cons, List.map_map]
        have hfirst : UInt8.ofNat (readHex (((high :: low :: rest).drop (0 * 2)).take 2)) =
            h * 16 + l := readHex_pair hh hl
        have hrest : ((fun index => UInt8.ofNat (readHex (((high :: low :: rest).drop
            (index * 2)).take 2))) ∘ Nat.succ) =
            fun index => UInt8.ofNat (readHex ((rest.drop (index * 2)).take 2)) := by
          funext index
          simp [Nat.succ_mul]
        rw [hfirst, hrest]
  intro value hhex
  have hparts := hhex
  simp only [hex, Bool.and_eq_true, beq_iff_eq] at hparts
  refine ⟨_, if_pos hhex, ?_⟩
  rw [decodeLowerHex, if_neg (not_not.mpr hparts.1)]
  exact hpairs count value hparts.1 hparts.2

theorem lowerHex_hex (data : Bytes) : hex (lowerHex data) (data.length * 2) = true := by
  have hdigits : ∀ i : Fin 256, isHex (hexDigit (UInt8.ofFin i >>> 4)) = true ∧
      isHex (hexDigit (UInt8.ofFin i &&& 0x0f)) = true := by decide +kernel
  simp only [hex, length_lowerHex, beq_self_eq_true, Bool.true_and, List.all_eq_true]
  intro b hb
  obtain ⟨c, -, hc⟩ := List.mem_flatMap.mp hb
  have hc : b = hexDigit (c >>> 4) ∨ b = hexDigit (c &&& 0x0f) := by simpa using hc
  rcases hc with rfl | rfl
  · exact (hdigits c.toFin).1
  · exact (hdigits c.toFin).2

theorem proof_hex (key message : Bytes) : hex (lowerHex (hmacSha256 key message)) 64 = true := by
  have hhex := lowerHex_hex (hmacSha256 key message)
  rwa [length_hmacSha256] at hhex

theorem Standard.hmac_eq (hp : Standard p) (key message : Bytes) :
    hmacSha256Hex p key message = lowerHex (hmacSha256 key message) := by
  rw [hmacSha256Hex, hp.hmac, Sha256.hmacSha256_eq]

/-- Both ends compute one proof of an authentication. -/
theorem auth_proofs_agree (hp : Standard p) {a : AuthTuple} (h : a.Valid)
    (hsecret : hex secret 64 = true) :
    ∃ proof, DirectProtocol.computeAuthProof p secret a.challenge = .ok proof ∧
      Protocol.computeAuthProof secret a.senderId a.deviceId a.sourceEpoch.toNat a.nonce a.contract =
        proof ∧ hex proof 64 = true := by
  obtain ⟨key, hscript, hnative⟩ := hexToBytes_eq 32 "长期凭据格式无效" secret hsecret
  obtain ⟨hmessage, hlines⟩ := auth_accepted h
  have hne : nativeAuth a ≠ [] := by
    rw [hlines]
    exact message_ne_nil _ _ (by decide)
  refine ⟨lowerHex (hmacSha256 key (nativeAuth a)), ?_, ?_, proof_hex _ _⟩
  · rw [DirectProtocol.computeAuthProof, hscript, hmessage, ← hlines]
    exact congrArg Except.ok (hp.hmac_eq key (nativeAuth a))
  · rw [Protocol.computeAuthProof, hnative]
    exact if_neg hne

end Secrets

/-- A name with its colon. -/
def quotedName (name : String) : Bytes := JsonFields.quoted (ascii name) ++ [Json.colon]

section Challenge
variable {a : AuthTuple}

def challengeMembers (a : AuthTuple) : Members :=
  [(ascii "type", .text (ascii "auth_challenge")), (ascii "protocol", .count 6),
    (ascii "mode", .text (ascii "auth")), (ascii "senderId", .text a.senderId),
    (ascii "deviceId", .text a.deviceId), (ascii "sourceEpoch", .count a.sourceEpoch.toNat),
    (ascii "nonce", .text a.nonce), (ascii "codec", .text (ascii "video/avc")),
    (ascii "avcFormat", .text (ascii "annexb")), (ascii "width", .count a.width.toNat),
    (ascii "height", .count a.height.toNat), (ascii "maxFps", .count a.maxFps.toNat)]

def challengeNames : List Bytes :=
  ["type", "protocol", "mode", "senderId", "deviceId", "sourceEpoch", "nonce", "codec", "avcFormat",
    "width", "height", "maxFps"].map ascii

theorem challenge_text (a : AuthTuple) :
    Object.text (authChallenge a.challenge) = (objectOf (challengeMembers a)).stringify := rfl

theorem small (n : UInt32) : n.toNat < 2 ^ 53 := by
  have := n.toNat_lt
  omega

theorem challenge_composed (h : a.Valid) : Composed (challengeMembers a) challengeNames := by
  obtain ⟨hsender, hdevice, -, hnonce, -⟩ := h
  refine ⟨rfl, by decide, ?_⟩
  intro m hm
  simp only [challengeMembers, List.mem_cons, List.not_mem_nil, or_false] at hm
  rcases hm with rfl | rfl | rfl | rfl | rfl | rfl | rfl | rfl | rfl | rfl | rfl | rfl
  · exact ⟨by decide, .inr (by decide)⟩
  · exact (by decide : 6 < 2 ^ 53)
  · exact ⟨by decide, .inr (by decide)⟩
  · exact fine_senderId hsender
  · exact fine_hex (by decide) hdevice
  · exact small _
  · exact fine_hex (by decide) hnonce
  · exact ⟨by decide, .inr (by decide)⟩
  · exact ⟨by decide, .inr (by decide)⟩
  · exact small _
  · exact small _
  · exact small _

theorem challenge_short (h : a.Valid) :
    (Object.text (authChallenge a.challenge)).length ≤ 2048 := by
  rw [challenge_text]
  exact (challenge_composed h).short

/-- The challenge as the Receiver takes it down. -/
def challengeState (a : AuthTuple) : AuthChallengeState :=
  ⟨a.senderId, a.deviceId, a.nonce, a.sourceEpoch.toNat, a.contract⟩

theorem contract_read {a : AuthTuple} {members : Members} (hflat : Flat members)
    (hvalid : isValidMediaContract a.contract = true)
    (hwidth : (ascii "width", .count a.width.toNat) ∈ members)
    (hheight : (ascii "height", .count a.height.toNat) ∈ members)
    (hfps : (ascii "maxFps", .count a.maxFps.toNat) ∈ members) :
    parseMediaContract (objectOf members).stringify = some a.contract := by
  have hlarge : ∀ n : UInt32, ¬ ((n.toNat : Int) > Receiver.uint32Max) := by
    intro n
    have := n.toNat_lt
    simp only [Receiver.uint32Max]
    omega
  have hpositive : a.width.toNat ≠ 0 ∧ a.height.toNat ≠ 0 ∧ a.maxFps.toNat ≠ 0 := by
    unfold isValidMediaContract at hvalid
    rw [Bool.if_false_left, Bool.and_eq_true, Bool.not_eq_true', decide_eq_false_iff_not,
      not_or, not_or, not_or, not_or, not_or] at hvalid
    exact ⟨hvalid.1.1, hvalid.1.2.1, hvalid.1.2.2.2.2.1⟩
  unfold parseMediaContract
  rw [hflat.jsonInteger hwidth, hflat.jsonInteger hheight, hflat.jsonInteger hfps]
  dsimp only
  rw [if_neg]
  · exact if_pos hvalid
  · simp only [not_or]
    exact ⟨by omega, by omega, by omega, hlarge _, hlarge _, hlarge _⟩

theorem text_read {members : Members} (h : Flat members) (name : String) (value : Bytes)
    (hm : (ascii name, .text value) ∈ members) :
    Receiver.text (objectOf members).stringify name = value := by
  rw [Receiver.text, h.jsonString hm, Option.getD_some]

theorem textIs_read {members : Members} (h : Flat members) (name : String) (value : Bytes)
    (hm : (ascii name, .text value) ∈ members) (expected : String) :
    textIs (objectOf members).stringify name expected = decide (value = ascii expected) := by
  rw [textIs, h.jsonString hm, Bool.eq_iff_iff]
  simp

/-- The Receiver reads the challenge that the script made. -/
theorem challenge_read (h : a.Valid) :
    parseAuthChallenge (Object.text (authChallenge a.challenge)) = some (challengeState a) := by
  have hflat := (challenge_composed h).flat
  obtain ⟨hsender, hdevice, hepoch, hnonce, hvalid⟩ := h
  have hbound := a.sourceEpoch.toNat_lt
  rw [challenge_text]
  have hcodec : codecValid (objectOf (challengeMembers a)).stringify = true := by
    rw [codecValid, textIs_read hflat "mode" (ascii "auth") (by simp [challengeMembers]),
      textIs_read hflat "codec" (ascii "video/avc") (by simp [challengeMembers]),
      textIs_read hflat "avcFormat" (ascii "annexb") (by simp [challengeMembers])]
    simp
  have hepochRead : jsonInteger (objectOf (challengeMembers a)).stringify (ascii "sourceEpoch") =
      some (a.sourceEpoch.toNat : Int) := hflat.jsonInteger (by simp [challengeMembers])
  unfold parseAuthChallenge
  rw [text_read hflat "senderId" a.senderId (by simp [challengeMembers]),
    text_read hflat "deviceId" a.deviceId (by simp [challengeMembers]),
    text_read hflat "nonce" a.nonce (by simp [challengeMembers]),
    hepochRead,
    contract_read hflat hvalid (by simp [challengeMembers]) (by simp [challengeMembers])
      (by simp [challengeMembers])]
  have htaken : ¬ ((!senderIdValid a.senderId) = true ∨ (!hex a.deviceId 32) = true ∨
      (!hex a.nonce 64) = true ∨ (a.sourceEpoch.toNat : Int) ≤ 0 ∨
      (a.sourceEpoch.toNat : Int) > Receiver.uint32Max ∨
      (!codecValid (objectOf (challengeMembers a)).stringify) = true) := by
    simp only [hsender, hdevice, hnonce, hcodec, Bool.not_true, Bool.false_eq_true, false_or,
      or_false, Receiver.uint32Max]
    omega
  dsimp only
  rw [if_neg htaken]
  rfl

theorem challenge_type (h : a.Valid) (expected : String) :
    textIs (Object.text (authChallenge a.challenge)) "type" expected =
      decide (ascii "auth_challenge" = ascii expected) := by
  rw [challenge_text]
  exact textIs_read (challenge_composed h).flat "type" (ascii "auth_challenge") (by simp [challengeMembers])
    expected

theorem challenge_protocol (h : a.Valid) :
    jsonInteger (Object.text (authChallenge a.challenge)) (ascii "protocol") = some 6 := by
  rw [challenge_text]
  exact (challenge_composed h).flat.jsonInteger (by simp [challengeMembers])

end Challenge

section Final
variable {a : AuthTuple} {credential : Bytes}

def finalMembers (a : AuthTuple) (credential : Bytes) : Members :=
  [(ascii "type", .text (ascii "auth")), (ascii "protocol", .count 6),
    (ascii "mode", .text (ascii "auth")), (ascii "senderId", .text a.senderId),
    (ascii "deviceId", .text a.deviceId), (ascii "credential", .text credential),
    (ascii "sourceEpoch", .count a.sourceEpoch.toNat),
    (ascii "nonce", .text a.nonce), (ascii "codec", .text (ascii "video/avc")),
    (ascii "avcFormat", .text (ascii "annexb")), (ascii "width", .count a.width.toNat),
    (ascii "height", .count a.height.toNat), (ascii "maxFps", .count a.maxFps.toNat)]

def finalNames : List Bytes :=
  ["type", "protocol", "mode", "senderId", "deviceId", "credential", "sourceEpoch", "nonce", "codec",
    "avcFormat", "width", "height", "maxFps"].map ascii

theorem final_text (a : AuthTuple) (credential : Bytes) :
    Object.text (authSecretRequest credential a.challenge) =
      (objectOf (finalMembers a credential)).stringify := rfl

theorem final_composed (h : a.Valid) (hcredential : hex credential 64 = true) :
    Composed (finalMembers a credential) finalNames := by
  obtain ⟨hsender, hdevice, -, hnonce, -⟩ := h
  refine ⟨rfl, by decide, ?_⟩
  intro m hm
  simp only [finalMembers, List.mem_cons, List.not_mem_nil, or_false] at hm
  rcases hm with rfl | rfl | rfl | rfl | rfl | rfl | rfl | rfl | rfl | rfl | rfl | rfl | rfl
  · exact ⟨by decide, .inr (by decide)⟩
  · exact (by decide : 6 < 2 ^ 53)
  · exact ⟨by decide, .inr (by decide)⟩
  · exact fine_senderId hsender
  · exact fine_hex (by decide) hdevice
  · exact fine_hex (by decide) hcredential
  · exact small _
  · exact fine_hex (by decide) hnonce
  · exact ⟨by decide, .inr (by decide)⟩
  · exact ⟨by decide, .inr (by decide)⟩
  · exact small _
  · exact small _
  · exact small _

/-- The Receiver finds its challenge completed. -/
theorem final_read (h : a.Valid) (hcredential : hex credential 64 = true) :
    authFinalValid (challengeState a) (Object.text (authSecretRequest credential a.challenge)) = true ∧
      Receiver.text (Object.text (authSecretRequest credential a.challenge)) "credential" = credential ∧
      jsonInteger (Object.text (authSecretRequest credential a.challenge)) (ascii "protocol") =
        some 6 ∧
      (Object.text (authSecretRequest credential a.challenge)).length ≤ 2048 := by
  have hcomposed := final_composed h hcredential
  have hflat := hcomposed.flat
  have hepoch : jsonInteger (objectOf (finalMembers a credential)).stringify (ascii "sourceEpoch") =
      some (a.sourceEpoch.toNat : Int) := hflat.jsonInteger (by simp [finalMembers])
  have hread := text_read hflat "credential" credential (by simp [finalMembers])
  rw [final_text]
  refine ⟨?_, hread, hflat.jsonInteger (by simp [finalMembers]), hcomposed.short⟩
  unfold authFinalValid
  rw [codecValid, textIs_read hflat "type" (ascii "auth") (by simp [finalMembers]),
    textIs_read hflat "mode" (ascii "auth") (by simp [finalMembers]),
    textIs_read hflat "codec" (ascii "video/avc") (by simp [finalMembers]),
    textIs_read hflat "avcFormat" (ascii "annexb") (by simp [finalMembers]),
    text_read hflat "senderId" a.senderId (by simp [finalMembers]),
    text_read hflat "deviceId" a.deviceId (by simp [finalMembers]),
    text_read hflat "nonce" a.nonce (by simp [finalMembers]), hepoch,
    contract_read hflat h.2.2.2.2 (by simp [finalMembers]) (by simp [finalMembers])
      (by simp [finalMembers]), hread, hcredential]
  simp [challengeState]

end Final

section Proof
open Json JsonFields
variable {a : AuthTuple} {proof : Bytes}

def proofMembers (a : AuthTuple) (proof : Bytes) : Members :=
  [(ascii "type", .text (ascii "auth_proof")), (ascii "protocol", .count 6),
    (ascii "mode", .text (ascii "auth")), (ascii "senderId", .text a.senderId),
    (ascii "deviceId", .text a.deviceId), (ascii "sourceEpoch", .count a.sourceEpoch.toNat),
    (ascii "nonce", .text a.nonce), (ascii "proof", .text proof)]

def proofNames : List Bytes :=
  ["type", "protocol", "mode", "senderId", "deviceId", "sourceEpoch", "nonce", "proof"].map ascii

def authProof (a : AuthTuple) (proof : Bytes) : Reply :=
  .authProof a.senderId a.deviceId a.sourceEpoch.toNat a.nonce proof

theorem proof_composed (h : a.Valid) (hproof : hex proof 64 = true) :
    Composed (proofMembers a proof) proofNames := by
  obtain ⟨hsender, hdevice, -, hnonce, -⟩ := h
  refine ⟨rfl, by decide, ?_⟩
  intro m hm
  simp only [proofMembers, List.mem_cons, List.not_mem_nil, or_false] at hm
  rcases hm with rfl | rfl | rfl | rfl | rfl | rfl | rfl | rfl
  · exact ⟨by decide, .inr (by decide)⟩
  · exact (by decide : 6 < 2 ^ 53)
  · exact ⟨by decide, .inr (by decide)⟩
  · exact fine_senderId hsender
  · exact fine_hex (by decide) hdevice
  · exact small _
  · exact fine_hex (by decide) hnonce
  · exact fine_hex (by decide) hproof

theorem proof_text (h : a.Valid) (hproof : hex proof 64 = true) :
    (authProof a proof).text = (objectOf (proofMembers a proof)).stringify := by
  have hflat := (proof_composed h hproof).flat
  have hsender := hflat.plain (ascii "senderId") a.senderId (by simp [proofMembers])
  have hdevice := hflat.plain (ascii "deviceId") a.deviceId (by simp [proofMembers])
  have hnonce := hflat.plain (ascii "nonce") a.nonce (by simp [proofMembers])
  have hproof := hflat.plain (ascii "proof") proof (by simp [proofMembers])
  have hfront : ascii "\x7b\"type\":\"auth_proof\",\"protocol\":6,\"mode\":\"auth\",\"senderId\":\"" =
      0x7b :: (memberText (ascii "type", .text (ascii "auth_proof")) ++ [0x2c] ++
        memberText (ascii "protocol", .count 6) ++ [0x2c] ++
        memberText (ascii "mode", .text (ascii "auth")) ++ [0x2c] ++
        quotedName "senderId" ++ [0x22]) := by decide
  have hdeviceId : ascii "\",\"deviceId\":\"" = [0x22, 0x2c] ++ quotedName "deviceId" ++ [0x22] := by
    decide
  have hepoch : ascii "\",\"sourceEpoch\":" = [0x22, 0x2c] ++ quotedName "sourceEpoch" := by
    decide
  have hnonceName : ascii ",\"nonce\":\"" = [0x2c] ++ quotedName "nonce" ++ [0x22] := by
    decide
  have hproofName : ascii "\",\"proof\":\"" = [0x22, 0x2c] ++ quotedName "proof" ++ [0x22] := by
    decide
  have hend : ascii "\"\x7d" = [0x22, 0x7d] := by decide
  rw [hflat.members_text]
  simp only [authProof, Reply.text, hfront, hdeviceId, hepoch, hnonceName, hproofName, hend,
    proofMembers, List.map_cons, List.map_nil, memberText_text hsender, memberText_text hdevice,
    memberText_text hnonce, memberText_text hproof, memberText_count (ascii "sourceEpoch")]
  simp [quotedName, quoted, comma, colon]

end Proof

section Ready
open Json JsonFields

def readyMembers (a : AuthTuple) : Members :=
  [(ascii "type", .text (ascii "ready")), (ascii "protocol", .count 6),
    (ascii "sourceEpoch", .count a.sourceEpoch.toNat), (ascii "width", .count a.width.toNat),
    (ascii "height", .count a.height.toNat), (ascii "maxFps", .count a.maxFps.toNat)]

def readyNames : List Bytes :=
  ["type", "protocol", "sourceEpoch", "width", "height", "maxFps"].map ascii

def ready (a : AuthTuple) : Reply := .ready a.sourceEpoch.toNat a.contract

theorem ready_composed (a : AuthTuple) : Composed (readyMembers a) readyNames := by
  refine ⟨rfl, by decide, ?_⟩
  intro m hm
  simp only [readyMembers, List.mem_cons, List.not_mem_nil, or_false] at hm
  rcases hm with rfl | rfl | rfl | rfl | rfl | rfl
  · exact ⟨by decide, .inr (by decide)⟩
  · exact (by decide : 6 < 2 ^ 53)
  · exact small _
  · exact small _
  · exact small _
  · exact small _

theorem ready_text (a : AuthTuple) :
    (ready a).text = (objectOf (readyMembers a)).stringify := by
  have hfront : ascii "\x7b\"type\":\"ready\",\"protocol\":6,\"sourceEpoch\":" =
      0x7b :: (memberText (ascii "type", .text (ascii "ready")) ++ [0x2c] ++
        memberText (ascii "protocol", .count 6) ++ [0x2c] ++ quotedName "sourceEpoch") := by
    decide
  have hname : ∀ name ∈ ["width", "height", "maxFps"],
      ascii (",\"" ++ name ++ "\":") = 0x2c :: quotedName name := by decide
  have hwidth : ascii ",\"width\":" = 0x2c :: quotedName "width" := hname "width" (by simp)
  have hheight : ascii ",\"height\":" = 0x2c :: quotedName "height" := hname "height" (by simp)
  have hfps : ascii ",\"maxFps\":" = 0x2c :: quotedName "maxFps" := hname "maxFps" (by simp)
  have hend : ascii "\x7d" = [0x7d] := by decide
  rw [(ready_composed a).flat.members_text]
  simp only [ready, Reply.text, hfront, hwidth, hheight, hfps, hend, readyMembers, List.map_cons,
    List.map_nil, memberText_count (ascii "sourceEpoch"), memberText_count (ascii "width"),
    memberText_count (ascii "height"), memberText_count (ascii "maxFps"), AuthTuple.contract]
  simp [quotedName, quoted, comma, colon]

def errorMembers (code : ErrorCode) : Members :=
  [(ascii "type", .text (ascii "error")), (ascii "protocol", .count 6),
    (ascii "code", .text code.text)]

def errorNames : List Bytes := ["type", "protocol", "code"].map ascii

theorem error_composed (code : ErrorCode) : Composed (errorMembers code) errorNames := by
  refine ⟨rfl, by decide, ?_⟩
  intro m hm
  simp only [errorMembers, List.mem_cons, List.not_mem_nil, or_false] at hm
  rcases hm with rfl | rfl | rfl
  · exact ⟨by decide, .inr (by decide)⟩
  · exact (by decide : 6 < 2 ^ 53)
  · cases code <;> exact ⟨by decide, .inr (by decide)⟩

theorem error_text (code : ErrorCode) :
    (Reply.error code).text = (objectOf (errorMembers code)).stringify := by
  cases code <;> decide

end Ready

section Browser
open Lib.Json JsonFields
open Extension (Number Value)

/-- A member of a flat object, and what follows it. -/
def readMember : Bytes → Option ((Bytes × Extension.Value) × Bytes)
  | 0x22 :: text =>
    match text.dropWhile (· ≠ 0x22) with
    | 0x22 :: 0x3a :: 0x22 :: value =>
      some ((text.takeWhile (· ≠ 0x22), .string (value.takeWhile (· ≠ 0x22))),
        (value.dropWhile (· ≠ 0x22)).drop 1)
    | 0x22 :: 0x3a :: value =>
      some ((text.takeWhile (· ≠ 0x22), .ofNumber (.integer (magnitude (value.takeWhile isDigit)))),
        value.dropWhile isDigit)
    | _ => none
  | _ => none

def readMembers : Nat → Bytes → Option (List (Bytes × Extension.Value))
  | 0, _ => none
  | fuel + 1, text =>
    match readMember text with
    | some (m, 0x2c :: rest) => (readMembers fuel rest).map (m :: ·)
    | some (m, [0x7d]) => some [m]
    | _ => none

/-- `JSON.parse` of flat objects. -/
def parseFlat : Bytes → Option Extension.Value
  | [0x7b, 0x7d] => some (.object [])
  | 0x7b :: text => (readMembers text.length text).map .object
  | _ => none

/-- A browser that parses no other texts. -/
def browser : Extension.Platform := ⟨parseFlat, hmacSha256⟩

variable {members : Members}

theorem until_quote {text : Bytes} (h : (0x22 : UInt8) ∉ text) (more : Bytes) :
    (text ++ 0x22 :: more).takeWhile (· ≠ 0x22) = text ∧
      (text ++ 0x22 :: more).dropWhile (· ≠ 0x22) = 0x22 :: more := by
  have hall : ∀ b ∈ text, decide (b ≠ 0x22) = true := by
    intro b hb
    exact decide_eq_true fun hquote => h (hquote ▸ hb)
  rw [List.takeWhile_append_of_pos hall, List.dropWhile_append_of_pos hall]
  simp

/-- What may follow a member. -/
def Ends (more : Bytes) : Prop := ∃ b rest, more = b :: rest ∧ (b = comma ∨ b = 0x7d)

theorem until_end {n : Nat} {more : Bytes} (h : Ends more) :
    (decimal n ++ more).takeWhile isDigit = decimal n ∧
      (decimal n ++ more).dropWhile isDigit = more := by
  have hall : ∀ b ∈ decimal n, isDigit b = true := by
    intro b hb
    obtain ⟨hlow, hhigh⟩ := decimal_digits n b hb
    simp [isDigit, hlow, hhigh]
  obtain ⟨b, rest, rfl, hb⟩ := h
  have hstop : isDigit b = false := by
    rcases hb with rfl | rfl <;> rfl
  rw [List.takeWhile_append_of_pos hall, List.dropWhile_append_of_pos hall]
  simp [hstop]

theorem readMember_eq (h : Flat members) {m : Bytes × Scalar} (hm : m ∈ members) {more : Bytes}
    (hmore : Ends more) : readMember (memberText m ++ more) = some ((m.1, m.2.value), more) := by
  obtain ⟨name, scalar⟩ := m
  have hname := until_quote (letters_unquoted (h.names _ hm))
  cases scalar with
  | text value =>
    have hplain := h.plain name value hm
    have hunquoted : (0x22 : UInt8) ∉ value := fun hmem => (hplain _ hmem).1.2.1 rfl
    have htext : memberText (name, .text value) ++ more =
        0x22 :: (name ++ 0x22 :: 0x3a :: 0x22 :: (value ++ 0x22 :: more)) := by
      simp [memberText_text hplain, quoted, colon]
    obtain ⟨htake, hdrop⟩ := hname (0x3a :: 0x22 :: (value ++ 0x22 :: more))
    obtain ⟨vtake, vdrop⟩ := until_quote hunquoted more
    rw [htext, readMember, hdrop, htake]
    change some ((name, Extension.Value.string (value ++ 0x22 :: more |>.takeWhile (· ≠ 0x22))),
      (value ++ 0x22 :: more |>.dropWhile (· ≠ 0x22)).drop 1) = _
    rw [vtake, vdrop]
    rfl
  | count value =>
    have htext : memberText (name, .count value) ++ more =
        0x22 :: (name ++ 0x22 :: 0x3a :: (decimal value ++ more)) := by
      simp [memberText_count, quoted, colon]
    obtain ⟨htake, hdrop⟩ := hname (0x3a :: (decimal value ++ more))
    obtain ⟨vtake, vdrop⟩ := until_end (n := value) hmore
    obtain ⟨b, digits, hdigits⟩ : ∃ b digits, decimal value = b :: digits :=
      List.exists_cons_of_ne_nil (decimal_ne_nil value)
    have hb : b ≠ 0x22 := by
      rintro rfl
      exact absurd (decimal_digits value 0x22 (by simp [hdigits])).1 (by decide)
    rw [htext, readMember, hdrop, htake]
    rw [hdigits, List.cons_append] at vtake vdrop ⊢
    split
    · rename_i heq
      simp only [List.cons.injEq] at heq
      exact absurd heq.2.2.1 hb
    · rename_i heq
      simp only [List.cons.injEq, true_and] at heq
      subst heq
      rw [vtake, vdrop, ← hdigits, magnitude_decimal]
      rfl
    · rename_i hnone
      exact absurd rfl (hnone _)

theorem readMembers_eq (h : Flat members) : ∀ (rest : Members) (fuel : Nat), rest ⊆ members →
    rest ≠ [] → rest.length ≤ fuel →
      readMembers fuel ([comma].intercalate (rest.map memberText) ++ [0x7d]) =
        some (rest.map fun m => (m.1, m.2.value)) := by
  intro rest
  induction rest with
  | nil => exact fun _ _ hne => absurd rfl hne
  | cons m rest ih =>
    intro fuel hsub _ hfuel
    obtain ⟨hm, hsub⟩ := List.cons_subset.mp hsub
    match fuel, rest, hfuel with
    | 0, _, hfuel => cases hfuel
    | fuel + 1, [], _ =>
      have hread := @readMember_eq members h m hm [0x7d] ⟨0x7d, [], rfl, .inr rfl⟩
      rw [readMembers, List.map_singleton, List.intercalate_singleton, hread]
      rfl
    | fuel + 1, next :: rest, hfuel =>
      have hread := @readMember_eq members h m hm (comma ::
        ([comma].intercalate ((next :: rest).map memberText) ++ [0x7d])) ⟨comma, _, rfl, .inl rfl⟩
      have htext : [comma].intercalate ((m :: next :: rest).map memberText) ++ [0x7d] =
          memberText m ++ comma :: ([comma].intercalate ((next :: rest).map memberText) ++ [0x7d]) := by
        rw [List.map_cons, List.map_cons, List.intercalate_cons_cons]
        simp
      rw [readMembers, htext, hread]
      have hrest := ih fuel hsub (by simp) (by simpa using hfuel)
      simp only [comma] at hrest ⊢
      rw [hrest]
      rfl

theorem members_length (rest : Members) :
    rest.length ≤ ([comma].intercalate (rest.map memberText)).length := by
  induction rest with
  | nil => exact Nat.zero_le _
  | cons m rest ih =>
    have hone : 1 ≤ (memberText m).length := by
      simp only [memberText, quoted, List.length_append, List.length_cons]
      omega
    cases rest with
    | nil => simpa using hone
    | cons next rest =>
      rw [List.map_cons, List.map_cons, List.intercalate_cons_cons]
      simp only [List.length_cons, List.length_append, List.map_cons] at ih ⊢
      omega

theorem browser_standard : Standard browser where
  parse members h := by
    rw [h.members_text]
    cases members with
    | nil => rfl
    | cons m rest =>
      have hcount : (m :: rest).length ≤
          ([comma].intercalate ((m :: rest).map memberText) ++ [0x7d]).length := by
        rw [List.length_append]
        exact (members_length _).trans (Nat.le_add_right _ _)
      have hread := readMembers_eq h (m :: rest) _ (List.Subset.refl _) (by simp) hcount
      obtain ⟨text, htext⟩ : ∃ text, [comma].intercalate ((m :: rest).map memberText) ++ [0x7d] =
          0x22 :: text := by
        rw [List.map_cons, intercalate_cons]
        exact ⟨_, rfl⟩
      rw [htext] at hread
      rw [List.cons_append, htext]
      change (readMembers (0x22 :: text).length (0x22 :: text)).map Extension.Value.object = _
      rw [hread]
      rfl
  hmac key message := Sha256.hmacSha256_eq key message

end Browser

end HarmonyScreen.Proofs.HonestMessages
