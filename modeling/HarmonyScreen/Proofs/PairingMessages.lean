import HarmonyScreen.Proofs.HonestMessages

namespace HarmonyScreen.Proofs.PairingMessages
open Receiver Receiver.Protocol Receiver.ReceiverSession Lib
open Extension Extension.DirectProtocol Extension.DirectClient FlatObjects ProofMessages HonestMessages

/-- What a pairing between the two ends consists of. -/
structure PairTuple where
  sessionId : Bytes
  token : Bytes
  senderId : Bytes
  nonce : Bytes
  deviceId : Bytes

variable {q : PairTuple} {p : Platform}

def PairTuple.challenge (q : PairTuple) : PairChallenge :=
  ⟨ascii "qr", q.sessionId, q.senderId, q.nonce, q.deviceId⟩

structure PairTuple.Valid (q : PairTuple) : Prop where
  sessionId : hex q.sessionId 32 = true
  token : hex q.token 64 = true
  senderId : senderIdValid q.senderId = true
  nonce : hex q.nonce 64 = true
  deviceId : hex q.deviceId 32 = true

/-- Both ends compute one proof of a pairing. -/
theorem pair_proofs_agree (hp : Standard p) (h : q.Valid) :
    ∃ proof, DirectProtocol.computePairProof p q.token q.challenge = .ok proof ∧
      Protocol.computePairProof q.token (ascii "qr") q.sessionId q.senderId q.nonce q.deviceId = proof ∧
      hex proof 64 = true := by
  obtain ⟨key, hscript, hnative⟩ := hexToBytes_eq 32 "配对令牌格式无效" q.token h.token
  rcases pair_agrees q.challenge with ⟨⟨text, hbad⟩, -⟩ | ⟨hmessage, hlines, -⟩
  · unfold createPairProofMessage at hbad
    rw [if_neg] at hbad
    · cases hbad
    · have hnonce : isProofNonce q.nonce = true := h.nonce
      have hsession : hexTest 32 q.sessionId = true := h.sessionId
      have hsender : senderIdTest q.senderId = true := h.senderId
      have hdevice : hexTest 32 q.deviceId = true := h.deviceId
      simp [hnonce, hsession, hsender, hdevice, PairTuple.challenge]
  · have hne : nativePair q.challenge ≠ [] := by
      rw [hlines]
      exact message_ne_nil _ _ (by decide)
    refine ⟨lowerHex (hmacSha256 key (nativePair q.challenge)), ?_, ?_, proof_hex _ _⟩
    · rw [DirectProtocol.computePairProof, hscript, hmessage]
      exact congrArg Except.ok (hp.hmac_eq key (nativePair q.challenge))
    · unfold Protocol.computePairProof
      rw [hnative]
      exact if_neg hne

/-- The short code that either end derives from a token. -/
theorem short_codes_agree (h : hex q.token 64 = true) :
    shortCodeFromToken q.token = .ok (pairingShortCode q.token) ∧
      (pairingShortCode q.token).length = 6 := by
  have hdigits : (decimal (readHex (q.token.take 12) % 1000000)).length ≤ 6 :=
    decimal_length (by decide) (Nat.mod_lt _ (by decide))
  constructor
  · rw [pairingShortCode, if_pos h]
    exact if_pos h
  · rw [pairingShortCode, if_pos h]
    simp only [List.length_append, List.length_replicate]
    omega

section Requests

def pairChallengeMembers (q : PairTuple) : Members :=
  [(ascii "type", .text (ascii "pair_challenge")), (ascii "protocol", .count 6),
    (ascii "mode", .text (ascii "pair")), (ascii "sessionId", .text q.sessionId),
    (ascii "senderId", .text q.senderId), (ascii "nonce", .text q.nonce)]

def pairChallengeNames : List Bytes :=
  ["type", "protocol", "mode", "sessionId", "senderId", "nonce"].map ascii

theorem pairChallenge_composed (h : q.Valid) :
    Composed (pairChallengeMembers q) pairChallengeNames := by
  refine ⟨rfl, by decide, ?_⟩
  intro m hm
  simp only [pairChallengeMembers, List.mem_cons, List.not_mem_nil, or_false] at hm
  rcases hm with rfl | rfl | rfl | rfl | rfl | rfl
  · exact ⟨by decide, .inr (by decide)⟩
  · exact (by decide : 6 < 2 ^ 53)
  · exact ⟨by decide, .inr (by decide)⟩
  · exact fine_hex (by decide) h.sessionId
  · exact fine_senderId h.senderId
  · exact fine_hex (by decide) h.nonce

def pairFinalMembers (q : PairTuple) : Members :=
  [(ascii "type", .text (ascii "pair")), (ascii "protocol", .count 6),
    (ascii "mode", .text (ascii "pair")), (ascii "sessionId", .text q.sessionId),
    (ascii "token", .text q.token), (ascii "senderId", .text q.senderId),
    (ascii "nonce", .text q.nonce)]

def pairFinalNames : List Bytes :=
  ["type", "protocol", "mode", "sessionId", "token", "senderId", "nonce"].map ascii

theorem pairFinal_composed (h : q.Valid) : Composed (pairFinalMembers q) pairFinalNames := by
  refine ⟨rfl, by decide, ?_⟩
  intro m hm
  simp only [pairFinalMembers, List.mem_cons, List.not_mem_nil, or_false] at hm
  rcases hm with rfl | rfl | rfl | rfl | rfl | rfl | rfl
  · exact ⟨by decide, .inr (by decide)⟩
  · exact (by decide : 6 < 2 ^ 53)
  · exact ⟨by decide, .inr (by decide)⟩
  · exact fine_hex (by decide) h.sessionId
  · exact fine_hex (by decide) h.token
  · exact fine_senderId h.senderId
  · exact fine_hex (by decide) h.nonce

def pairManualMembers (q : PairTuple) : Members :=
  [(ascii "type", .text (ascii "pair_manual_ipv4")), (ascii "protocol", .count 6),
    (ascii "mode", .text (ascii "pair_manual_ipv4")), (ascii "sessionId", .text q.sessionId),
    (ascii "token", .text q.token), (ascii "senderId", .text q.senderId)]

def pairManualNames : List Bytes :=
  ["type", "protocol", "mode", "sessionId", "token", "senderId"].map ascii

theorem pairManual_composed (h : q.Valid) : Composed (pairManualMembers q) pairManualNames := by
  refine ⟨rfl, by decide, ?_⟩
  intro m hm
  simp only [pairManualMembers, List.mem_cons, List.not_mem_nil, or_false] at hm
  rcases hm with rfl | rfl | rfl | rfl | rfl | rfl
  · exact ⟨by decide, .inr (by decide)⟩
  · exact (by decide : 6 < 2 ^ 53)
  · exact ⟨by decide, .inr (by decide)⟩
  · exact fine_hex (by decide) h.sessionId
  · exact fine_hex (by decide) h.token
  · exact fine_senderId h.senderId

end Requests

section Replies
open Json JsonFields

def pairProofMembers (q : PairTuple) (proof : Bytes) : Members :=
  [(ascii "type", .text (ascii "pair_proof")), (ascii "protocol", .count 6),
    (ascii "mode", .text (ascii "pair")), (ascii "proofMode", .text (ascii "qr")),
    (ascii "sessionId", .text q.sessionId), (ascii "senderId", .text q.senderId),
    (ascii "nonce", .text q.nonce), (ascii "deviceId", .text q.deviceId),
    (ascii "proof", .text proof)]

def pairProofNames : List Bytes :=
  ["type", "protocol", "mode", "proofMode", "sessionId", "senderId", "nonce", "deviceId",
    "proof"].map ascii

theorem pairProof_composed (h : q.Valid) {proof : Bytes} (hproof : hex proof 64 = true) :
    Composed (pairProofMembers q proof) pairProofNames := by
  refine ⟨rfl, by decide, ?_⟩
  intro m hm
  simp only [pairProofMembers, List.mem_cons, List.not_mem_nil, or_false] at hm
  rcases hm with rfl | rfl | rfl | rfl | rfl | rfl | rfl | rfl | rfl
  · exact ⟨by decide, .inr (by decide)⟩
  · exact (by decide : 6 < 2 ^ 53)
  · exact ⟨by decide, .inr (by decide)⟩
  · exact ⟨by decide, .inr (by decide)⟩
  · exact fine_hex (by decide) h.sessionId
  · exact fine_senderId h.senderId
  · exact fine_hex (by decide) h.nonce
  · exact fine_hex (by decide) h.deviceId
  · exact fine_hex (by decide) hproof

def pairProof (q : PairTuple) (proof : Bytes) : Reply :=
  .pairProof (ascii "qr") q.sessionId q.senderId q.nonce q.deviceId proof

theorem pairProof_text (h : q.Valid) {proof : Bytes} (hproof : hex proof 64 = true) :
    (pairProof q proof).text = (objectOf (pairProofMembers q proof)).stringify := by
  have hflat := (pairProof_composed h hproof).flat
  have hsession := hflat.plain (ascii "sessionId") q.sessionId (by simp [pairProofMembers])
  have hsender := hflat.plain (ascii "senderId") q.senderId (by simp [pairProofMembers])
  have hnonce := hflat.plain (ascii "nonce") q.nonce (by simp [pairProofMembers])
  have hdevice := hflat.plain (ascii "deviceId") q.deviceId (by simp [pairProofMembers])
  have hproof := hflat.plain (ascii "proof") proof (by simp [pairProofMembers])
  have hmode := hflat.plain (ascii "proofMode") (ascii "qr") (by simp [pairProofMembers])
  have hfront : ascii "\x7b\"type\":\"pair_proof\",\"protocol\":6,\"mode\":\"pair\",\"proofMode\":\"" =
      0x7b :: (memberText (ascii "type", .text (ascii "pair_proof")) ++ [0x2c] ++
        memberText (ascii "protocol", .count 6) ++ [0x2c] ++
        memberText (ascii "mode", .text (ascii "pair")) ++ [0x2c] ++
        quotedName "proofMode" ++ [0x22]) := by decide
  have hname : ∀ name ∈ ["sessionId", "senderId", "nonce", "deviceId", "proof"],
      ascii ("\",\"" ++ name ++ "\":\"") = [0x22, 0x2c] ++ quotedName name ++ [0x22] := by
    decide
  have hsessionName : ascii "\",\"sessionId\":\"" = _ := hname "sessionId" (by simp)
  have hsenderName : ascii "\",\"senderId\":\"" = _ := hname "senderId" (by simp)
  have hnonceName : ascii "\",\"nonce\":\"" = _ := hname "nonce" (by simp)
  have hdeviceName : ascii "\",\"deviceId\":\"" = _ := hname "deviceId" (by simp)
  have hproofName : ascii "\",\"proof\":\"" = _ := hname "proof" (by simp)
  have hend : ascii "\"\x7d" = [0x22, 0x7d] := by decide
  rw [hflat.members_text]
  simp only [pairProof, Reply.text, hfront, hsessionName, hsenderName, hnonceName, hdeviceName,
    hproofName, hend, pairProofMembers, List.map_cons, List.map_nil, memberText_text hsession,
    memberText_text hsender, memberText_text hnonce, memberText_text hdevice, memberText_text hproof,
    memberText_text hmode]
  simp [quotedName, quoted, comma, colon]

def pairedMembers (deviceId credential : Bytes) : Members :=
  [(ascii "type", .text (ascii "paired")), (ascii "protocol", .count 6),
    (ascii "deviceId", .text deviceId), (ascii "credential", .text credential)]

def pairedNames : List Bytes := ["type", "protocol", "deviceId", "credential"].map ascii

theorem paired_composed {deviceId credential : Bytes} (hdevice : hex deviceId 32 = true)
    (hcredential : hex credential 64 = true) :
    Composed (pairedMembers deviceId credential) pairedNames := by
  refine ⟨rfl, by decide, ?_⟩
  intro m hm
  simp only [pairedMembers, List.mem_cons, List.not_mem_nil, or_false] at hm
  rcases hm with rfl | rfl | rfl | rfl
  · exact ⟨by decide, .inr (by decide)⟩
  · exact (by decide : 6 < 2 ^ 53)
  · exact fine_hex (by decide) hdevice
  · exact fine_hex (by decide) hcredential

theorem paired_text {deviceId credential : Bytes} (hdevice : hex deviceId 32 = true)
    (hcredential : hex credential 64 = true) : (Reply.paired deviceId credential).text =
      (objectOf (pairedMembers deviceId credential)).stringify := by
  have hflat := (paired_composed hdevice hcredential).flat
  have hdevicePlain := hflat.plain (ascii "deviceId") deviceId (by simp [pairedMembers])
  have hcredentialPlain := hflat.plain (ascii "credential") credential (by simp [pairedMembers])
  have hfront : ascii "\x7b\"type\":\"paired\",\"protocol\":6,\"deviceId\":\"" =
      0x7b :: (memberText (ascii "type", .text (ascii "paired")) ++ [0x2c] ++
        memberText (ascii "protocol", .count 6) ++ [0x2c] ++ quotedName "deviceId" ++ [0x22]) := by
    decide
  have hname : ascii "\",\"credential\":\"" = [0x22, 0x2c] ++ quotedName "credential" ++ [0x22] := by
    decide
  have hend : ascii "\"\x7d" = [0x22, 0x7d] := by decide
  rw [hflat.members_text]
  simp only [Reply.text, hfront, hname, hend, pairedMembers, List.map_cons, List.map_nil,
    memberText_text hdevicePlain, memberText_text hcredentialPlain]
  simp [quotedName, quoted, comma, colon]

end Replies

end HarmonyScreen.Proofs.PairingMessages
