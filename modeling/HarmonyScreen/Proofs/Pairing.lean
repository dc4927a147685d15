import HarmonyScreen.Proofs.Handshake

namespace HarmonyScreen.Proofs.Pairing
open Lib Program Receiver ReceiverSession Effects Handshake

/-- The fields of the pairing and its authorization. -/
def pairing (s : ReceiverSession) : ReceiverSession :=
  { ({} : ReceiverSession) with
    deviceId := s.deviceId
    trustedSenderId := s.trustedSenderId
    trustedCredential := s.trustedCredential
    pairingRecordVersion := s.pairingRecordVersion
    pendingSessionId := s.pendingSessionId
    pendingToken := s.pendingToken
    pendingShortCode := s.pendingShortCode
    consumedSessionId := s.consumedSessionId
    pairingExpiresAt := s.pairingExpiresAt }

/-- The observations about grants and pairings. -/
def isPairing : Observation → Bool
  | .granted | .presented _ | .paired _ _ | .answered _ | .reply (.paired _ _) _ => true
  | _ => false

/-- A section that has no part in pairing. -/
structure Unpaired (s t : ReceiverSession) : Prop where
  fields : pairing t = pairing s
  log : ∃ os, t.log = s.log ++ os ∧ ∀ o ∈ os, isPairing o = false

theorem Unpaired.refl (s : ReceiverSession) : Unpaired s s := ⟨rfl, [], by simp, by simp⟩

theorem Unpaired.note {s t : ReceiverSession} (o : Observation) (hf : pairing t = pairing s)
    (hl : t.log = s.log ++ [o]) (ho : isPairing o = false) : Unpaired s t :=
  ⟨hf, [o], hl, by simpa using ho⟩

theorem Unpaired.of_aside (h : Aside s t) : Unpaired s t :=
  ⟨h.core_field pairing, [], by simp [h.log], by simp⟩

theorem Unpaired.of_lifecycle (h : LifecycleEffect s t) : Unpaired s t := by
  rcases h with h | h | ⟨o, ho, h⟩
  · exact .of_aside h
  · exact .note .cleared (h.core_field pairing) h.log rfl
  · refine .note o (h.core_field pairing) h.log ?_
    cases o <;> first | rfl | cases ho

theorem Unpaired.of_preparation (h : PreparationEffect s t) : Unpaired s t := by
  rcases h with h | ⟨prepared, h⟩
  · exact .of_lifecycle h
  · exact .note (.prepared prepared) (h.core_field pairing) h.log rfl

theorem Unpaired.of_pumped {s u : ReceiverSession} (h : Pumped s u) : Unpaired s u := by
  obtain ⟨os, hlog, hos⟩ := h.log
  refine ⟨h.outside_field pairing, os, hlog, fun o ho => ?_⟩
  cases hos o ho <;> rfl

theorem Unpaired.trans (h : Unpaired s t) (k : Unpaired t u) : Unpaired s u := by
  obtain ⟨hf, os, hlog, hos⟩ := h
  obtain ⟨kf, ps, klog, kos⟩ := k
  exact ⟨kf.trans hf, os ++ ps, by simp [klog, hlog], fun o ho =>
    (List.mem_append.mp ho).elim (hos o) (kos o)⟩

theorem Unpaired.of_video (h : VideoEffect epoch s t) : Unpaired s t := by
  obtain ⟨houtside, _, os, hlog, hos⟩ := h.feeds
  have hfields : pairing (outside t) = pairing (outside s) := congrArg pairing houtside
  refine ⟨hfields, os, hlog, fun o ho => ?_⟩
  cases hos o ho <;> rfl

theorem Unpaired.of_answers (h : Answers s t) : Unpaired s t := by
  cases h with
  | aside h => exact .of_aside h
  | reply r whole h =>
    refine .note (.reply r whole) rfl rfl ?_
    cases r <;> first | rfl | cases h

theorem commitAuth_unpaired (challenge : AuthChallengeState) (credential : Bytes)
    (s : ReceiverSession) : Unpaired s (commitAuth challenge credential s).2 := by
  unfold commitAuth
  split
  · exact .refl s
  · split
    · exact .refl s
    · exact .refl s
    · exact .note _ rfl rfl rfl

theorem rollbackAuth_unpaired (challenge : AuthChallengeState) (previous : Previous)
    (s : ReceiverSession) : Unpaired s (rollbackAuth challenge previous s) := by
  unfold rollbackAuth
  split
  · exact ⟨rfl, [], by simp, by simp⟩
  · exact .refl s

theorem Unpaired.of_auth (h : AuthEffect s t) : Unpaired s t := by
  cases h with
  | answers h => exact .of_answers h
  | preparation h => exact .of_preparation h
  | commit challenge credential => exact commitAuth_unpaired challenge credential s
  | rollback challenge previous => exact rollbackAuth_unpaired challenge previous s
  | contract contract => exact ⟨rfl, [], by simp, by simp⟩
  | ready epoch contract whole => exact .note _ rfl rfl rfl

theorem unpaired_of_answers {p : Session α} (hp : p.Every Answers) : p.Every Unpaired :=
  hp.mono fun _ _ => .of_answers

theorem load_unpaired (read : ReceiverSession → α) : (load read).Every Unpaired :=
  load_every read .refl

theorem refuse_unpaired (code : ErrorCode) : (refuse code).Every Unpaired :=
  unpaired_of_answers (refuse_answers code)

theorem pairChallenge_unpaired (json : Bytes) : (pairChallenge json).Every Unpaired :=
  unpaired_of_answers (pairChallenge_answers json)

theorem authChallenge_unpaired (json : Bytes) : (authChallenge json).Every Unpaired :=
  unpaired_of_answers (authChallenge_answers json)

theorem authFinal_unpaired (challenge : AuthChallengeState) (json : Bytes) :
    (authFinal challenge json).Every Unpaired :=
  (authFinal_effect challenge json).mono fun _ _ => .of_auth

/-- The pairing is refused at its commit: the authorization is not accepted, no
random bytes can be read, or the device id is no longer the challenge's. -/
def Refused (a : PairingAttempt) : Prop :=
  Protocol.evaluatePairingAuthorization a.challenge.sessionId a.token a.pendingSessionId
      a.pendingToken a.pendingShortCode a.consumedSessionId (milliseconds a.pairingExpiresAt)
      (milliseconds a.now) ≠ .accepted ∨
    a.random = false ∨ a.deviceId ≠ a.challenge.deviceId

theorem randomHex_eq_nil (random : Option (Nat → UInt8)) : randomHex random 32 = [] ↔ random = none := by
  cases random with
  | none => simp [randomHex]
  | some bytes =>
    refine ⟨fun h => ?_, fun h => by simp at h⟩
    have := congrArg List.length h
    simp [randomHex] at this

/-- Everything the commit of a pairing can do: it refuses and only records the
attempt, or it accepts and writes the new pairing. -/
theorem commitPairing_cases (challenge : PairChallengeState) (token : Bytes) (e : External)
    (s : ReceiverSession) :
    (Refused (s.attempt challenge token e) ∧ ∃ code, commitPairing challenge token e s =
      (.error code, s.note (.presented (s.attempt challenge token e)))) ∨
    (¬ Refused (s.attempt challenge token e) ∧ commitPairing challenge token e s =
      (.ok (randomHex e.random 32, s.grants),
        (s.note (.presented (s.attempt challenge token e))).acceptPairing challenge
          (randomHex e.random 32))) := by
  have hrefused : Refused (s.attempt challenge token e) ↔
      s.evaluateAuthorization challenge.sessionId token e.now ≠ .accepted ∨
        randomHex e.random 32 = [] ∨ s.deviceId ≠ challenge.deviceId := by
    rw [randomHex_eq_nil, ← Option.not_isSome_iff_eq_none, Bool.not_eq_true]
    exact Iff.rfl
  rw [hrefused]
  unfold commitPairing
  generalize s.attempt challenge token e = a
  have hgrants : (s.note (.presented a)).grants = s.grants := by
    simp [grants, note, List.count_append]
  have heval : (s.note (.presented a)).evaluateAuthorization challenge.sessionId token e.now =
      s.evaluateAuthorization challenge.sessionId token e.now := rfl
  have hdevice : (s.note (.presented a)).deviceId = s.deviceId := rfl
  simp only [heval, hdevice, hgrants]
  cases hr : s.evaluateAuthorization challenge.sessionId token e.now with
  | accepted =>
    by_cases hbad : randomHex e.random 32 = [] ∨ s.deviceId ≠ challenge.deviceId
    · exact .inl ⟨.inr hbad, .pairingFailed, by simp [hbad]⟩
    · exact .inr ⟨by simpa using hbad, by simp [hbad]⟩
  | replayed | expired | mismatch => exact .inl ⟨.inl (by simp), _, rfl⟩

end HarmonyScreen.Proofs.Pairing
