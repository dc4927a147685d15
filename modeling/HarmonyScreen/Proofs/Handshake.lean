import HarmonyScreen.Proofs.Effects

namespace HarmonyScreen.Proofs.Handshake
open Lib Program Receiver ReceiverSession Effects Protocol

/-- The replies that neither hand out a credential nor announce a source. -/
def plain : Reply → Bool
  | .paired _ _ | .ready _ _ => false
  | _ => true

/-- A section that at most gives a plain reply. -/
inductive Answers (s : ReceiverSession) : ReceiverSession → Prop where
  | aside (h : Aside s t) : Answers s t
  | reply (r : Reply) (whole : Bool) (h : plain r = true) : Answers s (s.note (.reply r whole))

theorem Answers.refl (s : ReceiverSession) : Answers s s := .aside (.refl s)

theorem answers_of_aside {p : Session α} (hp : p.Every Aside) : p.Every Answers :=
  hp.mono fun _ _ => .aside

theorem sendControl_every (reply : Reply)
    (h : ∀ s whole, G s (s.note (.reply reply whole))) : (sendControl reply).Every G := by
  unfold sendControl sendNoted
  rw [every_critical]
  intro s e
  have hreply := h s (s.sendsWhole e reply.text)
  rw [note] at hreply
  simpa only [List.append_nil] using hreply

theorem sendControl_answers (r : Reply) (h : plain r = true) : (sendControl r).Every Answers :=
  sendControl_every r fun _ whole => .reply r whole h

theorem refuse_answers (code : ErrorCode) : (refuse code).Every Answers :=
  (sendControl_answers _ rfl).bind fun _ => every_ret _

theorem pairChallenge_answers (json : Bytes) : (pairChallenge json).Every Answers := by
  unfold pairChallenge
  dsimp only
  split
  · exact refuse_answers _
  refine Every.bind ((every_critical _).mpr fun s _ => .refl s) fun decided => ?_
  split
  · exact refuse_answers _
  split
  · exact refuse_answers _
  refine (sendControl_answers _ rfl).bind fun sent => ?_
  split <;> exact every_ret _

theorem authChallenge_answers (json : Bytes) : (authChallenge json).Every Answers := by
  unfold authChallenge
  split
  · exact refuse_answers _
  refine (load_every _ .refl).bind fun decision => ?_
  split
  · exact refuse_answers _
  dsimp only
  split
  · exact refuse_answers _
  refine (sendControl_answers _ rfl).bind fun sent => ?_
  split <;> exact every_ret _

/-- What a section of the final pairing branch does. -/
inductive PairEffect (s : ReceiverSession) : ReceiverSession → Prop where
  | answers (h : Answers s t) : PairEffect s t
  | commit (challenge : PairChallengeState) (token : Bytes) (e : External) :
      PairEffect s (commitPairing challenge token e s).2
  | paired (grant : Nat) (deviceId credential : Bytes) (whole : Bool) :
      PairEffect s { s with
        log := s.log ++ [.answered grant] ++ [.reply (.paired deviceId credential) whole] }

theorem pairFinal_effect (challenge : PairChallengeState) (json : Bytes) :
    (pairFinal challenge json).Every PairEffect := by
  have hanswers {α : Type} {p : Session α} (hp : p.Every Answers) : p.Every PairEffect :=
    hp.mono fun _ _ => .answers
  unfold pairFinal
  split
  · exact hanswers (refuse_answers _)
  refine Every.bind ((every_critical _).mpr fun s e => .commit challenge _ e) fun committed => ?_
  split
  · exact hanswers (refuse_answers _)
  · rename_i credential grant
    refine Every.bind ((every_critical _).mpr fun s e => .paired grant _ credential _) fun _ => ?_
    exact (hanswers (answers_of_aside (setState_aside _ _ _ _))).bind fun _ => every_ret _

theorem pairManualIpv4_effect (json : Bytes) : (pairManualIpv4 json).Every PairEffect := by
  unfold pairManualIpv4
  dsimp only
  split
  · exact (refuse_answers _).mono fun _ _ => .answers
  · exact (load_every _ fun s => .answers (.refl s)).bind fun _ => pairFinal_effect _ json

/-- What a section of the final authentication branch does. -/
inductive AuthEffect (s : ReceiverSession) : ReceiverSession → Prop where
  | answers (h : Answers s t) : AuthEffect s t
  | preparation (h : PreparationEffect s t) : AuthEffect s t
  | commit (challenge : AuthChallengeState) (credential : Bytes) :
      AuthEffect s (commitAuth challenge credential s).2
  | rollback (challenge : AuthChallengeState) (previous : Previous) :
      AuthEffect s (rollbackAuth challenge previous s)
  | contract (contract : MediaContract) : AuthEffect s { s with decoderMediaContract := contract }
  | ready (epoch : Nat) (contract : MediaContract) (whole : Bool) :
      AuthEffect s (s.note (.reply (.ready epoch contract) whole))

theorem reconfigureDecoder_effect (contract : MediaContract) :
    (reconfigureDecoder contract).Every AuthEffect :=
  reconfigureDecoder_every (fun _ _ => .preparation) (fun _ c => .contract c) contract

/-- What is left of `auth` once the decoder was prepared, or could not be. -/
def concludeAuth (challenge : AuthChallengeState) (previous : Previous) (prepared : Bool) :
    Session Handled := do
  if !prepared then
    modify (rollbackAuth challenge previous)
    refuse .decoderConfigurationFailed
  else
    let sent ← sendControl (.ready challenge.sourceEpoch challenge.mediaContract)
    if !sent then return .returned false
    else
      setState "connected" "电脑已连接，正在准备播放画面" true true
      return .returned true

theorem authFinal_eq (challenge : AuthChallengeState) (json : Bytes) :
    authFinal challenge json =
      if (!authFinalValid challenge json) = true then refuse .challengeStateInvalid
      else (Program.critical fun _ s => commitAuth challenge (text json "credential") s) >>=
        fun committed => match committed with
          | .error code => refuse code
          | .ok previous =>
            if previous.contract = challenge.mediaContract then
              flushDecoder >>= concludeAuth challenge previous
            else reconfigureDecoder challenge.mediaContract >>= concludeAuth challenge previous := by
  rfl

theorem concludeAuth_effect (challenge : AuthChallengeState) (previous : Previous)
    (prepared : Bool) : (concludeAuth challenge previous prepared).Every AuthEffect := by
  unfold concludeAuth
  split
  · refine (modify_every fun s => .rollback challenge previous).bind fun _ => ?_
    exact (refuse_answers _).mono fun _ _ => .answers
  · refine (sendControl_every _ fun s whole => .ready _ _ whole).bind fun sent => ?_
    split
    · exact every_ret _
    · exact ((answers_of_aside (setState_aside _ _ _ _)).mono fun _ _ => .answers).bind fun _ =>
        every_ret _

theorem authFinal_effect (challenge : AuthChallengeState) (json : Bytes) :
    (authFinal challenge json).Every AuthEffect := by
  rw [authFinal_eq]
  split
  · exact (refuse_answers _).mono fun _ _ => .answers
  refine Every.bind ((every_critical _).mpr fun s _ => .commit challenge _) fun committed => ?_
  cases committed with
  | error code => exact (refuse_answers _).mono fun _ _ => .answers
  | ok previous =>
    dsimp only
    split
    · exact (flushDecoder_effect.mono fun _ _ => .preparation).bind
        (concludeAuth_effect challenge previous)
    · exact (reconfigureDecoder_effect _).bind (concludeAuth_effect challenge previous)

/-- What a section of the handshake does. -/
inductive HandshakeEffect (s : ReceiverSession) : ReceiverSession → Prop where
  | message (m : WebSocket.Message) : HandshakeEffect s (s.note (.message m s.source))
  | pair (h : PairEffect s t) : HandshakeEffect s t
  | auth (h : AuthEffect s t) : HandshakeEffect s t

theorem handleMessage_effect (stage : ChallengeStage) (message : WebSocket.Message) :
    (handleMessage stage message).Every HandshakeEffect := by
  have hanswers {p : Session Handled} (hp : p.Every Answers) : p.Every HandshakeEffect :=
    hp.mono fun _ _ h => .pair (.answers h)
  unfold handleMessage
  refine (modify_every fun s => .message message).bind fun _ => ?_
  split
  · exact hanswers (refuse_answers _)
  dsimp only
  split
  · exact hanswers (refuse_answers _)
  cases stage with
  | initial =>
    dsimp only
    split
    · exact (pairManualIpv4_effect _).mono fun _ _ => .pair
    split
    · exact hanswers (pairChallenge_answers _)
    split
    · exact hanswers (authChallenge_answers _)
    · exact hanswers (refuse_answers _)
  | pairFinal challenge => exact (pairFinal_effect challenge _).mono fun _ _ => .pair
  | authFinal challenge => exact (authFinal_effect challenge _).mono fun _ _ => .auth

end HarmonyScreen.Proofs.Handshake
