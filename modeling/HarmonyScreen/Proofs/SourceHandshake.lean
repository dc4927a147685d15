import HarmonyScreen.Proofs.Pairing
import HarmonyScreen.Proofs.SourceContract

namespace HarmonyScreen.Proofs.SourceHandshake
open Lib Program Receiver ReceiverSession Effects Handshake Network Protocol SourceContract

variable {P : Assertion Respects Agreement} {m : WebSocket.Message} {latest : Nat × MediaContract}
  {source : SourceState} {results : List Bool}

/-- Whatever the network thread asserts, the lifecycle operations keep it. -/
theorem lifecycle_triple (P : Assertion Respects Agreement) {p : Session α}
    (hp : p.Every LifecycleEffect) : Triple P p (fun _ => P) :=
  .every hp fun _ _ hs h => P.stable hs (.of_lifecycle h)

theorem aside_triple (P : Assertion Respects Agreement) {p : Session α} (hp : p.Every Aside) :
    Triple P p (fun _ => P) := lifecycle_triple P (lifecycle_of_aside hp)

theorem load_triple (P : Assertion Respects Agreement) (read : ReceiverSession → α) :
    Triple P (load read) (fun _ => P) := lifecycle_triple P (load_effect read)

theorem steady (P : Assertion Respects Agreement) : Steady P :=
  ⟨Respects.refl, fun _ _ hs h => P.stable hs (.of_aside h)⟩

/-- The queue was emptied and nobody fills it again. -/
def emptied (P : Assertion Respects Agreement) : Assertion Respects Agreement :=
  P.also (fun s => s.decodeQueue = []) fun {s t} h r => by
    have hqueue := r.queue
    rw [h] at hqueue
    exact List.suffix_nil.mp hqueue

theorem clearDecoderQueues_triple (P : Assertion Respects Agreement) :
    Triple P clearDecoderQueues (fun _ => emptied P) :=
  .critical fun _ _ hs => ⟨P.stable hs (.of_lifecycle (.inr (.inl rfl))), rfl⟩

theorem destroyDecoderLocked_triple (P : Assertion Respects Agreement) :
    Triple P destroyDecoderLocked (fun _ => emptied P) := by
  have hrelease : Triple (emptied P) (critical fun (_ : External) (s : ReceiverSession) =>
      (s.decoder, { s with decoder := none })) (fun _ => emptied P) :=
    aside_triple _ ((every_critical _).mpr fun _ _ => rfl)
  have hrest : (setGate .stopped >>= fun _ => requireCodecData).Every Aside :=
    (setGate_aside _).bind fun _ => requireCodecData_aside
  unfold destroyDecoderLocked
  refine .bind Respects.refl (aside_triple P (setGate_aside _)) fun _ =>
    .bind Respects.refl (clearDecoderQueues_triple P) fun _ =>
    .bind Respects.refl hrelease fun decoder => ?_
  split
  · exact lifecycle_triple _ (stopCodec_effect.bind fun _ => destroyCodec_effect.bind fun _ =>
      lifecycle_of_aside hrest)
  · exact aside_triple _ hrest

/-- Behind a flush, successful or not, no input of before is left. -/
theorem flushDecoderLocked_triple (P : Assertion Respects Agreement) :
    Triple P flushDecoderLocked (fun _ => emptied P) := by
  have hcreate {b : Bool} : Triple (emptied P) (load (·.lifecycleState.decoderShouldRun) >>=
      fun shouldRun => if shouldRun then createDecoderLocked else pure b) (fun _ => emptied P) := by
    refine .bind Respects.refl (load_triple _ _) fun shouldRun => ?_
    split
    · exact lifecycle_triple _ createDecoderLocked_effect
    · exact .ret _ fun _ h => h
  unfold flushDecoderLocked
  refine .bind Respects.refl (load_triple P _) fun decoder => ?_
  split
  · refine .bind Respects.refl (aside_triple P (setGate_aside _)) fun _ =>
      .bind Respects.refl (clearDecoderQueues_triple P) fun _ =>
      .bind Respects.refl (lifecycle_triple _ flushCodec_effect) fun flushed => ?_
    have hafter (restarted : Bool) :
        Triple (emptied P) (if evaluateFlushRecovery (flushed == 0) restarted = .resume then pure true
          else destroyDecoderLocked >>= fun _ => load (·.lifecycleState.decoderShouldRun) >>=
            fun shouldRun => if shouldRun then createDecoderLocked else pure false : Session Bool)
          (fun _ => emptied P) := by
      split
      · exact .ret _ fun _ h => h
      · exact .bind Respects.refl (lifecycle_triple _ destroyDecoderLocked_effect) fun _ => hcreate
    split
    · exact .bind Respects.refl (lifecycle_triple _ restartDecoder_effect) hafter
    · exact hafter false
  · exact .bind Respects.refl (aside_triple P (setGate_aside _)) fun _ =>
      .bind Respects.refl (clearDecoderQueues_triple P) fun _ =>
      .bind Respects.refl (aside_triple _ (setGate_aside _)) fun _ => hcreate

/-- It is settled what a preparation comes to. -/
theorem working_prepared {s t : ReceiverSession} (h : Working m latest [] s) (prepared : Bool)
    (hqueue : t.decodeQueue = s.decodeQueue) (hlog : t.log = s.log ++ [.prepared prepared]) :
    Working m latest [prepared] t := by
  obtain ⟨hordered, before, between, hbefore, hquiet⟩ := h
  refine ⟨hordered.extend hlog (by simp [ofHandshake]) (by simp) fun input hi => ?_,
    before, between ++ [.prepared prepared], by simp [hlog, hbefore], hquiet.prepared prepared⟩
  rw [hqueue] at hi
  exact hordered.queue input hi

/-- What both preparations end with. -/
theorem released_triple {Q : Bool → Assertion Respects Agreement} (prepared : Bool)
    (h : ∀ s, P.holds s → (Q prepared).holds { s with
      decoderResyncEvents := s.decoderResyncEvents + 1, log := s.log ++ [.prepared prepared] }) :
    Triple P (requireCodecData >>= fun _ => unlockLifecycle >>= fun _ =>
      countResync prepared >>= fun _ => requestKeyframe >>= fun _ => pure prepared) Q :=
  .bind Respects.refl (aside_triple _ requireCodecData_aside) fun _ =>
    .bind Respects.refl (aside_triple _ unlockLifecycle_aside) fun _ =>
    .bind (Q := fun _ => Q prepared) Respects.refl (.critical fun _ s hs => h s hs) fun _ =>
    .bind Respects.refl (aside_triple _ requestKeyframe_aside) fun _ => .ret prepared fun _ h => h

theorem flushDecoder_triple : Triple (working m latest source []) flushDecoder
    (fun recovered => emptied (working m latest source [recovered])) := by
  unfold flushDecoder
  refine .bind Respects.refl (aside_triple _ (lockLifecycle_aside _)) fun _ =>
    .bind Respects.refl (flushDecoderLocked_triple _) fun recovered => ?_
  refine released_triple recovered fun s hs => ?_
  obtain ⟨⟨hworking, hsource⟩, hempty⟩ := hs
  exact ⟨⟨working_prepared hworking recovered rfl rfl, hsource⟩, hempty⟩

/-- The source once the decoder's contract was set. -/
def withDecoder (source : SourceState) (contract : MediaContract) : SourceState :=
  { source with decoderContract := contract }

theorem setContract_triple (contract : MediaContract) :
    Triple (emptied (working m latest source results))
      (ReceiverSession.modify fun s => { s with decoderMediaContract := contract })
      (fun _ => emptied (working m latest (withDecoder source contract) results)) := by
  refine .critical fun _ s hs => ?_
  obtain ⟨⟨⟨⟨hhistory, hqueue, hordered⟩, hlog⟩, hsource⟩, hempty⟩ := hs
  exact ⟨⟨⟨⟨hhistory, hqueue, hordered⟩, hlog⟩, by rw [← hsource]; rfl⟩, hempty⟩

/-- What a reconfiguration leaves behind: an empty queue and the new contract, or
everything as it was. -/
def reconfigured (m : WebSocket.Message) (latest : Nat × MediaContract) (source : SourceState)
    (contract : MediaContract) (results : List Bool) : Bool → Assertion Respects Agreement
  | true => emptied (working m latest (withDecoder source contract) results)
  | false => working m latest source results

theorem reconfigureDecoder_triple (contract : MediaContract) :
    Triple (working m latest source []) (reconfigureDecoder contract)
      (fun prepared => reconfigured m latest source contract [prepared] prepared) := by
  have hend (prepared : Bool) : Triple (reconfigured m latest source contract [] prepared)
      (requireCodecData >>= fun _ => unlockLifecycle >>= fun _ =>
        countResync prepared >>= fun _ => requestKeyframe >>= fun _ => pure prepared)
      (fun prepared => reconfigured m latest source contract [prepared] prepared) := by
    refine released_triple prepared fun s hs => ?_
    cases prepared with
    | true =>
      obtain ⟨⟨hworking, hsource⟩, hempty⟩ := hs
      exact ⟨⟨working_prepared hworking true rfl rfl, hsource⟩, hempty⟩
    | false => exact ⟨working_prepared hs.1 false rfl rfl, hs.2⟩
  unfold reconfigureDecoder
  split
  · exact .bind (Q := fun _ => working m latest source [false]) Respects.refl
      (.critical fun _ s hs => ⟨working_prepared hs.1 false rfl rfl, hs.2⟩) fun _ =>
      .ret false fun _ h => h
  refine .bind Respects.refl (aside_triple _ (lockLifecycle_aside _)) fun _ =>
    .bind (Q := fun previous => (working m latest source []).when
      (previous = source.decoderContract)) Respects.refl (.critical fun _ s hs => ⟨by rw [← hs.2]; rfl, hs⟩) fun previous =>
    .when fun hprevious => ?_
  refine .bind Respects.refl (destroyDecoderLocked_triple _) fun _ =>
    .bind Respects.refl (setContract_triple contract) fun _ =>
    .bind Respects.refl (load_triple _ _) fun shouldRun => ?_
  have hrestored (s : ReceiverSession)
      (hs : (emptied (working m latest (withDecoder (withDecoder source contract) previous) [])).holds
        s) : (reconfigured m latest source contract [] false).holds s := by
    obtain ⟨⟨hworking, hsource⟩, _⟩ := hs
    exact ⟨hworking, by rw [hsource, hprevious]; rfl⟩
  have hafter (prepared : Bool) :
      Triple (emptied (working m latest (withDecoder source contract) []))
        (if (!prepared) = true then
          (ReceiverSession.modify fun s => { s with decoderMediaContract := previous }) >>= fun _ =>
            requireCodecData >>= fun _ => unlockLifecycle >>= fun _ => countResync prepared >>=
            fun _ => requestKeyframe >>= fun _ => pure prepared
        else requireCodecData >>= fun _ => unlockLifecycle >>= fun _ => countResync prepared >>=
            fun _ => requestKeyframe >>= fun _ => pure prepared : Session Bool)
        (fun prepared => reconfigured m latest source contract [prepared] prepared) := by
    cases prepared with
    | true => exact hend true
    | false =>
      have hback := (setContract_triple previous).weaken (fun _ h => h) fun _ => hrestored
      exact .bind Respects.refl hback fun _ => hend false
  split
  · exact .bind Respects.refl (lifecycle_triple _ createDecoderLocked_effect) hafter
  · exact hafter true

/-- The source between the commit of an authentication and its announcement. -/
def committed (challenge : AuthChallengeState) (latest : Nat × MediaContract) : SourceState :=
  ⟨challenge.sourceEpoch, challenge.sourceEpoch, challenge.mediaContract, latest.2⟩

theorem evaluate_accepted (h : evaluateSourceContract epoch contract latest.1 latest.2 = .accepted) :
    Precedes latest (epoch, contract) := by
  unfold evaluateSourceContract at h
  split at h
  · cases h
  split at h
  · cases h
  rename_i hle hne
  refine ⟨by dsimp only; omega, fun heq => ?_⟩
  by_contra hcontract
  exact hne ⟨heq.symm, fun hsame => hcontract hsame.symm⟩

/-- What the commit of an authentication leaves behind. -/
def decided (m : WebSocket.Message) (latest : Nat × MediaContract) (challenge : AuthChallengeState) :
    Except ErrorCode Previous → Assertion Respects Agreement
  | .error _ => working m latest (agreed latest) []
  | .ok previous => (working m latest (committed challenge latest) []).when
      (previous = ⟨latest.1, latest.2⟩ ∧
        Precedes latest (challenge.sourceEpoch, challenge.mediaContract))

theorem commitAuth_triple (challenge : AuthChallengeState) (credential : Bytes) :
    Triple (working m latest (agreed latest) [])
      (critical fun (_ : External) s => commitAuth challenge credential s)
      (decided m latest challenge) := by
  refine .critical fun _ s hs => ?_
  have hworking := hs.1
  have hlatest : s.latestSourceEpoch = latest.1 := congrArg SourceState.latestEpoch hs.2
  have hcontract : s.activeMediaContract = latest.2 := congrArg SourceState.activeContract hs.2
  have hdecoder : s.decoderMediaContract = latest.2 := congrArg SourceState.decoderContract hs.2
  unfold commitAuth
  rw [hlatest, hcontract]
  split
  · exact hs
  · split
    · exact hs
    · exact hs
    · rename_i haccepted
      refine ⟨⟨rfl, evaluate_accepted haccepted⟩, ⟨?_, ?_⟩, ?_⟩
      · exact hworking.1.extend rfl (by simp [ofHandshake]) (by simp) hworking.1.queue
      · obtain ⟨_, before, between, hlog, hbetween⟩ := hworking
        refine ⟨before, between ++ [.committed challenge.sourceEpoch challenge.mediaContract],
          by simp [hlog], hbetween.append (.not_exchange ?_)⟩
        simp [ofExchange, ofHandshake]
      · rw [ReceiverSession.source, committed, hdecoder]

theorem rollbackAuth_triple (challenge : AuthChallengeState) :
    Triple (working m latest (committed challenge latest) results)
      (ReceiverSession.modify (rollbackAuth challenge ⟨latest.1, latest.2⟩))
      (fun _ => working m latest (agreed latest) results) := by
  refine .critical fun _ s hs => ?_
  obtain ⟨⟨⟨hhistory, hqueue, hordered⟩, hlog⟩, hsource⟩ := hs
  have hepoch : s.activeSourceEpoch = challenge.sourceEpoch :=
    congrArg SourceState.activeEpoch hsource
  have hcontract : s.activeMediaContract = challenge.mediaContract :=
    congrArg SourceState.activeContract hsource
  have hdecoder : s.decoderMediaContract = latest.2 := congrArg SourceState.decoderContract hsource
  dsimp only
  rw [rollbackAuth, if_pos ⟨hepoch, hcontract⟩]
  refine ⟨⟨⟨hhistory, hqueue, hordered⟩, hlog⟩, ?_⟩
  rw [ReceiverSession.source, agreed, hdecoder]

/-- The announcement: everything agrees with it, and no older input is queued. -/
theorem Working.announce {s : ReceiverSession} {epoch : Nat} {contract : MediaContract}
    (h : Working m latest [true] s) (hm : authChallengeOf m = none)
    (hsource : s.source = agreed (epoch, contract)) (hempty : s.decodeQueue = [])
    (hlatest : Precedes latest (epoch, contract)) (whole : Bool) :
    Settled (s.note (.reply (.ready epoch contract) whole)) := by
  obtain ⟨hordered, before, between, hlog, hexchange⟩ := h
  have hbetween := hexchange.handshake
  have hquiet : ∀ o ∈ between, isMessage o = false := fun o ho => isMessage_of (hbetween o ho)
  have hlast : lastSource s.log = latest := lastSource_before hordered hlog (readys_eq_nil hbetween)
  have hafter : (s.note (.reply (.ready epoch contract) whole)).log =
      before ++ .message m (agreed latest) :: (between ++ [.reply (.ready epoch contract) whole]) := by
    simp [note, hlog]
  have hafterMessage : ∀ o ∈ between ++ [.reply (.ready epoch contract) whole],
      isMessage o = false := by
    intro o ho
    rcases List.mem_append.mp ho with ho | ho
    · exact hquiet o ho
    · rw [List.mem_singleton.mp ho]
      rfl
  refine ⟨⟨⟨hordered.history.concat ?_, fun input hi => ?_, ?_⟩, ?_, ?_⟩, ?_⟩
  · intro _ before' m' source' between' challenge heq hbetween' hchallenge
    obtain ⟨_, rfl, _, _⟩ := last_message_unique hquiet
      (fun o ho => isMessage_of (hbetween' o ho)) (hlog.symm.trans heq)
    rw [hm] at hchallenge
    cases hchallenge
  · rw [show (s.note (.reply (.ready epoch contract) whole)).decodeQueue = [] from hempty] at hi
    simp at hi
  · exact ordered_ready hordered.ordered epoch contract whole (hlast ▸ hlatest)
  · intro earlier epoch' contract' whole' heq
    obtain ⟨_, ho⟩ := List.append_inj' heq rfl
    cases ho
    exact congrArg SourceState.decoderContract hsource
  · intro before' m' source' between' heq hmessage' hmem
    obtain ⟨_, _, _, rfl⟩ := last_message_unique hafterMessage hmessage' (hafter.symm.trans heq)
    rcases List.mem_append.mp hmem with hmem | hmem
    · simpa using hexchange.result hmem
    · simp at hmem
  · rw [show (s.note (.reply (.ready epoch contract) whole)).log =
      s.log ++ [.reply (.ready epoch contract) whole] from rfl, lastSource_ready]
    exact hsource

/-- Plain replies to a message that is no challenge. -/
theorem opened_answers (hm : authChallengeOf m = none) (hs : Opened m latest s) (h : Answers s t) :
    Opened m latest t := by
  cases h with
  | aside h => exact hs.respects (.of_aside h)
  | reply r whole h =>
    refine hs.reply r whole (fun epoch contract heq => ?_) fun challenge hchallenge => ?_
    · rw [heq] at h
      cases h
    · rw [hm] at hchallenge
      cases hchallenge

theorem working_opened {latest : Nat × MediaContract} {s : ReceiverSession}
    (hs : (working m latest (agreed latest) results).holds s) : (opened m latest).holds s :=
  hs.1.opened hs.2

theorem answers_triple {p : Session α} (hm : authChallengeOf m = none) (hp : p.Every Answers) :
    Triple (working m latest (agreed latest) results) p (fun _ => settled) := by
  have hopened : Triple (opened m latest) p (fun _ => opened m latest) :=
    .every hp fun _ _ hs h => opened_answers hm hs h
  exact hopened.weaken (fun _ => working_opened) fun _ _ hs => Opened.settled hs

/-- One refusal, fitting whatever was asked. -/
theorem refuse_triple (code : ErrorCode)
    (hanswer : ∀ challenge, authChallengeOf m = some challenge →
      Answered challenge latest (.error code)) :
    Triple (working m latest (agreed latest) []) (refuse code) (fun _ => settled) := by
  unfold refuse
  have hsend : Triple (working m latest (agreed latest) []) (sendControl (.error code))
      (fun _ => settled) := by
    refine sendControl_triple _ fun s whole hs => ?_
    have hreply := (working_opened hs).reply (.error code) whole (by simp) hanswer
    exact hreply.settled
  exact .bind Respects.refl hsend fun _ => .ret _ fun _ h => h

theorem concludeAuth_triple (challenge : AuthChallengeState) (hm : authChallengeOf m = none)
    (hlatest : Precedes latest (challenge.sourceEpoch, challenge.mediaContract)) (prepared : Bool) :
    Triple
      (if prepared then
          emptied (working m latest (agreed (challenge.sourceEpoch, challenge.mediaContract)) [true])
        else working m latest (committed challenge latest) [false])
      (concludeAuth challenge ⟨latest.1, latest.2⟩ prepared) (fun _ => settled) := by
  cases prepared with
  | true =>
    refine .bind (Q := fun _ => settled) Respects.refl
      (sendControl_triple _ fun s whole hs => ?_) fun sent => ?_
    · obtain ⟨⟨hworking, hsource⟩, hempty⟩ := hs
      exact Working.announce hworking hm hsource hempty hlatest whole
    · split
      · exact .ret _ fun _ h => h
      · exact .bind Respects.refl (aside_triple settled (setState_aside _ _ _ _)) fun _ =>
          .ret _ fun _ h => h
  | false =>
    refine .bind Respects.refl (rollbackAuth_triple challenge) fun _ => ?_
    exact answers_triple hm (refuse_answers _)

theorem type_of_challenge {challenge : AuthChallengeState} (h : authChallengeOf m = some challenge) :
    textIs m.payload "type" "auth_challenge" = true := by
  unfold authChallengeOf at h
  split at h
  · rename_i hvalid
    exact hvalid.2.2.2
  · cases h

theorem not_challenge_of_type (value : String) (h : textIs m.payload "type" value = true)
    (hne : ascii value ≠ ascii "auth_challenge") : authChallengeOf m = none := by
  cases hchallenge : authChallengeOf m with
  | none => rfl
  | some challenge =>
    have htype := type_of_challenge hchallenge
    simp only [textIs, beq_iff_eq] at h htype
    rw [h] at htype
    exact absurd (Option.some.inj htype) hne

theorem authFinal_triple (challenge : AuthChallengeState) :
    Triple (working m latest (agreed latest) []) (authFinal challenge m.payload)
      (fun _ => settled) := by
  rw [authFinal_eq]
  split
  · exact refuse_triple _ fun _ _ => .inl rfl
  · rename_i hvalid
    have hm : authChallengeOf m = none := by
      refine not_challenge_of_type "auth" ?_ (by decide)
      simp only [authFinalValid, Bool.not_eq_true', Bool.not_eq_false, Bool.and_eq_true] at hvalid
      exact hvalid.1.1.1.1.1.1.1
    refine .bind Respects.refl (commitAuth_triple challenge _) fun result => ?_
    cases result with
    | error code => exact answers_triple hm (refuse_answers _)
    | ok previous =>
      refine .when fun hprevious => ?_
      obtain ⟨rfl, hlatest⟩ := hprevious
      dsimp only
      split
      · rename_i hsame
        refine .bind Respects.refl flushDecoder_triple fun prepared => ?_
        refine (concludeAuth_triple challenge hm hlatest prepared).weaken (fun s hs => ?_)
          fun _ _ h => h
        cases prepared with
        | true =>
          have hsource : committed challenge latest =
              agreed (challenge.sourceEpoch, challenge.mediaContract) := by
            rw [committed, hsame]
            rfl
          exact hsource ▸ hs
        | false => exact hs.1
      · refine .bind Respects.refl (reconfigureDecoder_triple challenge.mediaContract)
          fun prepared => ?_
        refine (concludeAuth_triple challenge hm hlatest prepared).weaken (fun s hs => ?_)
          fun _ _ h => h
        cases prepared with
        | true => exact hs
        | false => exact hs

theorem opened_pair (hm : authChallengeOf m = none) (hs : Opened m latest s) (h : PairEffect s t) :
    Opened m latest t := by
  cases h with
  | answers h => exact opened_answers hm hs h
  | commit challenge token e =>
    refine hs.respects ?_
    rcases Pairing.commitPairing_cases challenge token e s with ⟨_, code, heq⟩ | ⟨_, heq⟩
    · rw [heq]
      exact ⟨rfl, List.suffix_refl _, [_], rfl, by simp [ofExchange, ofHandshake], by simp⟩
    · rw [heq]
      exact ⟨rfl, List.suffix_refl _, [_, _], List.append_assoc _ _ _, by simp [ofExchange, ofHandshake],
        by simp⟩
  | paired grant deviceId credential whole =>
    have hanswered : Respects s { s with log := s.log ++ [.answered grant] } :=
      ⟨rfl, List.suffix_refl _, [_], rfl, by simp [ofExchange, ofHandshake], by simp⟩
    refine (hs.respects hanswered).reply (.paired deviceId credential) whole (by simp) ?_
    intro challenge hchallenge
    rw [hm] at hchallenge
    cases hchallenge

theorem pair_triple {p : Session α} (hm : authChallengeOf m = none) (hp : p.Every PairEffect) :
    Triple (working m latest (agreed latest) []) p (fun _ => settled) := by
  have hopened : Triple (opened m latest) p (fun _ => opened m latest) :=
    .every hp fun _ _ hs h => opened_pair hm hs h
  exact hopened.weaken (fun _ => working_opened) fun _ _ hs => Opened.settled hs

/-- What a challenge is told in its critical section. -/
def Tells (challenge : AuthChallengeState) (latest : Nat × MediaContract) :
    Except ErrorCode Bytes → Prop
  | .error code => Answered challenge latest (.error code)
  | .ok _ => ∀ r, r ≠ .error .epochStale → r ≠ .error .epochContractMismatch →
      Answered challenge latest r

theorem authChallengeLocked_tells {s : ReceiverSession} (challenge : AuthChallengeState)
    (hsource : s.source = agreed latest) :
    Tells challenge latest (authChallengeLocked challenge s) := by
  have hlatest : s.latestSourceEpoch = latest.1 := congrArg SourceState.latestEpoch hsource
  have hcontract : s.activeMediaContract = latest.2 := congrArg SourceState.activeContract hsource
  unfold authChallengeLocked
  rw [hlatest, hcontract]
  split
  · exact .inr (.inl rfl)
  split
  · exact .inr (.inr (.inl rfl))
  unfold evaluateSourceContract
  by_cases hstale : challenge.sourceEpoch < latest.1
  · rw [if_pos hstale]
    refine .inr (.inr (.inr ⟨⟨fun _ => hstale, fun _ => rfl⟩, fun h => ?_, fun h => ?_⟩))
    · cases h
    · omega
  · rw [if_neg hstale]
    by_cases hmismatch : challenge.sourceEpoch = latest.1 ∧ challenge.mediaContract ≠ latest.2
    · rw [if_pos hmismatch]
      refine .inr (.inr (.inr ⟨⟨fun h => ?_, fun h => absurd h hstale⟩, fun _ => hmismatch,
        fun _ => rfl⟩))
      cases h
    · rw [if_neg hmismatch]
      intro r hr hr'
      exact .inr (.inr (.inr ⟨⟨fun h => absurd h hr, fun h => absurd h hstale⟩,
        fun h => absurd h hr', fun h => absurd h hmismatch⟩))

theorem challenge_unique {challenge challenge' : AuthChallengeState}
    (hparse : parseAuthChallenge m.payload = some challenge)
    (h : authChallengeOf m = some challenge') : challenge' = challenge := by
  unfold authChallengeOf at h
  split at h
  · rw [hparse] at h
    exact (Option.some.inj h).symm
  · cases h

theorem authChallenge_triple :
    Triple (working m latest (agreed latest) []) (authChallenge m.payload) (fun _ => settled) := by
  cases hparse : parseAuthChallenge m.payload with
  | none =>
    have hm : authChallengeOf m = none := by
      unfold authChallengeOf
      rw [hparse, ite_self]
    exact answers_triple hm (authChallenge_answers _)
  | some challenge =>
    have hrefuse (code : ErrorCode) (h : Answered challenge latest (.error code)) :
        Triple (working m latest (agreed latest) []) (refuse code) (fun _ => settled) :=
      refuse_triple code fun other hother => challenge_unique hparse hother ▸ h
    unfold authChallenge
    rw [hparse]
    refine .bind (Q := fun decision => (working m latest (agreed latest) []).when
      (Tells challenge latest decision)) Respects.refl (.critical fun _ s hs => ?_) fun decision =>
      .when fun htells => ?_
    · exact ⟨authChallengeLocked_tells challenge hs.2, hs⟩
    · cases decision with
      | error code => exact hrefuse code htells
      | ok credential =>
        dsimp only
        split
        · exact hrefuse _ (htells _ (by simp) (by simp))
        · refine .bind (Q := fun _ => settled) Respects.refl
            (sendControl_triple _ fun s whole hs => ?_) fun sent => ?_
          · refine Opened.settled (Opened.reply (working_opened hs) _ whole (by simp) ?_)
            intro other hother
            exact challenge_unique hparse hother ▸ htells _ (by simp) (by simp)
          · split
            · exact .ret _ fun _ h => h
            · exact .ret _ fun _ h => h

theorem pairFinal_triple (challenge : PairChallengeState) :
    Triple (working m latest (agreed latest) []) (pairFinal challenge m.payload) (fun _ => settled) := by
  cases hm : authChallengeOf m with
  | none => exact pair_triple hm (pairFinal_effect challenge _)
  | some other =>
    have hinvalid : pairFinalValid challenge m.payload = false := by
      have htype := type_of_challenge hm
      simp only [textIs, beq_iff_eq] at htype
      have hfinal : textIs m.payload "type" "pair" = false := by
        simp [textIs, htype, show ascii "auth_challenge" ≠ ascii "pair" by decide]
      have hmanual : textIs m.payload "type" "pair_manual_ipv4" = false := by
        simp [textIs, htype, show ascii "auth_challenge" ≠ ascii "pair_manual_ipv4" by decide]
      simp [pairFinalValid, hfinal, hmanual]
    unfold pairFinal
    rw [hinvalid]
    exact refuse_triple _ fun _ _ => .inl rfl

theorem handleMessage_triple (stage : ChallengeStage) (message : WebSocket.Message) :
    Triple settled (handleMessage stage message) (fun _ => settled) := by
  unfold handleMessage
  refine .bind (Q := fun _ => .any fun latest => working message latest (agreed latest) [])
    Respects.refl (.critical fun _ s hs => ?_) fun _ => .any fun latest => ?_
  · exact ⟨lastSource s.log, hs.message message, hs.2⟩
  split
  · rename_i hshape
    have hm : authChallengeOf message = none :=
      if_neg fun h => hshape.elim (fun hop => hop h.1) fun hlength => by omega
    exact answers_triple hm (refuse_answers _)
  dsimp only
  split
  · rename_i hprotocol
    have hm : authChallengeOf message = none := if_neg fun h => hprotocol h.2.2.1
    exact answers_triple hm (refuse_answers _)
  cases stage with
  | initial =>
    dsimp only
    split
    · rename_i htype
      exact pair_triple (not_challenge_of_type _ htype (by decide)) (pairManualIpv4_effect _)
    split
    · rename_i htype
      exact answers_triple (not_challenge_of_type _ htype (by decide)) (pairChallenge_answers _)
    split
    · exact authChallenge_triple
    · rename_i htype
      have hm : authChallengeOf message = none := if_neg fun h => htype h.2.2.2
      exact answers_triple hm (refuse_answers _)
  | pairFinal challenge => exact pairFinal_triple challenge
  | authFinal challenge => exact authFinal_triple challenge

/-- What the session's video adds is of the active epoch, which is the latest. -/
theorem handleVideo_settled (data : Bytes) :
    Triple settled (handleVideo data) (fun _ => settled) := by
  obtain ⟨body, heq, hbody⟩ := handleVideo_effect data
  rw [heq]
  let active (epoch : Nat) : Assertion Respects Agreement :=
    settled.also (fun s => s.activeSourceEpoch = epoch) fun {s t} h r =>
      (congrArg SourceState.activeEpoch r.source).trans h
  have hactive (epoch : Nat) (s t : ReceiverSession) (hs : (active epoch).holds s)
      (h : VideoEffect epoch s t) : (active epoch).holds t := by
    obtain ⟨⟨hagreement, hsource⟩, hepoch⟩ := hs
    obtain ⟨houtside, hqueue, os, hlog, hos⟩ := h.feeds
    have hkept : (outside t).source = (outside s).source := congrArg ReceiverSession.source houtside
    have hkept : t.source = s.source := hkept
    have hlast : (lastSource s.log).1 = epoch :=
      (congrArg SourceState.activeEpoch hsource).symm.trans hepoch
    have hnew (input : DecodedInput) (hi : input ∈ s.decodeQueue ∨ input.epoch = epoch)
        (a : Nat × MediaContract) (ha : a ∈ readys s.log) : a.1 ≤ input.epoch := by
      rcases hi with hi | hi
      · exact hagreement.queue input hi a ha
      · rw [hi, ← hlast]
        exact (precedes_last hagreement.ordered ha).1
    have hquiet : ∀ o ∈ os, ofExchange o = false := by
      intro o ho
      cases hos o ho <;> rfl
    refine ⟨⟨hagreement.extend hkept hlog hquiet (fun slot input hmem => ?_) fun input hi =>
      hnew input (hqueue input hi), ?_⟩, (congrArg SourceState.activeEpoch hkept).trans hepoch⟩
    · cases hos _ hmem with
      | pushed _ _ hi => exact hnew input hi
    · rw [hkept, hsource, hlog,
        lastSource_append (readys_eq_nil fun o ho => ofHandshake_of (hquiet o ho))]
  refine .bind (Q := active) Respects.refl (.critical fun _ s hs => ⟨hs, rfl⟩) fun epoch => ?_
  exact (Triple.every (hbody epoch) (hactive epoch)).weaken (fun _ h => h) fun _ _ h => h.1

theorem streams : Streams settled where
  toSteady := steady settled
  reply s r whole hr hs := by
    have hquiet : ∀ o ∈ [Observation.reply r whole], ofExchange o = false := by
      simp [ofExchange, ofHandshake, hr]
    refine ⟨hs.1.extend rfl rfl hquiet (by simp) hs.1.queue, ?_⟩
    rw [show (s.note (.reply r whole)).log = s.log ++ [.reply r whole] from rfl,
      lastSource_append (readys_eq_nil fun o ho => ofHandshake_of (hquiet o ho))]
    exact hs.2
  video := handleVideo_settled

theorem network_triple (turns : List (Option Connection)) :
    Triple settled (networkLoop turns) (fun _ => settled) := by
  have hmessage (stage : ChallengeStage) (message : WebSocket.Message) :
      Triple settled (handleMessage stage message) (afterMessage settled fun _ => settled) := by
    refine (handleMessage_triple stage message).weaken (fun _ h => h) fun handled _ h => ?_
    cases handled with
    | returned => exact h
    | next => exact h
  exact networkLoop_triple (steady settled)
    (authenticateConnection_triple (steady settled) (fun _ => steady settled) (fun _ h => h)
      (fun _ _ h => h) hmessage)
    streams.runConnectedSession turns

/-- The invariant holds in every state of the process. -/
theorem reachable_agreement {c : Config Thread ReceiverSession External} (hc : Reachable c) :
    Agreement c.state := by
  have hinit : Settled {} := by
    refine ⟨⟨⟨.nil, fun input hi => by simp at hi, List.Pairwise.nil⟩, ?_, ?_⟩, rfl⟩
    · intro earlier epoch contract whole heq
      simp at heq
    · intro before m source between heq
      simp at heq
  exact (steady settled).reachable Respects.trans (fun _ _ => .of_other) hinit network_triple hc

end HarmonyScreen.Proofs.SourceHandshake
