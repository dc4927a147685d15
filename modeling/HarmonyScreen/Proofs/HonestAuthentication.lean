import HarmonyScreen.Proofs.AutoContract
import HarmonyScreen.Proofs.Conversing
import HarmonyScreen.Proofs.Handshake
import HarmonyScreen.Proofs.HonestMessages
import HarmonyScreen.Proofs.Serving

namespace HarmonyScreen.Proofs.HonestAuthentication
open Lib Program Receiver Receiver.Protocol Receiver.ReceiverSession Effects Handshake Link
open Extension Extension.DirectClient ProofMessages FlatObjects HonestMessages Conversing Serving

/-- Whom the Receiver trusts, under which name of its own. -/
structure Trust where
  deviceId : Bytes
  senderId : Bytes
  credential : Bytes
  deriving DecidableEq

def trust (s : ReceiverSession) : Trust :=
  ⟨s.deviceId, s.trustedSenderId, s.trustedCredential⟩

/-- The epochs and the contract that the handshake commits. -/
structure Committed where
  latest : Nat
  active : Nat
  contract : MediaContract
  deriving DecidableEq

def committed (s : ReceiverSession) : Committed :=
  ⟨s.latestSourceEpoch, s.activeSourceEpoch, s.activeMediaContract⟩

def view (s : ReceiverSession) : Trust × Committed := (trust s, committed s)

/-- What the other threads do while nobody pairs or forgets a device. -/
def Others (s t : ReceiverSession) : Prop := OtherEffect s t ∧ trust t = trust s

section Interference
variable {s t : ReceiverSession}

theorem view_of_aside (h : Aside s t) : view t = view s := h.core_field view

theorem view_log (s : ReceiverSession) (log : List Receiver.Observation) :
    view { s with log := log } = view s := rfl

theorem lifecycle_quiet (h : LifecycleEffect s t) : view t = view s ∧ Quietly s t := by
  rcases h with h | h | ⟨o, ho, h⟩
  · exact ⟨view_of_aside h, .of_log h.log⟩
  · exact ⟨(view_of_aside h).trans rfl, [.cleared], h.log, by simp [isReply]⟩
  · refine ⟨(view_of_aside h).trans rfl, [o], h.log, ?_⟩
    cases o <;> simp_all [ofCodec, isReply]

theorem preparation_quiet (h : PreparationEffect s t) : view t = view s ∧ Quietly s t := by
  rcases h with h | ⟨prepared, h⟩
  · exact lifecycle_quiet h
  · exact ⟨(view_of_aside h).trans rfl, [.prepared prepared], h.log, by simp [isReply]⟩

theorem ui_quiet (h : UiEffect s t) : committed t = committed s ∧ Quietly s t := by
  cases h with
  | aside h => exact ⟨h.core_field committed, .of_log h.log⟩
  | identify deviceId h => exact ⟨h.core_field committed, .of_log h.log⟩
  | trust deviceId senderId credential version h => exact ⟨h.core_field committed, .of_log h.log⟩
  | grant sessionId token shortCode expiresAt kind h =>
    exact ⟨h.core_field committed, ⟨[.granted], h.log, by simp [isReply]⟩⟩
  | forget h => exact ⟨h.core_field committed, .of_log h.log⟩

theorem needInput_quiet (decoder : Nat) (slot : InputSlot) (s : ReceiverSession) :
    committed (admitSlot decoder slot s) = committed s ∧ Quietly s (admitSlot decoder slot s) := by
  have hpumped := pumpDecoderLocked_pumped decoder
    { s with inputSlots := s.inputSlots ++ [slot], log := s.log ++ [.admitted slot] }
  obtain ⟨os, hlog, hos⟩ := hpumped.log
  refine ⟨hpumped.outside_field committed, .admitted slot :: os, ?_, ?_⟩
  · rw [admitSlot, hlog, List.append_assoc, List.singleton_append]
  · intro o ho
    rcases List.mem_cons.mp ho with rfl | ho
    · rfl
    · cases hos o ho <;> rfl

/-- The other threads neither reply nor touch the source. -/
theorem other_quiet (h : OtherEffect s t) : committed t = committed s ∧ Quietly s t := by
  cases h with
  | lifecycle h => exact ⟨congrArg Prod.snd (lifecycle_quiet h).1, (lifecycle_quiet h).2⟩
  | ui h => exact ui_quiet h
  | needInput decoder slot running current => exact needInput_quiet decoder slot s

theorem others_quiet (h : Others s t) : view t = view s ∧ Quietly s t := by
  obtain ⟨hcommitted, hquiet⟩ := other_quiet h.1
  exact ⟨Prod.ext h.2 hcommitted, hquiet⟩

end Interference

section Receiver
variable (a : AuthTuple) (credential : Bytes) (before : Committed) (begun : Nat)

/-- The proof that both ends compute. -/
def expectedProof : Bytes :=
  Protocol.computeAuthProof credential a.senderId a.deviceId a.sourceEpoch.toNat a.nonce a.contract

def proofReply : Reply := authProof a (expectedProof a credential)

def failure : Reply := .error .decoderConfigurationFailed

/-- The source after a commit. -/
def after : Committed := ⟨a.sourceEpoch.toNat, a.sourceEpoch.toNat, a.contract⟩

/-- The source after a commit that was taken back. -/
def restored : Committed := ⟨before.latest, before.latest, before.contract⟩

def peer : Trust := ⟨a.deviceId, a.senderId, credential⟩

/-- What may have been said while these requests were taken up, and the source meanwhile. -/
def Says : Nat → Trust × Committed → List Reply → Prop
  | 0, v, spoken => v = (peer a credential, before) ∧ spoken = []
  | 1, v, spoken =>
    v = (peer a credential, before) ∧ (spoken = [] ∨ spoken = [proofReply a credential])
  | _, v, spoken =>
    v.1 = peer a credential ∧
      (spoken = [proofReply a credential] ∨
        spoken = [proofReply a credential, ready a] ∧ v.2 = after a ∨
        spoken = [proofReply a credential, failure] ∧ v.2 = restored before)

/-- What the Receiver has come to with a request. -/
def Comes : Nat → Handled → Trust × Committed → List Reply → List Reply → Prop
  | 0, handled, _, spoken, missed => handled = .next .initial ∧ spoken = [] ∧ missed = []
  | 1, handled, _, spoken, missed =>
    handled = .next (.authFinal (challengeState a)) ∧ spoken = [proofReply a credential] ∧ missed = [] ∨
      handled = .returned false ∧ missed ≠ []
  | _, handled, v, spoken, missed =>
    handled = .returned true ∧ spoken = [proofReply a credential, ready a] ∧ missed = [] ∨
      handled = .returned false ∧
        (missed ≠ [] ∨ spoken = [proofReply a credential, failure] ∧ v.2 = restored before)

/-- The discipline of the connection's thread with `n` requests taken up. -/
abbrev authenticating (n : Nat) : Discipline Unit ReceiverSession External :=
  serving begun view (fun _ => True) (Says a credential before n)

variable {a credential before begun}

/-- Where the thread stands while it handles a request. -/
def At (v : Trust × Committed) (spoken : List Reply) :
    Trust × Committed → List Reply → List Reply → Prop :=
  fun v' spoken' missed => v' = v ∧ spoken' = spoken ∧ missed = []

theorem challenge_handled (h : a.Valid) :
    ReceiverSession.handleMessage .initial ⟨.text, Object.text (DirectClient.authChallenge a.challenge)⟩ =
      ReceiverSession.modify (fun s => s.note
        (.message ⟨.text, Object.text (DirectClient.authChallenge a.challenge)⟩ s.source)) >>= fun _ =>
        ReceiverSession.authChallenge (Object.text (DirectClient.authChallenge a.challenge)) := by
  have hshort := challenge_short h
  have htype := challenge_type h
  have hprotocol := challenge_protocol h
  unfold ReceiverSession.handleMessage
  congr 1
  funext _
  rw [if_neg (by simpa using hshort)]
  dsimp only
  rw [hprotocol, if_neg (by decide), htype, htype, htype, if_neg (by decide),
    if_neg (by decide), if_pos (by decide)]

/-- The Receiver proves itself to the peer that it trusts. -/
theorem challenge_taken (h : a.Valid) (hsecret : hex credential 64 = true)
    (haccepted : evaluateSourceContract a.sourceEpoch.toNat a.contract before.latest
      before.contract = .accepted) :
    (authenticating a credential before begun 1).Outline ()
      (About begun view (At (peer a credential, before) []))
      (ReceiverSession.handleMessage .initial
        ⟨.text, Object.text (DirectClient.authChallenge a.challenge)⟩)
      fun handled => About begun view (Comes a credential before 1 handled) := by
  rw [challenge_handled h]
  refine (quiet_outline (message_quiet view_log _)).bind fun _ => ?_
  unfold ReceiverSession.authChallenge
  rw [challenge_read h]
  dsimp only
  have hdecided : ∀ s, About begun view (At (peer a credential, before) []) s →
      authChallengeLocked (challengeState a) s = .ok credential := by
    intro s hs
    obtain ⟨hview, -, -⟩ := hs
    obtain ⟨hpeer, hsource⟩ := Prod.ext_iff.mp hview
    simp only [view, trust, peer, Trust.mk.injEq] at hpeer
    simp only [view, committed] at hsource
    obtain ⟨hdevice, hsender, hcredential⟩ := hpeer
    have hlatest : s.latestSourceEpoch = before.latest := congrArg Committed.latest hsource
    have hcontract : s.activeMediaContract = before.contract := congrArg Committed.contract hsource
    unfold authChallengeLocked
    rw [hsender, hcredential, hdevice, hlatest, hcontract, if_neg, if_neg]
    · simp only [challengeState]
      rw [haccepted]
    · simp [challengeState]
    · simp [senderIdValid_ne_nil h.1, hex_ne_nil hsecret]
  refine .bind (load_outline (R := fun decision => decision = .ok credential) hdecided) fun decision => .when fun hdecision => ?_
  subst hdecision
  dsimp only
  have hproof : Protocol.computeAuthProof credential (challengeState a).senderId
      (challengeState a).deviceId (challengeState a).sourceEpoch (challengeState a).nonce
      (challengeState a).mediaContract ≠ [] :=
    computeAuthProof_ne_nil hsecret h.1 h.2.1 h.2.2.1 h.2.2.2.1 h.2.2.2.2
  rw [if_neg hproof]
  refine .bind (Q := fun sent => About begun view fun v spoken missed =>
    sent = true ∧ At (peer a credential, before) [proofReply a credential] v spoken missed ∨
      sent = false ∧ missed ≠ []) ?_ fun sent => ?_
  · refine send_outline (by simp) view_log _ ?_ ?_
    · rintro v spoken missed - ⟨rfl, rfl, rfl⟩
      exact ⟨⟨rfl, .inr rfl⟩, .inl ⟨rfl, rfl, rfl, rfl⟩⟩
    · rintro v spoken missed - -
      exact .inr ⟨rfl, by simp⟩
  · cases sent with
    | true =>
      refine .ret _ About.stable fun s _ hs => ?_
      rcases hs with ⟨-, -, hspoken, hmissed⟩ | ⟨hbad, -⟩
      · exact .inl ⟨rfl, hspoken, hmissed⟩
      · cases hbad
    | false =>
      refine .ret _ About.stable fun s _ hs => ?_
      rcases hs with ⟨hbad, -⟩ | ⟨-, hmissed⟩
      · cases hbad
      · exact .inr ⟨rfl, hmissed⟩

theorem final_handled (h : a.Valid) (hsecret : hex credential 64 = true) :
    ReceiverSession.handleMessage (.authFinal (challengeState a))
        ⟨.text, Object.text (authSecretRequest credential a.challenge)⟩ =
      ReceiverSession.modify (fun s => s.note
        (.message ⟨.text, Object.text (authSecretRequest credential a.challenge)⟩ s.source)) >>=
        fun _ => ReceiverSession.authFinal (challengeState a)
          (Object.text (authSecretRequest credential a.challenge)) := by
  obtain ⟨-, -, hprotocol, hshort⟩ := final_read h hsecret
  unfold ReceiverSession.handleMessage
  congr 1
  funext _
  rw [if_neg (by simpa using hshort)]
  dsimp only
  rw [hprotocol, if_neg (by decide)]

/-- The commit, from the source that the challenge was accepted at. -/
theorem commitAuth_accepted (hsecret : hex credential 64 = true)
    (haccepted : evaluateSourceContract a.sourceEpoch.toNat a.contract before.latest
      before.contract = .accepted) {s : ReceiverSession} (hview : view s = (peer a credential, before)) :
    commitAuth (challengeState a) credential s = (.ok ⟨before.latest, before.contract⟩,
      { s with
        latestSourceEpoch := a.sourceEpoch.toNat
        activeSourceEpoch := a.sourceEpoch.toNat
        activeMediaContract := a.contract
        log := s.log ++ [.committed a.sourceEpoch.toNat a.contract] }) := by
  obtain ⟨hpeer, hsource⟩ := Prod.ext_iff.mp hview
  simp only [view, trust, peer, Trust.mk.injEq] at hpeer
  simp only [view, HonestAuthentication.committed] at hsource
  obtain ⟨hdevice, hsender, hcredential⟩ := hpeer
  have hlatest : s.latestSourceEpoch = before.latest := congrArg Committed.latest hsource
  have hcontract : s.activeMediaContract = before.contract := congrArg Committed.contract hsource
  have hlength : credential.length = 64 := by
    simp only [hex, Bool.and_eq_true, beq_iff_eq] at hsecret
    exact hsecret.1
  have hequal : constantTimeEqual credential credential = true :=
    (constantTimeEqual_iff _ _).mpr ⟨hlength, rfl⟩
  unfold commitAuth
  rw [if_neg (by simp [challengeState, hsender, hdevice, hcredential, hequal]), hlatest, hcontract]
  simp only [challengeState, haccepted]

/-- What the Receiver does about a decoder that it could prepare, or not. -/
theorem concluded_outline (prepared : Bool) :
    (authenticating a credential before begun 2).Outline ()
      (About begun view (At (peer a credential, after a) [proofReply a credential]))
      (concludeAuth (challengeState a) ⟨before.latest, before.contract⟩ prepared)
      fun handled => About begun view (Comes a credential before 2 handled) := by
  cases prepared with
  | true =>
    refine .bind (Q := fun sent => About begun view fun v spoken missed =>
      sent = true ∧ At (peer a credential, after a) [proofReply a credential, ready a] v spoken missed ∨
        sent = false ∧ missed ≠ []) ?_ fun sent => ?_
    · refine send_outline (by simp) view_log _ ?_ ?_
      · rintro v spoken missed - ⟨rfl, rfl, rfl⟩
        exact ⟨⟨rfl, .inr (.inl ⟨rfl, rfl⟩)⟩, .inl ⟨rfl, rfl, rfl, rfl⟩⟩
      · rintro v spoken missed - -
        exact .inr ⟨rfl, by simp⟩
    · cases sent with
      | true =>
        refine .bind (quiet_outline ((setState_aside _ _ _ _).mono fun s t hs =>
          ⟨view_of_aside hs, .of_log hs.log⟩)) fun _ => .ret _ About.stable fun s _ hs => ?_
        rcases hs with ⟨-, -, hspoken, hmissed⟩ | ⟨hbad, -⟩
        · exact .inl ⟨rfl, hspoken, hmissed⟩
        · cases hbad
      | false =>
        refine .ret _ About.stable fun s _ hs => ?_
        rcases hs with ⟨hbad, -⟩ | ⟨-, hmissed⟩
        · cases hbad
        · exact .inr ⟨rfl, .inl hmissed⟩
  | false =>
    refine .bind (Q := fun _ => About begun view
      (At (peer a credential, restored before) [proofReply a credential])) ?_ fun _ => ?_
    · refine silent_outline fun e s _ _ hs => ?_
      obtain ⟨hview, hspoken, hmissed⟩ := hs
      obtain ⟨hpeer, hsource⟩ := Prod.ext_iff.mp hview
      have hactive : s.activeSourceEpoch = a.sourceEpoch.toNat := congrArg Committed.active hsource
      have hcontract : s.activeMediaContract = a.contract := congrArg Committed.contract hsource
      have hback : view (rollbackAuth (challengeState a) ⟨before.latest, before.contract⟩ s) =
          (peer a credential, restored before) := by
        rw [rollbackAuth, if_pos ⟨hactive, hcontract⟩]
        exact Prod.ext hpeer rfl
      refine ⟨.of_log ?_, ?_, hback, hspoken, hmissed⟩
      · rw [rollbackAuth, if_pos ⟨hactive, hcontract⟩]
      · rw [hback, hspoken]
        exact ⟨rfl, .inl rfl⟩
    · refine .bind (Q := fun _ => About begun view fun v spoken missed =>
        missed ≠ [] ∨ spoken = [proofReply a credential, failure] ∧ v.2 = restored before) ?_ fun _ =>
        .ret _ About.stable fun s _ hs => .inr ⟨rfl, hs⟩
      refine send_outline (by simp) view_log _ ?_ ?_
      · rintro v spoken missed - ⟨rfl, rfl, rfl⟩
        exact ⟨⟨rfl, .inr (.inr ⟨rfl, rfl⟩)⟩, .inr ⟨rfl, rfl⟩⟩
      · rintro v spoken missed - -
        exact .inl (by simp)

/-- The Receiver takes up the source of a peer that has proved itself. -/
theorem final_taken (h : a.Valid) (hsecret : hex credential 64 = true)
    (haccepted : evaluateSourceContract a.sourceEpoch.toNat a.contract before.latest
      before.contract = .accepted) :
    (authenticating a credential before begun 2).Outline ()
      (About begun view (At (peer a credential, before) [proofReply a credential]))
      (ReceiverSession.handleMessage (.authFinal (challengeState a))
        ⟨.text, Object.text (authSecretRequest credential a.challenge)⟩)
      fun handled => About begun view (Comes a credential before 2 handled) := by
  obtain ⟨hvalid, hcredential, -, -⟩ := final_read h hsecret
  rw [final_handled h hsecret]
  refine (quiet_outline (message_quiet view_log _)).bind fun _ => ?_
  rw [authFinal_eq, hvalid, hcredential, if_neg (by decide)]
  refine .bind (Q := fun result => About begun view fun v spoken missed =>
    result = .ok ⟨before.latest, before.contract⟩ ∧
      At (peer a credential, after a) [proofReply a credential] v spoken missed) ?_ fun result =>
    .when (P := About begun view (At (peer a credential, after a) [proofReply a credential]))
      fun hresult => ?_
  · refine silent_outline fun e s _ _ hs => ?_
    obtain ⟨hview, hspoken, hmissed⟩ := hs
    obtain ⟨hpeer, -⟩ := Prod.ext_iff.mp hview
    rw [commitAuth_accepted hsecret haccepted hview]
    refine ⟨⟨[.committed a.sourceEpoch.toNat a.contract], rfl, by simp [isReply]⟩, ?_, rfl, ?_,
      hspoken, hmissed⟩
    · rw [hspoken]
      exact ⟨hpeer, .inl rfl⟩
    · exact Prod.ext hpeer rfl
  · subst hresult
    dsimp only
    split
    · exact .bind (quiet_outline (flushDecoder_effect.mono fun _ _ => preparation_quiet))
        concluded_outline
    · refine .bind (quiet_outline (reconfigureDecoder_every (fun _ _ => preparation_quiet) ?_ _))
        concluded_outline
      exact fun s c => ⟨rfl, .of_log rfl⟩

/-- What may conclude the exchange. -/
def Concludes (a : AuthTuple) (reply : Reply) (outcome : Outcome) : Prop :=
  reply = ready a ∧ outcome = .resolved (objectOf (readyMembers a)) ∨
    reply = failure ∧ outcome = .rejected (.receiver "decoder_configuration_failed")

theorem authentication_serves (h : a.Valid) (hsecret : hex credential 64 = true)
    (haccepted : evaluateSourceContract a.sourceEpoch.toNat a.contract before.latest
      before.contract = .accepted) :
    Serves begun (fun _ => True) Others
      [Object.text (DirectClient.authChallenge a.challenge),
        Object.text (authSecretRequest credential a.challenge)]
      (OfProving (proofReply a credential) (Concludes a))
      (authenticating a credential before begun)
      fun n handled => About begun view (Comes a credential before n handled) where
  offers _ _ _ _ := trivial
  other n s t hs ht := by
    obtain ⟨hview, hquiet⟩ := others_quiet ht
    obtain ⟨hkeep, hprefix, -⟩ := quietly_keeps (P := fun _ _ _ => True) hs hview hquiet
    exact ⟨⟨hview, hquiet⟩, hkeep, said_prefix hprefix⟩
  said _ _ _ h := said_prefix h
  possible n s hs := by
    have hspeech : (said begun s).length ≤ n ∧
        OfProving (proofReply a credential) (Concludes a) (said begun s) := by
      match n, hs.2 with
      | 0, ⟨_, hspoken⟩ => exact ⟨by simp [hspoken], .inl hspoken⟩
      | 1, ⟨_, hspoken⟩ =>
        rcases hspoken with hspoken | hspoken
        · exact ⟨by simp [hspoken], .inl hspoken⟩
        · exact ⟨by simp [hspoken], .inr (.inl hspoken)⟩
      | n + 2, ⟨_, hspoken⟩ =>
        rcases hspoken with hspoken | ⟨hspoken, -⟩ | ⟨hspoken, -⟩
        · exact ⟨by simp [hspoken], .inr (.inl hspoken)⟩
        · exact ⟨by simp [hspoken], .inr (.inr ⟨_, _, .inl ⟨rfl, rfl⟩, hspoken⟩)⟩
        · exact ⟨by simp [hspoken], .inr (.inr ⟨_, _, .inr ⟨rfl, rfl⟩, hspoken⟩)⟩
    exact ⟨hspeech.1, fun replies hp => hspeech.2.initial hp⟩
  take n s stage request hs hcomes hnext := by
    match n with
    | 0 =>
      obtain ⟨hstage, hspoken, hmissed⟩ := hcomes
      obtain ⟨hbegun, hview, -⟩ := hs
      obtain rfl := Handled.next.inj hstage
      obtain rfl : _ = request := Option.some.inj hnext
      have hspeech : (authenticating a credential before begun 1).invariant s :=
        ⟨hbegun, hview, .inl hspoken⟩
      exact ⟨hspeech, challenge_taken h hsecret haccepted s hspeech ⟨hview, hspoken, hmissed⟩⟩
    | 1 =>
      obtain ⟨hbegun, hview, -⟩ := hs
      obtain rfl : _ = request := Option.some.inj hnext
      rcases hcomes with ⟨hstage, hspoken, hmissed⟩ | ⟨hbad, -⟩
      · obtain rfl := Handled.next.inj hstage
        have hspeech : (authenticating a credential before begun 2).invariant s :=
          ⟨hbegun, congrArg Prod.fst hview, .inl hspoken⟩
        exact ⟨hspeech, final_taken h hsecret haccepted s hspeech ⟨hview, hspoken, hmissed⟩⟩
      · cases hbad
    | n + 2 => simp at hnext

end Receiver

section Script
variable {p : Platform} {c : DirectReceiverConnection} {nonce : Bytes} {a : AuthTuple}

/-- A contract that was checked, with the numbers of the wire. -/
theorem contract_integers (contract : VideoContract.MediaContract)
    (h : VideoContract.validateMediaContract contract = .ok contract) :
    ∃ width height maxFps : Nat, contract = ⟨.integer width, .integer height, .integer maxFps⟩ ∧
      width < 2 ^ 32 ∧ height < 2 ^ 32 ∧ maxFps < 2 ^ 32 ∧
      isValidMediaContract ⟨width, height, maxFps⟩ = true := by
  obtain ⟨w, l, f⟩ := contract
  match w, l, f, h with
  | .integer w, .integer l, .integer f, h =>
    obtain ⟨⟨hw, hl, -, -, hmax, -, -, hf, hfps⟩, -⟩ := AutoContract.validateMediaContract_iff.mp h
    lift w to Nat using hw.le
    lift l to Nat using hl.le
    lift f to Nat using hf.le
    refine ⟨w, l, f, rfl, by omega, by omega, by omega, ?_⟩
    by_contra hvalid
    rw [validateMediaContract_eq ⟨w, l, f⟩, if_neg hvalid] at h
    cases h

/-- What the script authenticates with. -/
theorem tuple_of (hnonce : hex nonce 64 = true)
    (hepoch : 0 < c.sourceEpoch ∧ c.sourceEpoch ≤ DirectProtocol.uint32Max) :
    ∃ a : AuthTuple, a.Valid ∧ c.challenge nonce = a.challenge := by
  obtain ⟨width, height, maxFps, hcontract, hwidth, hheight, hfps, hvalid⟩ :=
    contract_integers c.mediaContract c.hcontract
  obtain ⟨epoch, hnat⟩ := Int.eq_ofNat_of_zero_le hepoch.1.le
  simp only [hnat, DirectProtocol.uint32Max] at hepoch
  have hsmall : epoch < 2 ^ 32 := by omega
  refine ⟨⟨c.trustedDevice.senderId, c.trustedDevice.deviceId, .ofNat epoch, nonce, .ofNat width,
    .ofNat height, .ofNat maxFps⟩, ⟨c.trustedDevice.hsender, c.trustedDevice.hdevice, ?_, hnonce, ?_⟩, ?_⟩
  · rw [UInt32.toNat_ofNat_of_lt' hsmall]
    omega
  · rw [AuthTuple.contract, UInt32.toNat_ofNat_of_lt' hwidth, UInt32.toNat_ofNat_of_lt' hheight,
      UInt32.toNat_ofNat_of_lt' hfps]
    exact hvalid
  · rw [AuthTuple.challenge, UInt32.toNat_ofNat_of_lt' hwidth, UInt32.toNat_ofNat_of_lt' hheight,
      UInt32.toNat_ofNat_of_lt' hfps, UInt32.toNat_ofNat_of_lt' hsmall,
      DirectReceiverConnection.challenge, hcontract, hnat]

theorem testedText_of {proof : Extension.Value} {key : String} {test : Bytes → Bool} {value : Bytes}
    (h : Value.textOr "" (proof.member key) = some value) (htest : test value = true) :
    testedText proof key test = .ok value := by
  rw [testedText, h]
  exact if_pos htest

theorem request_built (hp : Standard p) (h : a.Valid) (hsame : c.challenge nonce = a.challenge) :
    Proved p (connectOptions p c nonce) (proofReply a c.trustedDevice.credential).text
      (objectOf (proofMembers a (expectedProof a c.trustedDevice.credential)))
      (authSecretRequest c.trustedDevice.credential a.challenge) := by
  obtain ⟨proof, hscript, hnative, hhex⟩ := auth_proofs_agree hp h c.trustedDevice.hcredential
  obtain rfl : expectedProof a c.trustedDevice.credential = proof := hnative
  have hflat := (proof_composed h hhex).flat
  have htext := proof_text h hhex
  have hprotocol : (ascii "protocol", Scalar.count 6) ∈
      proofMembers a (expectedProof a c.trustedDevice.credential) := by simp [proofMembers]
  have hequal : DirectProtocol.constantTimeEqualProof (expectedProof a c.trustedDevice.credential)
      (expectedProof a c.trustedDevice.credential) = true :=
    (DirectProtocol.constantTimeEqualProof_iff _ _).mpr ⟨rfl, hhex⟩
  have hgiven : testedText (objectOf (proofMembers a (expectedProof a c.trustedDevice.credential)))
      "proof" (DirectProtocol.hexTest 64) = .ok (expectedProof a c.trustedDevice.credential) :=
    testedText_of (hflat.textOr (by simp [proofMembers]) "") hhex
  refine ⟨⟨?_, ?_, hflat.isText (by simp [proofMembers, connectOptions])⟩, rfl,
    by simp only [connectOptions]; decide, hflat.isNumber hprotocol, ?_⟩
  · rw [proofReply, htext]
    exact (proof_composed h hhex).short
  · rw [proofReply, htext]
    exact hp.parse _ hflat
  · simp only [connectOptions, hsame]
    unfold buildAuthRequest
    rw [if_neg, hgiven, hscript]
    · simp [scripted, Except.mapError, bind, Except.bind, hequal]
    · have hmode := @Flat.isText _ "mode" hflat (ascii "auth") (by simp [proofMembers])
      have hsender := @Flat.isText _ "senderId" hflat a.senderId (by simp [proofMembers])
      have hdevice := @Flat.isText _ "deviceId" hflat a.deviceId (by simp [proofMembers])
      have hnonce := @Flat.isText _ "nonce" hflat a.nonce (by simp [proofMembers])
      have hepoch := @Flat.isNumber _ "sourceEpoch" hflat a.sourceEpoch.toNat
        (by simp [proofMembers])
      have hchecked : DirectProtocol.isProofNonce a.nonce = true := h.2.2.2.1
      simp [AuthTuple.challenge, hmode, hsender, hdevice, hnonce, hepoch, hchecked]

/-- The script takes the Receiver's conclusion for what it is. -/
theorem conclusion_decided (hp : Standard p) (hsame : c.challenge nonce = a.challenge)
    (proof : Extension.Value) (reply : Reply) (outcome : Outcome) (h : Concludes a reply outcome) :
    Decided p (connectOptions p c nonce) (some proof) reply.text outcome := by
  rcases h with ⟨rfl, rfl⟩ | ⟨rfl, rfl⟩
  · have hflat := (ready_composed a).flat
    have hprotocol : (ascii "protocol", Scalar.count 6) ∈ readyMembers a := by simp [readyMembers]
    have hepoch := @Flat.isNumber _ "sourceEpoch" hflat a.sourceEpoch.toNat (by simp [readyMembers])
    have hwidth := @Flat.isNumber _ "width" hflat a.width.toNat (by simp [readyMembers])
    have hheight := @Flat.isNumber _ "height" hflat a.height.toNat (by simp [readyMembers])
    have hfps := @Flat.isNumber _ "maxFps" hflat a.maxFps.toNat (by simp [readyMembers])
    have hsource : Extension.Number.integer c.sourceEpoch = .integer a.sourceEpoch.toNat :=
      congrArg DirectProtocol.AuthChallenge.sourceEpoch hsame
    have hcontract : c.mediaContract.width = .integer a.width.toNat ∧
        c.mediaContract.height = .integer a.height.toNat ∧
        c.mediaContract.maxFps = .integer a.maxFps.toNat :=
      ⟨congrArg DirectProtocol.AuthChallenge.width hsame,
        congrArg DirectProtocol.AuthChallenge.height hsame,
        congrArg DirectProtocol.AuthChallenge.maxFps hsame⟩
    refine .agreed ⟨?_, ?_, hflat.isText (by simp [readyMembers, connectOptions])⟩
      (hflat.isNumber hprotocol) ?_
    · rw [ready_text]
      exact (ready_composed a).short
    · rw [ready_text]
      exact hp.parse _ hflat
    · simp only [connectOptions, hsource, hcontract.1, hcontract.2.1, hcontract.2.2]
      rw [if_neg]
      simp [hepoch, hwidth, hheight, hfps]
  · have hflat := (error_composed .decoderConfigurationFailed).flat
    have hcode : receiverError (objectOf (errorMembers .decoderConfigurationFailed)) =
        some (.receiver "decoder_configuration_failed") := by
      have hmember : (ascii "code", Scalar.text (ascii "decoder_configuration_failed")) ∈
          errorMembers .decoderConfigurationFailed := by simp [errorMembers, ErrorCode.text]
      rw [receiverError, hflat.textOr hmember]
      decide
    refine .refused ⟨?_, ?_, hflat.isText (by simp [errorMembers])⟩ hcode
    · rw [failure, error_text]
      exact (error_composed _).short
    · rw [failure, error_text]
      exact hp.parse _ hflat

end Script

section Connection
variable {p : Platform} {c : DirectReceiverConnection} {nonce : Bytes} {s : ReceiverSession}
  {m : Meeting}

/-- The contract with the numbers of the wire. -/
def nativeContract (contract : VideoContract.MediaContract) : MediaContract :=
  ⟨contract.width.toInt.toNat, contract.height.toInt.toNat, contract.maxFps.toInt.toNat⟩

/-- The source that the script announces. -/
def announced (c : DirectReceiverConnection) : Committed :=
  ⟨c.sourceEpoch.toNat, c.sourceEpoch.toNat, nativeContract c.mediaContract⟩

/-- The two ends are paired, and the Receiver is ready for the source. -/
structure Acquainted (c : DirectReceiverConnection) (nonce : Bytes) (s : ReceiverSession) : Prop where
  nonce : hex nonce 64 = true
  epoch : 0 < c.sourceEpoch ∧ c.sourceEpoch ≤ DirectProtocol.uint32Max
  trust : trust s =
    ⟨c.trustedDevice.deviceId, c.trustedDevice.senderId, c.trustedDevice.credential⟩
  accepted : evaluateSourceContract c.sourceEpoch.toNat (nativeContract c.mediaContract)
    s.latestSourceEpoch s.activeMediaContract = .accepted

/-- The authentication of this connection, while the other threads do what they like. -/
abbrev authentication (p : Platform) (c : DirectReceiverConnection) (nonce : Bytes)
    (s : ReceiverSession) : Dialogue Exchange Act Bytes Reply ReceiverSession External Handled :=
  conversation p (connectOptions p c nonce) s.log.length (fun _ => True) Others

/-- Each end is done with all that the other has sent. -/
structure Rests (begun : Nat) (m : Meeting) : Prop where
  opened : m.client.opens = false
  verified : m.client.verifying = none
  heard : m.heard = said begun m.session
  taken : m.taken = sentTexts m.client.log
  waits : ∃ handled, m.server = .ret handled

/-- What an authentication that began in `s` has come to. -/
structure Authenticates (c : DirectReceiverConnection) (s : ReceiverSession) (m : Meeting) : Prop where
  /-- The script finds no fault with the Receiver. -/
  rejected : ∀ f, m.client.outcome = some (.rejected f) →
    f = .receiver "decoder_configuration_failed" ∧ committed m.session = restored (committed s)
  /-- It is authenticated only towards a Receiver that has committed its source. -/
  resolved : ∀ response, m.client.outcome = some (.resolved response) →
    (Connect.settle c { exchange := m.client }).authenticated = true ∧
      committed m.session = announced c
  accepted : m.server = .ret (.returned true) →
    committed m.session = announced c ∧ lost s.log.length m.session = []
  refused : m.server = .ret (.returned false) → lost s.log.length m.session ≠ [] ∨
    failure ∈ said s.log.length m.session ∧ committed m.session = restored (committed s)
  /-- It does not get stuck unless a reply was lost. -/
  completes : Rests s.log.length m → lost s.log.length m.session ≠ [] ∨
    (∃ response, m.client.outcome = some (.resolved response)) ∧ m.server = .ret (.returned true) ∨
      (∃ f, m.client.outcome = some (.rejected f)) ∧ m.server = .ret (.returned false)

theorem announced_eq {a : AuthTuple} (hsame : c.challenge nonce = a.challenge) :
    c.sourceEpoch.toNat = a.sourceEpoch.toNat ∧ nativeContract c.mediaContract = a.contract ∧
      announced c = after a := by
  have hsource : Extension.Number.integer c.sourceEpoch = .integer a.sourceEpoch.toNat :=
    congrArg DirectProtocol.AuthChallenge.sourceEpoch hsame
  have hwidth : c.mediaContract.width = .integer a.width.toNat :=
    congrArg DirectProtocol.AuthChallenge.width hsame
  have hheight : c.mediaContract.height = .integer a.height.toNat :=
    congrArg DirectProtocol.AuthChallenge.height hsame
  have hfps : c.mediaContract.maxFps = .integer a.maxFps.toNat :=
    congrArg DirectProtocol.AuthChallenge.maxFps hsame
  have hepoch : c.sourceEpoch.toNat = a.sourceEpoch.toNat := by
    rw [Extension.Number.integer.inj hsource, Int.toNat_natCast]
  have hcontract : nativeContract c.mediaContract = a.contract := by
    simp [nativeContract, hwidth, hheight, hfps, Extension.Number.toInt, AuthTuple.contract]
  exact ⟨hepoch, hcontract, by rw [announced, hepoch, hcontract, after]⟩

variable {a : AuthTuple} {credential : Bytes} {before : Committed} {n : Nat}
  {v : Trust × Committed} {spoken missed : List Reply}

/-- A conclusion tells the source. -/
theorem Says.concluded {reply : Reply} (h : Says a credential before n v spoken)
    (hp : [proofReply a credential, reply] <+: spoken) :
    spoken = [proofReply a credential, reply] ∧
      (reply = ready a ∧ v.2 = after a ∨ reply = failure ∧ v.2 = restored before) := by
  have htwo : 2 ≤ spoken.length := hp.length_le
  match n, h with
  | 0, ⟨_, hspoken⟩ => simp [hspoken] at htwo
  | 1, ⟨_, hspoken⟩ => rcases hspoken with hspoken | hspoken <;> simp [hspoken] at htwo
  | n + 2, ⟨_, hspoken⟩ =>
    rcases hspoken with hspoken | ⟨hspoken, hsource⟩ | ⟨hspoken, hsource⟩
    · simp [hspoken] at htwo
    · obtain rfl : reply = ready a := by simpa [hspoken] using hp
      exact ⟨hspoken, .inl ⟨rfl, hsource⟩⟩
    · obtain rfl : reply = failure := by simpa [hspoken] using hp
      exact ⟨hspoken, .inr ⟨rfl, hsource⟩⟩

theorem ready_ne_failure (a : AuthTuple) : ready a ≠ failure := by simp [ready, failure]

theorem Comes.accepted (h : Comes a credential before n (.returned true) v spoken missed) :
    2 ≤ n ∧ spoken = [proofReply a credential, ready a] ∧ missed = [] := by
  match n, h with
  | 0, ⟨hbad, _⟩ => cases hbad
  | 1, .inl ⟨hbad, _⟩ => cases hbad
  | 1, .inr ⟨hbad, _⟩ => cases hbad
  | n + 2, .inl ⟨_, hspoken, hmissed⟩ => exact ⟨by omega, hspoken, hmissed⟩
  | n + 2, .inr ⟨hbad, _⟩ => cases hbad

theorem Comes.refused (h : Comes a credential before n (.returned false) v spoken missed) :
    missed ≠ [] ∨ spoken = [proofReply a credential, failure] ∧ v.2 = restored before := by
  match n, h with
  | 0, ⟨hbad, _⟩ => cases hbad
  | 1, .inl ⟨hbad, _⟩ => cases hbad
  | 1, .inr ⟨_, hmissed⟩ => exact .inl hmissed
  | n + 2, .inl ⟨hbad, _⟩ => cases hbad
  | n + 2, .inr ⟨_, hrest⟩ => exact hrest

/-- A script that waits, and a Receiver that has answered it, come to the same. -/
theorem completes_of {r : Options} {message : Extension.Value} {secret : Object} {begun : Nat}
    (hclient : Proving r (proofReply a credential) message secret (Concludes a) m.client m.heard)
    (hcomes : ∀ handled, m.server = .ret handled → Comes a credential before m.taken.length handled
      (view m.session) (said begun m.session) (lost begun m.session))
    (h : Rests begun m) : lost begun m.session ≠ [] ∨
      (∃ response, m.client.outcome = some (.resolved response)) ∧ m.server = .ret (.returned true) ∨
        (∃ f, m.client.outcome = some (.rejected f)) ∧ m.server = .ret (.returned false) := by
  obtain ⟨hopened, hverified, hheard, htaken, handled, hwaits⟩ := h
  have hcome := hcomes handled hwaits
  rw [← hheard] at hcome
  generalize m.client = x at *
  generalize m.heard = heard at *
  cases hclient with
  | fresh => cases hopened
  | checking => cases hverified
  | asked =>
    have hone : m.taken.length = 1 := by simp [htaken]
    rw [hone] at hcome
    rcases hcome with ⟨-, hbad, -⟩ | ⟨-, hmissed⟩
    · cases hbad
    · exact .inl hmissed
  | released =>
    have htwo : m.taken.length = 2 := by simp [htaken]
    rw [htwo] at hcome
    rcases hcome with ⟨-, hbad, -⟩ | ⟨-, hmissed | ⟨hbad, -⟩⟩
    · simp at hbad
    · exact .inl hmissed
    · simp at hbad
  | concluded reply outcome hreply =>
    have htwo : m.taken.length = 2 := by simp [htaken]
    rw [htwo] at hcome
    rcases hcome with ⟨rfl, hsaid, -⟩ | ⟨rfl, hmissed | ⟨hsaid, -⟩⟩
    · rcases hreply with ⟨-, rfl⟩ | ⟨rfl, -⟩
      · exact .inr (.inl ⟨⟨_, rfl⟩, hwaits⟩)
      · cases hsaid
    · exact .inl hmissed
    · rcases hreply with ⟨rfl, -⟩ | ⟨-, rfl⟩
      · cases hsaid
      · exact .inr (.inr ⟨⟨_, rfl⟩, hwaits⟩)

/-- However the two ends and the other threads of the Receiver take turns, an authentication
between paired ends agrees on the source, unless a reply is lost or the decoder fails. -/
theorem paired_ends_authenticate (p : Platform) (hp : Standard p) (c : DirectReceiverConnection)
    (nonce : Bytes) (s : ReceiverSession) (hs : Acquainted c nonce s) (m : Meeting)
    (hm : Dialogue.Reaches (authentication p c nonce s) (Meeting.start s) m) :
    Authenticates c s m := by
  obtain ⟨a, hvalid, hsame⟩ := tuple_of hs.nonce hs.epoch
  obtain ⟨hepoch, hcontract, hannounced⟩ := announced_eq hsame
  have htrust := hs.trust
  have hsender : c.trustedDevice.senderId = a.senderId :=
    congrArg DirectProtocol.AuthChallenge.senderId hsame
  have hdevice : c.trustedDevice.deviceId = a.deviceId :=
    congrArg DirectProtocol.AuthChallenge.deviceId hsame
  have haccepted := hs.accepted
  rw [hepoch, hcontract] at haccepted
  have hview : view s = (peer a c.trustedDevice.credential, committed s) := by
    rw [view, htrust, hsender, hdevice]
    rfl
  have hsilent : said s.log.length s = [] ∧ lost s.log.length s = [] := by
    simp [said, lost, wholeReplies]
  have hfollows := proving_follows (request_built hp hvalid hsame)
    (by simp only [connectOptions]; decide) (conclusion_decided hp hsame _)
  have hserves := @authentication_serves a c.trustedDevice.credential (committed s) s.log.length hvalid
    c.trustedDevice.hcredential haccepted
  have hchallenge : (connectOptions p c nonce).challenge = DirectClient.authChallenge a.challenge := by
    simp only [connectOptions, hsame]
  rw [hchallenge] at hfollows
  have hkept := conversation_kept hfollows hserves ⟨le_refl _, hview, hsilent.1⟩
    (fun t ht _ => by
      obtain ⟨hsaid, hlost⟩ := ht.2.replies s.log.length
      exact ⟨rfl, hsaid.trans hsilent.1, hlost.trans hsilent.2⟩) hm
  have hspeech := hkept.invariant.2
  have hclient := hkept.client
  have houtcome : ∀ outcome, m.client.outcome = some outcome →
      ∃ reply, Concludes a reply outcome ∧
        [proofReply a c.trustedDevice.credential, reply] <+: said s.log.length m.session := by
    intro outcome h
    obtain ⟨reply, hreply, hheard⟩ := hclient.decided h
    have hsaid := hkept.heard
    rw [hheard] at hsaid
    exact ⟨reply, hreply, hsaid⟩
  refine ⟨?_, ?_, ?_, ?_, completes_of hclient fun handled => hkept.returned⟩
  · intro f h
    obtain ⟨reply, ⟨-, hbad⟩ | ⟨rfl, hf⟩, hsaid⟩ := houtcome _ h
    · cases hbad
    · obtain ⟨-, ⟨hbad, -⟩ | ⟨-, hsource⟩⟩ := hspeech.concluded hsaid
      · exact absurd hbad.symm (ready_ne_failure a)
      · exact ⟨Outcome.rejected.inj hf, hsource⟩
  · intro response h
    obtain ⟨reply, ⟨rfl, hresponse⟩ | ⟨-, hbad⟩, hsaid⟩ := houtcome _ h
    · obtain ⟨-, ⟨-, hsource⟩ | ⟨hbad, -⟩⟩ := hspeech.concluded hsaid
      · refine ⟨?_, hsource.trans hannounced.symm⟩
        have hnumber := @Flat.isNumber _ "sourceEpoch" (ready_composed a).flat a.sourceEpoch.toNat
          (by simp [readyMembers])
        have hsource : Extension.Number.integer c.sourceEpoch = .integer a.sourceEpoch.toNat :=
          congrArg DirectProtocol.AuthChallenge.sourceEpoch hsame
        obtain rfl := Outcome.resolved.inj hresponse
        simp [Connect.settle, h, hsource, hnumber]
      · exact absurd hbad (ready_ne_failure a)
    · cases hbad
  · intro hret
    obtain ⟨-, hsaid, hlost⟩ := (hkept.returned hret).accepted
    have hconcluded : [proofReply a c.trustedDevice.credential, ready a] <+: said s.log.length m.session := by
      rw [hsaid]
    obtain ⟨-, ⟨-, hsource⟩ | ⟨hbad, -⟩⟩ := hspeech.concluded hconcluded
    · exact ⟨hsource.trans hannounced.symm, hlost⟩
    · exact absurd hbad (ready_ne_failure a)
  · intro hret
    rcases (hkept.returned hret).refused with hlost | ⟨hsaid, hsource⟩
    · exact .inl hlost
    · exact .inr ⟨by simp [hsaid], hsource⟩

end Connection

section Run

def device : DirectProtocol.TrustedDevice where
  senderId := List.replicate 16 0x61
  deviceId := List.replicate 32 0x62
  credential := List.replicate 64 0x63
  host := DirectProtocol.defaultReceiverHost
  pairedAt := 0
  hsender := rfl
  hdevice := rfl
  hcredential := rfl

def caller : DirectReceiverConnection where
  trustedDevice := device
  sourceEpoch := 1
  mediaContract := ⟨.integer 1920, .integer 1080, .integer 60⟩
  hcontract := rfl

def called : ReceiverSession :=
  { ({} : ReceiverSession) with
    deviceId := device.deviceId
    trustedSenderId := device.senderId
    trustedCredential := device.credential
    controlSocket := true }

abbrev calling (p : Extension.Platform) :
    Dialogue Exchange Act Bytes Reply ReceiverSession External Handled :=
  authentication p caller (List.replicate 64 0x64) called

instance (p : Extension.Platform) : DecidablePred (calling p).offers :=
  fun _ => inferInstanceAs (Decidable True)

/-- The key and the message of the caller's proof. -/
def proofKey : Bytes := List.replicate 32 0xcc

def proofText : Bytes :=
  authProofMessage device.senderId device.deviceId 1 (List.replicate 64 0x64) ⟨1920, 1080, 60⟩

def signature : Bytes := [
  162, 94, 163, 85, 184, 126, 136, 118, 75, 15, 206, 69, 23, 9, 53, 99, 89, 251, 54, 174, 94, 193,
  44, 146, 151, 80, 114, 34, 92, 42, 239, 122]

theorem signature_eq : signature = hmacSha256 proofKey proofText := by
  decide +kernel

/-- The browser when it knows the caller's proof already. -/
def remembering : Extension.Platform where
  parse := parseFlat
  hmac key message := if key = proofKey ∧ message = proofText then signature
    else hmacSha256 key message

theorem remembering_eq : remembering = browser := by
  have hhmac : remembering.hmac = hmacSha256 := by
    funext key message
    dsimp only [remembering]
    split
    · rename_i hsame
      rw [hsame.1, hsame.2, signature_eq]
    · rfl
  exact congrArg (Extension.Platform.mk parseFlat) hhmac

/-- Every reply goes out at once. -/
def lively : External := { sendMutex := true, sends := [.sent 4096] }

/-- Both messages and both replies. -/
def schedule : List (Dialogue.Move Act External) :=
  [.act .opened, .take] ++ List.replicate 3 (.work lively) ++ [.hear, .act .verified, .take] ++
    List.replicate 17 (.work lively) ++ [.hear]

/-- The socket takes no byte of the first reply. -/
def cutSchedule : List (Dialogue.Move Act External) :=
  [.act .opened, .take] ++ List.replicate 3 (.work {})

theorem schedule_played : (((calling browser).play schedule (Meeting.start called)).map fun m =>
    (m.server.result, (Connect.settle caller { exchange := m.client }).authenticated)) =
      some (some (.returned true), true) := by
  rw [← remembering_eq]
  decide +kernel

/-- One run in which both ends are connected in the end, and one whose first reply is lost. -/
theorem paired_ends_once :
    (∃ m : Meeting, Dialogue.Reaches (calling browser) (Meeting.start called) m ∧
      m.server.result = some (.returned true) ∧
      (Connect.settle caller { exchange := m.client }).authenticated = true ∧
      Authenticates caller called m) ∧
    ∃ m : Meeting, Dialogue.Reaches (calling browser) (Meeting.start called) m ∧
      m.server.result = some (.returned false) ∧ Authenticates caller called m := by
  have hacquainted : Acquainted caller (List.replicate 64 0x64) called :=
    ⟨by decide, by decide, rfl, by decide⟩
  have hcut : (((calling browser).play cutSchedule (Meeting.start called)).bind fun m => m.server.result) =
      some (.returned false) := by
    decide +kernel
  obtain ⟨m, hm, hboth⟩ := Option.map_eq_some_iff.mp schedule_played
  obtain ⟨hret, hconnected⟩ := Prod.ext_iff.mp hboth
  obtain ⟨m', hm', hret'⟩ := Option.bind_eq_some_iff.mp hcut
  have hreaches := Dialogue.Reaches.refl.play schedule hm
  have hreaches' := Dialogue.Reaches.refl.play cutSchedule hm'
  exact ⟨⟨m, hreaches, hret, hconnected, paired_ends_authenticate browser browser_standard caller _
    called hacquainted m hreaches⟩, m', hreaches', hret', paired_ends_authenticate browser
    browser_standard caller _ called hacquainted m' hreaches'⟩

end Run

end HarmonyScreen.Proofs.HonestAuthentication
