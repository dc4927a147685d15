import HarmonyScreen.Lib.History
import HarmonyScreen.Proofs.EpochAgreement
import HarmonyScreen.Proofs.Returning

namespace HarmonyScreen.Proofs.Connection
open Lib Program Receiver ReceiverSession Effects Handshake Pairing PairingDelivery Protocol

variable {k l : List SessionStep} {ms : List WebSocket.Message}

def messageOf : Observation → Option WebSocket.Message
  | .message m _ => some m
  | _ => none

/-- The messages that the sections of a connection took up, in order. -/
def messages (h : List SessionStep) : List WebSocket.Message := (observed h).filterMap messageOf

/-- A text message of the protocol's version that the handshake looks at. -/
structure Spoken (m : WebSocket.Message) (type : String) : Prop where
  opcode : m.opcode = .text
  short : m.payload.length ≤ 2048
  version : jsonInteger m.payload (ascii "protocol") = some (kVersion : Int)
  typed : textIs m.payload "type" type = true

/-- A string member of a message. -/
def Says (m : WebSocket.Message) (key : String) (value : Bytes) : Prop :=
  jsonString m.payload (ascii key) = some value

/-- An integer member of a message. -/
def Counts (m : WebSocket.Message) (key : String) (value : Nat) : Prop :=
  jsonInteger m.payload (ascii key) = some (value : Int)

/-- A message names a computer and this receiver, and offers a source for it. -/
structure Offers (m : WebSocket.Message) (senderId deviceId nonce : Bytes) (epoch : Nat)
    (contract : MediaContract) : Prop where
  senderId : Says m "senderId" senderId
  deviceId : Says m "deviceId" deviceId
  nonce : Says m "nonce" nonce
  mode : Says m "mode" (ascii "auth")
  codec : Says m "codec" (ascii "video/avc")
  avcFormat : Says m "avcFormat" (ascii "annexb")
  sourceEpoch : Counts m "sourceEpoch" epoch
  width : Counts m "width" contract.width
  height : Counts m "height" contract.height
  maxFps : Counts m "maxFps" contract.maxFps

/-- A valid `auth_challenge`. -/
structure Challenges (m : WebSocket.Message) (challenge : AuthChallengeState) : Prop
    extends Spoken m "auth_challenge" where
  offers : Offers m challenge.senderId challenge.deviceId challenge.nonce challenge.sourceEpoch
    challenge.mediaContract
  sender : senderIdValid challenge.senderId = true
  device : hex challenge.deviceId 32 = true
  nonce : hex challenge.nonce 64 = true
  epoch : 0 < challenge.sourceEpoch ∧ challenge.sourceEpoch < 2 ^ 32
  contract : isValidMediaContract challenge.mediaContract = true

/-- An `auth` that repeats the challenge and carries this credential. -/
structure Completes (m : WebSocket.Message) (challenge : AuthChallengeState)
    (credential : Bytes) : Prop extends Spoken m "auth" where
  offers : Offers m challenge.senderId challenge.deviceId challenge.nonce challenge.sourceEpoch
    challenge.mediaContract
  carries : Says m "credential" credential
  hexadecimal : hex credential 64 = true

/-- A valid `pair_challenge`. -/
structure PairChallenges (m : WebSocket.Message) (challenge : PairChallengeState) : Prop
    extends Spoken m "pair_challenge" where
  session : text m.payload "sessionId" = challenge.sessionId
  sender : text m.payload "senderId" = challenge.senderId
  nonce : text m.payload "nonce" = challenge.nonce
  named : hex challenge.sessionId 32 = true
  automatic : challenge.manualIpv4 = false

/-- The section at which an `auth` is accepted, on a connection that took up these messages. -/
def Commits (ms : List WebSocket.Message) (st : SessionStep) (epoch : Nat)
    (contract : MediaContract) : Prop :=
  ∃ first second challenge, ms = [first, second] ∧ Challenges first challenge ∧
    Completes second challenge st.before.trustedCredential ∧ challenge.sourceEpoch = epoch ∧
    challenge.mediaContract = contract ∧ challenge.senderId = st.before.trustedSenderId ∧
    challenge.deviceId = st.before.deviceId ∧
    evaluateSourceContract epoch contract st.before.latestSourceEpoch
      st.before.activeMediaContract = .accepted

/-- The messages that bring a pairing to the check of its authorization: one message of the
manual path, or the two of the automatic one. -/
def Presents (ms : List WebSocket.Message) (challenge : PairChallengeState) (token : Bytes) : Prop :=
  (challenge.manualIpv4 = true ∧ ∃ m, ms = [m] ∧ Spoken m "pair_manual_ipv4" ∧
    text m.payload "sessionId" = challenge.sessionId ∧ text m.payload "token" = token) ∨
  ∃ first second, ms = [first, second] ∧ PairChallenges first challenge ∧ Spoken second "pair" ∧
    text second.payload "token" = token

/-- The section accepts a pairing. -/
def Pairs (st : SessionStep) : Prop := ∃ grant sessionId, .paired grant sessionId ∈ news st

/-- The section creates a credential and stores it. -/
def Creates (st : SessionStep) (credential : Bytes) : Prop :=
  Pairs st ∧ st.after.trustedCredential = credential ∧ credential = randomHex st.learned.random 32 ∧
    credential ≠ []

/-- What a reply says, and where the connection has it from. A proof is keyed by a secret of the
session, and every other part of it is a constant, was read from a message or is the device's
name; only `paired` carries a credential, the one this connection created. -/
def Discloses (k : List SessionStep) : Reply → Prop
  | .error _ => True
  | .pairProof mode sessionId senderId nonce deviceId proof =>
    mode = ascii "qr" ∧
      (∃ m ∈ messages k, Spoken m "pair_challenge" ∧ Says m "sessionId" sessionId ∧
        Says m "senderId" senderId ∧ Says m "nonce" nonce) ∧
      ∃ st ∈ k, sessionId = st.before.pendingSessionId ∧ deviceId = st.before.deviceId ∧
        proof = computePairProof st.before.pendingToken mode sessionId senderId nonce deviceId
  | .authProof senderId deviceId epoch nonce proof =>
    ∃ contract, (∃ m ∈ messages k, Challenges m ⟨senderId, deviceId, nonce, epoch, contract⟩) ∧
      ∃ st ∈ k, senderId = st.before.trustedSenderId ∧ deviceId = st.before.deviceId ∧
        proof = computeAuthProof st.before.trustedCredential senderId deviceId epoch nonce contract
  | .ready epoch contract => ∃ st ∈ k, .committed epoch contract ∈ news st
  | .paired deviceId credential => ∃ st ∈ k, Creates st credential ∧ deviceId = st.before.deviceId
  | _ => False

/-- What a section owes to the connection's sections before it. -/
def Owes (k : List SessionStep) (st : SessionStep) : Observation → Prop
  | .message m source => news st = [.message m source] ∧ (messages k).length < 2
  | .reply r _ => Discloses k r
  | .presented a => Presents (messages k) a.challenge a.token ∧
      a = st.before.attempt a.challenge a.token st.learned ∧ (Refused a ∨ Pairs st)
  | .paired _ _ => Creates st (randomHex st.learned.random 32) ∧
      (∃ a, .presented a ∈ news st) ∧ ∀ a, .presented a ∈ news st → ¬ Refused a
  | .committed epoch contract => Commits (messages k) st epoch contract
  | _ => True

def Allowed (k : List SessionStep) (st : SessionStep) : Prop := ∀ o ∈ news st, Owes k st o

theorem observed_concat (k : List SessionStep) (st : SessionStep) :
    observed (k ++ [st]) = observed k ++ news st := by simp [observed]

theorem messages_concat (k : List SessionStep) (st : SessionStep) :
    messages (k ++ [st]) = messages k ++ (news st).filterMap messageOf := by
  simp [messages, observed_concat]

/-- The observations that the properties of a connection are about. -/
def ofConnection : Observation → Bool
  | .message _ _ | .reply _ _ | .presented _ | .paired _ _ | .committed _ _ => true
  | _ => false

/-- A section that nothing is observed of. -/
def Silent (s t : ReceiverSession) : Prop :=
  ∃ os, t.log = s.log ++ os ∧ ∀ o ∈ os, ofConnection o = false

theorem Silent.refl (s : ReceiverSession) : Silent s s := ⟨[], by simp, by simp⟩

theorem Silent.of_log (h : t.log = s.log) : Silent s t := ⟨[], by simp [h], by simp⟩

theorem Silent.of_lifecycle (h : LifecycleEffect s t) : Silent s t := by
  rcases h with h | h | ⟨o, ho, h⟩
  · exact .of_log h.log
  · exact ⟨[.cleared], h.log, by simp [ofConnection]⟩
  · refine ⟨[o], h.log, fun o' ho' => ?_⟩
    rw [List.mem_singleton.mp ho']
    cases o with
    | started | halted => rfl
    | _ => cases ho

theorem Silent.of_preparation (h : PreparationEffect s t) : Silent s t := by
  rcases h with h | ⟨prepared, h⟩
  · exact .of_lifecycle h
  · exact ⟨[.prepared prepared], h.log, by simp [ofConnection]⟩

theorem Silent.news {st : SessionStep} (h : Silent st.before st.after) :
    ∀ o ∈ news st, ofConnection o = false := by
  obtain ⟨os, hlog, hos⟩ := h
  rw [show PairingDelivery.news st = os from news_of_log (e := st.learned) hlog]
  exact hos

theorem allowed_of_silent {st : SessionStep} (h : Silent st.before st.after) : Allowed k st := by
  intro o ho
  have hquiet := h.news o ho
  cases o with
  | message | reply | presented | paired | committed => cases hquiet
  | _ => trivial

/-- The connection has taken up these messages and paired nobody so far. -/
structure Heard (ms : List WebSocket.Message) (k : List SessionStep) : Prop where
  history : History Allowed k
  messages : messages k = ms
  unpaired : ∀ grant sessionId, .paired grant sessionId ∉ observed k

theorem Heard.silent (hk : Heard ms k) (st : SessionStep) (h : Silent st.before st.after) :
    Heard ms (k ++ [st]) where
  history := hk.history.concat (allowed_of_silent h)
  messages := by
    have hnone : (news st).filterMap messageOf = [] := by
      refine List.filterMap_eq_nil_iff.mpr fun o ho => ?_
      have hquiet := h.news o ho
      cases o <;> first | rfl | cases hquiet
    rw [messages_concat, hnone, List.append_nil]
    exact hk.messages
  unpaired grant sessionId hmem := by
    rw [observed_concat] at hmem
    rcases List.mem_append.mp hmem with hmem | hmem
    · exact hk.unpaired grant sessionId hmem
    · cases h.news _ hmem

/-- The sections go on from these, with the same messages. -/
def From (ms : List WebSocket.Message) (k l : List SessionStep) : Prop := Heard ms l ∧ k <+: l

theorem silent_along {p : Session α} (hp : p.Every Silent) (hk : Heard ms k) :
    p.Along (History Allowed) k (fun _ => From ms k) :=
  hp.along (K := From ms k) (fun _ h => h.1.history)
    (fun _ _ _ _ h hst => ⟨h.1.silent _ hst, h.2.trans (List.prefix_append _ _)⟩)
    ⟨hk, List.prefix_refl k⟩

theorem silent_of_preparation {p : Session α} (hp : p.Every PreparationEffect) : p.Every Silent :=
  hp.mono fun _ _ => .of_preparation

theorem silent_of_aside {p : Session α} (hp : p.Every Aside) : p.Every Silent :=
  hp.mono fun _ _ h => .of_log h.log

theorem Discloses.mono (hl : k <+: l) {r : Reply} (h : Discloses k r) : Discloses l r := by
  have hsteps : ∀ st ∈ k, st ∈ l := fun st hst => hl.subset hst
  have hmessages : ∀ m ∈ messages k, m ∈ messages l := by
    obtain ⟨more, rfl⟩ := hl
    intro m hm
    simp only [messages, observed, List.flatMap_append, List.filterMap_append]
    exact List.mem_append_left _ hm
  cases r with
  | error => trivial
  | pairProof =>
    obtain ⟨hmode, ⟨m, hm, hfields⟩, st, hst, hproof⟩ := h
    exact ⟨hmode, ⟨m, hmessages m hm, hfields⟩, st, hsteps st hst, hproof⟩
  | authProof =>
    obtain ⟨contract, ⟨m, hm, hfields⟩, st, hst, hproof⟩ := h
    exact ⟨contract, ⟨m, hmessages m hm, hfields⟩, st, hsteps st hst, hproof⟩
  | ready =>
    obtain ⟨st, hst, hcommitted⟩ := h
    exact ⟨st, hsteps st hst, hcommitted⟩
  | paired =>
    obtain ⟨st, hst, hcreates⟩ := h
    exact ⟨st, hsteps st hst, hcreates⟩
  | keyframe | pong | telemetry => cases h

/-- A section that says only this. -/
theorem Heard.say {st : SessionStep} {os : List Observation} (hk : Heard ms k)
    (hnews : news st = os) (howes : ∀ o ∈ os, Owes k st o) (hsilent : os.filterMap messageOf = [])
    (hunpaired : ∀ grant sessionId, .paired grant sessionId ∉ os) : Heard ms (k ++ [st]) where
  history := hk.history.concat fun o ho => howes o (hnews ▸ ho)
  messages := by
    rw [messages_concat, hnews, hsilent, List.append_nil]
    exact hk.messages
  unpaired grant sessionId hmem := by
    rw [observed_concat, hnews] at hmem
    rcases List.mem_append.mp hmem with hmem | hmem
    · exact hk.unpaired grant sessionId hmem
    · exact hunpaired grant sessionId hmem

/-- A reply with what it discloses. -/
theorem sendControl_along (r : Reply) (hk : Heard ms k) (hr : Discloses k r) :
    (sendControl r).Along (History Allowed) k
      (fun sent l => From ms k l ∧ (sent = true → ∃ st ∈ l, .reply r true ∈ news st)) := by
  simp only [sendControl, sendNoted, along_critical, List.append_nil]
  intro s e
  have hnews : news ⟨s, e, { s with log := s.log ++ [.reply r (s.sendsWhole e r.text)] }⟩ =
      [.reply r (s.sendsWhole e r.text)] := news_of_log rfl
  have hsaid := hk.say hnews (by simpa [Owes] using hr) rfl (by simp)
  refine ⟨hsaid.history, ⟨hsaid, List.prefix_append _ _⟩, fun hsent => ?_⟩
  refine ⟨_, List.mem_append_right _ (List.mem_singleton_self _), ?_⟩
  rw [hnews, hsent]
  exact List.mem_singleton_self _

/-- The connection announced a source. -/
def Announced (k : List SessionStep) : Prop :=
  ∃ st ∈ k, ∃ epoch contract, .reply (.ready epoch contract) true ∈ news st

/-- Where something was paired the reply was given to `SendControl`. -/
def Answered (k : List SessionStep) : Prop :=
  ∀ grant sessionId, .paired grant sessionId ∈ observed k →
    ∃ deviceId credential whole, .reply (.paired deviceId credential) whole ∈ observed k

/-- What a connection that waits in this stage has taken up. -/
def Waits : ChallengeStage → List WebSocket.Message → Prop
  | .initial, ms => ms = []
  | .pairFinal challenge, ms => ∃ first, ms = [first] ∧ PairChallenges first challenge
  | .authFinal challenge, ms => ∃ first, ms = [first] ∧ Challenges first challenge

/-- What a handled message leaves behind. -/
def After : Handled → List SessionStep → Prop
  | .returned result, k => History Allowed k ∧ Answered k ∧ (result = true → Announced k)
  | .next stage, k => ∃ ms, Heard ms k ∧ Waits stage ms

theorem Heard.fails (hk : Heard ms k) : After (.returned false) k :=
  ⟨hk.history, fun grant sessionId hmem => absurd hmem (hk.unpaired grant sessionId),
    fun h => by cases h⟩

theorem refuse_along (code : ErrorCode) (hk : Heard ms k) :
    (refuse code).Along (History Allowed) k After := by
  unfold refuse
  rw [along_bind]
  exact (sendControl_along (.error code) hk trivial).mono fun _ _ h => h.1.1.fails

theorem load_along (read : ReceiverSession → α) (hk : Heard ms k) :
    (load read).Along (History Allowed) k
      (fun a l => From ms k l ∧ ∃ st ∈ l, a = read st.before) := by
  simp only [load, along_critical]
  intro s e
  have hsaid := hk.silent ⟨s, e, s⟩ (.refl s)
  exact ⟨hsaid.history, ⟨hsaid, List.prefix_append _ _⟩, _,
    List.mem_append_right _ (List.mem_singleton_self _), rfl⟩

section Pairing
variable {m : WebSocket.Message} {challenge : PairChallengeState} {token : Bytes}

theorem says_text {key : String} (h : text m.payload key ≠ []) : Says m key (text m.payload key) := by
  unfold Says
  unfold text at h ⊢
  cases hread : jsonString m.payload (ascii key) with
  | none => exact absurd (by rw [hread]; rfl) h
  | some value => rfl

/-- The token of a proof is the one that was granted for the session. -/
theorem pairChallengeLocked_ok {s : ReceiverSession} {sessionId secret : Bytes} {now : Int}
    (h : pairChallengeLocked sessionId now s = .ok secret) :
    sessionId = s.pendingSessionId ∧ secret = s.pendingToken := by
  unfold pairChallengeLocked at h
  split at h
  · cases h
  split at h
  · cases h
  split at h
  · rename_i hpending
    exact ⟨hpending.2.1, (Except.ok.inj h).symm⟩
  split at h <;> cases h

theorem pairChallenge_along (hm : Spoken m "pair_challenge") (hk : Heard [m] k) :
    (pairChallenge m.payload).Along (History Allowed) k After := by
  unfold pairChallenge
  dsimp only
  split
  · exact refuse_along _ hk
  rename_i hvalid
  simp only [not_or, Bool.not_eq_true', Bool.not_eq_false] at hvalid
  obtain ⟨-, hnamed, hsender, hnonce⟩ := hvalid
  rw [along_bind, along_critical]
  intro s e
  have hread := hk.silent ⟨s, e, s⟩ (.refl s)
  refine ⟨hread.history, ?_⟩
  dsimp only
  split
  · exact refuse_along _ hread
  rename_i secret hsecret
  obtain ⟨hsession, rfl⟩ := pairChallengeLocked_ok hsecret
  split
  · exact refuse_along _ hread
  rw [along_bind]
  have hdiscloses : Discloses (k ++ [⟨s, e, s⟩]) (.pairProof (ascii "qr") (text m.payload "sessionId")
      (text m.payload "senderId") (text m.payload "nonce") s.deviceId
      (computePairProof s.pendingToken (ascii "qr") (text m.payload "sessionId")
        (text m.payload "senderId") (text m.payload "nonce") s.deviceId)) :=
    ⟨rfl, ⟨m, by simp [hread.messages], hm, says_text (hex_ne_nil hnamed),
      says_text (senderIdValid_ne_nil hsender), says_text (hex_ne_nil hnonce)⟩, _,
      List.mem_append_right _ (List.mem_singleton_self _), hsession, rfl, rfl⟩
  refine (sendControl_along _ hread hdiscloses).mono fun sent l h => ?_
  split
  · exact h.1.1.fails
  · exact ⟨[m], h.1.1, m, rfl, hm, rfl, rfl, rfl, hnamed, rfl⟩

/-- The section that pairs, the one that replies, and the last. -/
theorem paired_after (commit send last : SessionStep) {a : PairingAttempt} {grant : Nat}
    {sessionId deviceId credential : Bytes} {whole : Bool} (hk : History Allowed k)
    (hpresented : Owes k commit (.presented a)) (haccepted : ¬ Refused a)
    (hcommit : news commit = [.presented a, .paired grant sessionId])
    (hcreates : Creates commit credential) (hdevice : deviceId = commit.before.deviceId)
    (hsend : news send = [.answered grant, .reply (.paired deviceId credential) whole])
    (hlast : Silent last.before last.after) :
    History Allowed (k ++ [commit]) ∧ History Allowed (k ++ [commit] ++ [send]) ∧
      After (.returned false) (k ++ [commit] ++ [send] ++ [last]) := by
  have hcommitted : History Allowed (k ++ [commit]) := by
    refine hk.concat fun o ho => ?_
    rw [hcommit] at ho
    rcases List.mem_cons.mp ho with rfl | ho
    · exact hpresented
    · rw [List.mem_singleton.mp ho]
      obtain ⟨hpaired, hstored, hcreated, hsome⟩ := hcreates
      refine ⟨⟨hpaired, hstored.trans hcreated, rfl, hcreated ▸ hsome⟩, ⟨a, by simp [hcommit]⟩,
        fun b hb => ?_⟩
      obtain rfl : b = a := by simpa [hcommit] using hb
      exact haccepted
  have hsent : History Allowed (k ++ [commit] ++ [send]) := by
    refine hcommitted.concat fun o ho => ?_
    rw [hsend] at ho
    rcases List.mem_cons.mp ho with rfl | ho
    · trivial
    · rw [List.mem_singleton.mp ho]
      exact ⟨commit, by simp, hcreates, hdevice⟩
  have hdone := hsent.concat (o := last) (allowed_of_silent hlast)
  refine ⟨hcommitted, hsent, hdone, fun _ _ _ => ?_, fun h => by cases h⟩
  refine ⟨deviceId, credential, whole, ?_⟩
  rw [observed_concat, observed_concat, hsend]
  exact List.mem_append_left _ (List.mem_append_right _ (by simp))

/-- The check of the authorization, and what comes of it. -/
theorem pairFinal_along (json : Bytes) (hk : Heard ms k)
    (hp : pairFinalValid challenge json = true → Presents ms challenge (text json "token")) :
    (pairFinal challenge json).Along (History Allowed) k After := by
  unfold pairFinal
  split
  · exact refuse_along _ hk
  rename_i hvalid
  have hpresents : Presents (messages k) challenge (text json "token") := by
    rw [hk.messages]
    exact hp (by simpa using hvalid)
  rw [along_bind, along_critical]
  intro s e
  rcases commitPairing_cases challenge (text json "token") e s with
    ⟨hrefused, code, heq⟩ | ⟨haccepted, heq⟩
  · rw [heq]
    have hnews : news ⟨s, e, s.note (.presented (s.attempt challenge (text json "token") e))⟩ =
        [.presented (s.attempt challenge (text json "token") e)] := news_of_log rfl
    have hsaid := hk.say hnews (by simpa [Owes] using ⟨hpresents, rfl, .inl hrefused⟩) rfl (by simp)
    exact ⟨hsaid.history, refuse_along _ hsaid⟩
  · rw [heq]
    have hsome : randomHex e.random 32 ≠ [] := by
      rw [Ne, randomHex_eq_nil]
      intro hnone
      exact haccepted (.inr (.inl (by simp [attempt, hnone])))
    have hdevice : challenge.deviceId = s.deviceId := by
      by_contra hother
      exact haccepted (.inr (.inr (Ne.symm hother)))
    have hgrants : (s.note (.presented (s.attempt challenge (text json "token") e))).grants =
        s.grants := by simp [grants, note, List.count_append]
    have hcommit : news ⟨s, e, (s.note (.presented (s.attempt challenge (text json "token") e))).acceptPairing
        challenge (randomHex e.random 32)⟩ = [.presented (s.attempt challenge (text json "token") e),
          .paired s.grants challenge.sessionId] :=
      news_of_log (by rw [acceptPairing, hgrants]; simp [note])
    have hpairs : Pairs ⟨s, e, (s.note (.presented (s.attempt challenge (text json "token") e))).acceptPairing
        challenge (randomHex e.random 32)⟩ :=
      ⟨_, _, by rw [hcommit]; exact List.mem_cons_of_mem _ (List.mem_singleton_self _)⟩
    have hafter (u v : ReceiverSession) (f g : External) (whole : Bool) := paired_after
      ⟨s, e, (s.note (.presented (s.attempt challenge (text json "token") e))).acceptPairing
        challenge (randomHex e.random 32)⟩
      ⟨u, f, { u with log := u.log ++ [.answered s.grants] ++
        [.reply (.paired challenge.deviceId (randomHex e.random 32)) whole] }⟩
      ⟨v, g, { v with
        state := "paired", detail := "电脑连接成功，下次使用无需再次扫码", listening := true,
        connected := false }⟩
      hk.history ⟨hpresents, rfl, .inr hpairs⟩ haccepted hcommit ⟨hpairs, rfl, rfl, hsome⟩ hdevice
      (news_of_log (List.append_assoc _ _ _)) (.of_log rfl)
    simp only [sendNoted, setState, along_bind, along_critical, pure_eq, along_ret]
    exact ⟨(hafter s s e e false).1, fun u f => ⟨(hafter u u f f _).2.1, fun v g =>
      ⟨(hafter u v f g _).2.2.1, (hafter u v f g _).2.2⟩⟩⟩

theorem pairManualIpv4_along {m : WebSocket.Message} (hm : Spoken m "pair_manual_ipv4")
    (hk : Heard [m] k) : (pairManualIpv4 m.payload).Along (History Allowed) k After := by
  unfold pairManualIpv4
  dsimp only
  split
  · exact refuse_along _ hk
  · rw [along_bind]
    exact (load_along _ hk).mono fun _ _ h => pairFinal_along _ h.1.1 fun _ =>
      .inl ⟨rfl, m, rfl, hm, rfl, rfl⟩

end Pairing

section Authentication
variable {first second : WebSocket.Message} {challenge : AuthChallengeState}

theorem says_textIs {m : WebSocket.Message} {key value : String}
    (h : textIs m.payload key value = true) : Says m key (ascii value) :=
  beq_iff_eq.mp h

theorem parseMediaContract_counts {m : WebSocket.Message} {contract : MediaContract}
    (h : parseMediaContract m.payload = some contract) :
    Counts m "width" contract.width ∧ Counts m "height" contract.height ∧
      Counts m "maxFps" contract.maxFps ∧ isValidMediaContract contract = true := by
  unfold parseMediaContract at h
  split at h
  · rename_i width height maxFps hwidth hheight hmaxFps
    split at h
    · cases h
    rename_i hrange
    dsimp only at h
    split at h
    · rename_i hvalid
      cases h
      refine ⟨?_, ?_, ?_, hvalid⟩
      · rw [Counts, hwidth, Int.toNat_of_nonneg (by omega)]
      · rw [Counts, hheight, Int.toNat_of_nonneg (by omega)]
      · rw [Counts, hmaxFps, Int.toNat_of_nonneg (by omega)]
    · cases h
  · cases h

theorem codecValid_says {m : WebSocket.Message} (h : codecValid m.payload = true) :
    Says m "mode" (ascii "auth") ∧ Says m "codec" (ascii "video/avc") ∧
      Says m "avcFormat" (ascii "annexb") := by
  simp only [codecValid, Bool.and_eq_true] at h
  exact ⟨says_textIs h.1.1, says_textIs h.1.2, says_textIs h.2⟩

theorem challenges_of_parse {m : WebSocket.Message} (hm : Spoken m "auth_challenge")
    (h : parseAuthChallenge m.payload = some challenge) : Challenges m challenge := by
  unfold parseAuthChallenge at h
  dsimp only at h
  split at h
  · rename_i epoch contract hepoch hcontract
    split at h
    · cases h
    rename_i hvalid
    cases h
    simp only [not_or, Bool.not_eq_true', Bool.not_eq_false, not_le, not_lt] at hvalid
    obtain ⟨hsender, hdevice, hnonce, hpositive, hmax, hcodec⟩ := hvalid
    obtain ⟨hwidth, hheight, hmaxFps, hmedia⟩ := parseMediaContract_counts hcontract
    obtain ⟨hmode, hname, hformat⟩ := codecValid_says hcodec
    have hsaid : Counts m "sourceEpoch" epoch.toNat := by
      rw [Counts, hepoch, Int.toNat_of_nonneg (by omega)]
    have hbounds : 0 < epoch.toNat ∧ epoch.toNat < 2 ^ 32 := by
      have hsmall : epoch ≤ 2 ^ 32 - 1 := hmax
      omega
    exact { hm with
      offers := ⟨says_text (senderIdValid_ne_nil hsender), says_text (hex_ne_nil hdevice),
        says_text (hex_ne_nil hnonce), hmode, hname, hformat, hsaid, hwidth, hheight, hmaxFps⟩
      sender := hsender
      device := hdevice
      nonce := hnonce
      epoch := hbounds
      contract := hmedia }
  · cases h

theorem completes_of_valid {m first : WebSocket.Message} (hc : Challenges first challenge)
    (hm : Spoken m "auth") (h : authFinalValid challenge m.payload = true) :
    Completes m challenge (text m.payload "credential") := by
  simp only [authFinalValid, Bool.and_eq_true, beq_iff_eq] at h
  obtain ⟨⟨⟨⟨⟨⟨⟨-, hsender⟩, hdevice⟩, hnonce⟩, hepoch⟩, hcodec⟩, hcontract⟩, hcredential⟩ := h
  obtain ⟨hwidth, hheight, hmaxFps, -⟩ := parseMediaContract_counts hcontract
  obtain ⟨hmode, hname, hformat⟩ := codecValid_says hcodec
  have htext {key : String} {value : Bytes} (heq : text m.payload key = value)
      (hvalue : value ≠ []) : Says m key value :=
    heq ▸ says_text (heq.symm ▸ hvalue)
  exact { hm with
    offers := ⟨htext hsender (senderIdValid_ne_nil hc.sender), htext hdevice (hex_ne_nil hc.device),
      htext hnonce (hex_ne_nil hc.nonce), hmode, hname, hformat, hepoch, hwidth, hheight, hmaxFps⟩
    carries := says_text (hex_ne_nil hcredential)
    hexadecimal := hcredential }

/-- The credential that keys a proof is that of the trusted computer. -/
theorem authChallengeLocked_ok {s : ReceiverSession} {credential : Bytes}
    (h : authChallengeLocked challenge s = .ok credential) :
    challenge.senderId = s.trustedSenderId ∧ challenge.deviceId = s.deviceId ∧
      credential = s.trustedCredential := by
  unfold authChallengeLocked at h
  split at h
  · cases h
  split at h
  · cases h
  rename_i hsame
  simp only [not_or, ne_eq, not_not] at hsame
  split at h
  · cases h
  · cases h
  · exact ⟨hsame.1, hsame.2, (Except.ok.inj h).symm⟩

theorem authChallenge_along (hm : Spoken first "auth_challenge") (hk : Heard [first] k) :
    (authChallenge first.payload).Along (History Allowed) k After := by
  unfold authChallenge
  split
  · exact refuse_along _ hk
  rename_i challenge hparsed
  rw [along_bind]
  have hc := challenges_of_parse hm hparsed
  refine (load_along _ hk).mono fun decision l h => ?_
  split
  · exact refuse_along _ h.1.1
  rename_i credential
  obtain ⟨hl, st, hst, hread⟩ := h
  obtain ⟨hsender, hdevice, rfl⟩ := authChallengeLocked_ok hread.symm
  dsimp only
  split
  · exact refuse_along _ hl.1
  rw [along_bind]
  have hdiscloses : Discloses l (.authProof challenge.senderId challenge.deviceId
      challenge.sourceEpoch challenge.nonce (computeAuthProof st.before.trustedCredential
        challenge.senderId challenge.deviceId challenge.sourceEpoch challenge.nonce
        challenge.mediaContract)) :=
    ⟨challenge.mediaContract, ⟨first, by simp [hl.1.messages], hc⟩, st, hst, hsender, hdevice, rfl⟩
  refine (sendControl_along _ hl.1 hdiscloses).mono fun sent l h => ?_
  split
  · exact h.1.1.fails
  · exact ⟨[first], h.1.1, first, rfl, hc⟩

/-- What the commit of an authentication does: it refuses and changes nothing, or it accepts. -/
theorem commitAuth_along (hc : Challenges first challenge)
    (hf : Completes second challenge (text second.payload "credential"))
    (hk : Heard [first, second] k) :
    (Program.critical fun (_ : External) s =>
      commitAuth challenge (text second.payload "credential") s).Along (History Allowed) k
      (fun committed l => From [first, second] k l ∧ ∀ previous, committed = .ok previous →
        ∃ st ∈ l, .committed challenge.sourceEpoch challenge.mediaContract ∈ news st) := by
  rw [along_critical]
  intro s e
  have hrefused (st : SessionStep) (h : st.after = st.before) (code : ErrorCode) :
      History Allowed (k ++ [st]) ∧ From [first, second] k (k ++ [st]) ∧
        ∀ previous, (.error code : Except ErrorCode Previous) = .ok previous →
          ∃ st' ∈ k ++ [st],
            .committed challenge.sourceEpoch challenge.mediaContract ∈ news st' := by
    have hsaid := hk.silent st (h ▸ .refl _)
    exact ⟨hsaid.history, ⟨hsaid, List.prefix_append _ _⟩, fun _ heq => by cases heq⟩
  unfold commitAuth
  split
  · exact hrefused ⟨s, e, s⟩ rfl _
  rename_i htrusted
  split
  · exact hrefused ⟨s, e, s⟩ rfl _
  · exact hrefused ⟨s, e, s⟩ rfl _
  rename_i haccepted
  dsimp only
  simp only [not_or, ne_eq, not_not, Bool.not_eq_true', Bool.not_eq_false] at htrusted
  obtain ⟨hsender, hdevice, hcredential⟩ := htrusted
  have hsame := ((constantTimeEqual_iff _ _).mp hcredential).2
  have hcommits (st : SessionStep) (h : st.before = s) : Commits (messages k) st
      challenge.sourceEpoch challenge.mediaContract := by
    rw [hk.messages]
    subst h
    exact ⟨first, second, challenge, rfl, hc, hsame ▸ hf, rfl, rfl, hsender, hdevice, haccepted⟩
  have hnews : news ⟨s, e, { s with
      latestSourceEpoch := challenge.sourceEpoch
      activeSourceEpoch := challenge.sourceEpoch
      activeMediaContract := challenge.mediaContract
      log := s.log ++ [.committed challenge.sourceEpoch challenge.mediaContract] }⟩ =
        [.committed challenge.sourceEpoch challenge.mediaContract] := news_of_log rfl
  have hsaid := hk.say hnews (by simpa [Owes] using hcommits _ rfl) rfl (by simp)
  exact ⟨hsaid.history, ⟨hsaid, List.prefix_append _ _⟩, fun _ _ =>
    ⟨_, List.mem_append_right _ (List.mem_singleton_self _), by rw [hnews]; simp⟩⟩

theorem concludeAuth_along (previous : Previous) (prepared : Bool) (hk : Heard ms k)
    (hcommitted : ∃ st ∈ k, .committed challenge.sourceEpoch challenge.mediaContract ∈ news st) :
    (concludeAuth challenge previous prepared).Along (History Allowed) k After := by
  unfold concludeAuth
  split
  · rw [along_bind]
    have hrollback : (modify (rollbackAuth challenge previous)).Every Silent := by
      refine modify_every fun s => .of_log ?_
      unfold rollbackAuth
      split <;> rfl
    exact (silent_along hrollback hk).mono fun _ _ h => refuse_along _ h.1
  · rw [along_bind]
    refine (sendControl_along (.ready _ _) hk hcommitted).mono fun sent l h => ?_
    split
    · exact h.1.1.fails
    · rename_i hsent
      obtain ⟨st, hst, hready⟩ := h.2 (by simpa using hsent)
      rw [along_bind]
      refine (silent_along (silent_of_aside (setState_aside _ _ _ _)) h.1.1).mono fun _ l' h' => ?_
      refine ⟨h'.1.history, h'.1.fails.2.1, fun _ => ⟨st, h'.2.subset hst, _, _, hready⟩⟩

theorem authFinal_along (hc : Challenges first challenge) (hm : Spoken second "auth" ∨
    authFinalValid challenge second.payload = false)
    (hk : Heard [first, second] k) :
    (authFinal challenge second.payload).Along (History Allowed) k After := by
  rw [authFinal_eq]
  split
  · exact refuse_along _ hk
  rename_i hvalid
  have hf : Completes second challenge (text second.payload "credential") := by
    have hv : authFinalValid challenge second.payload = true := by simpa using hvalid
    rcases hm with hm | hm
    · exact completes_of_valid hc hm hv
    · rw [hv] at hm
      cases hm
  rw [along_bind]
  refine (commitAuth_along hc hf hk).mono fun committed l h => ?_
  cases committed with
  | error code => exact refuse_along code h.1.1
  | ok previous =>
    obtain ⟨st, hst, hcommitted⟩ := h.2 previous rfl
    have hreconfigure : (reconfigureDecoder challenge.mediaContract).Every Silent :=
      reconfigureDecoder_every (fun _ _ => .of_preparation) (fun _ _ => .of_log rfl) _
    dsimp only
    split
    · rw [along_bind]
      exact (silent_along (silent_of_preparation flushDecoder_effect) h.1.1).mono fun _ _ h' =>
        concludeAuth_along _ _ h'.1 ⟨st, h'.2.subset hst, hcommitted⟩
    · rw [along_bind]
      exact (silent_along hreconfigure h.1.1).mono fun _ _ h' =>
        concludeAuth_along _ _ h'.1 ⟨st, h'.2.subset hst, hcommitted⟩

end Authentication

theorem Waits.short {stage : ChallengeStage} (h : Waits stage ms) : ms.length < 2 := by
  cases stage with
  | initial => simp [show ms = [] from h]
  | pairFinal | authFinal =>
    obtain ⟨first, rfl, -⟩ := h
    simp

theorem message_along {stage : ChallengeStage} (m : WebSocket.Message) (hk : Heard ms k)
    (hw : Waits stage ms) :
    (modify fun s => s.note (.message m s.source)).Along (History Allowed) k
      (fun _ => Heard (ms ++ [m])) := by
  rw [ReceiverSession.modify, along_critical]
  intro s e
  have hnews : news ⟨s, e, s.note (.message m s.source)⟩ = [.message m s.source] := news_of_log rfl
  have hheard : Heard (ms ++ [m]) (k ++ [⟨s, e, s.note (.message m s.source)⟩]) := by
    refine ⟨hk.history.concat fun o ho => ?_, ?_, fun grant sessionId hmem => ?_⟩
    · rw [hnews] at ho
      rw [List.mem_singleton.mp ho, Owes, hk.messages]
      exact ⟨hnews, hw.short⟩
    · rw [messages_concat, hnews, hk.messages]
      rfl
    · rw [observed_concat, hnews] at hmem
      exact hk.unpaired grant sessionId (by simpa using hmem)
  exact ⟨hheard.history, hheard⟩

theorem handleMessage_along {stage : ChallengeStage} (m : WebSocket.Message) (hk : Heard ms k)
    (hw : Waits stage ms) : (handleMessage stage m).Along (History Allowed) k After := by
  unfold handleMessage
  rw [along_bind]
  refine (message_along m hk hw).mono fun _ l hl => ?_
  split
  · exact refuse_along _ hl
  rename_i hshape
  dsimp only
  split
  · exact refuse_along _ hl
  rename_i hversion
  simp only [ne_eq, not_or, not_not, Nat.not_lt] at hshape hversion
  have hspoken {type : String} (h : textIs m.payload "type" type = true) : Spoken m type :=
    ⟨hshape.1, by omega, hversion, h⟩
  cases stage with
  | initial =>
    obtain rfl : ms = [] := hw
    dsimp only
    split
    · rename_i htype
      exact pairManualIpv4_along (hspoken htype) hl
    split
    · rename_i htype
      exact pairChallenge_along (hspoken htype) hl
    split
    · rename_i htype
      exact authChallenge_along (hspoken htype) hl
    · exact refuse_along _ hl
  | pairFinal challenge =>
    obtain ⟨first, rfl, hfirst⟩ := hw
    refine pairFinal_along _ hl fun hvalid => .inr ⟨first, m, rfl, hfirst, ?_, rfl⟩
    simp only [pairFinalValid, hfirst.automatic, Bool.and_eq_true, Bool.or_eq_true] at hvalid
    exact hspoken (by simpa using hvalid.1.1.1.1 : _ ∧ _).1
  | authFinal challenge =>
    obtain ⟨first, rfl, hfirst⟩ := hw
    refine authFinal_along hfirst ?_ hl
    cases htype : textIs m.payload "type" "auth" with
    | true => exact .inl (hspoken htype)
    | false => exact .inr (by simp [authFinalValid, htype])

theorem handleMessages_along (received : List WebSocket.Message) {stage : ChallengeStage}
    (hk : Heard ms k) (hw : Waits stage ms) :
    (handleMessages received stage).Along (History Allowed) k After := by
  induction received generalizing stage ms k with
  | nil => exact ⟨ms, hk, hw⟩
  | cons m received ih =>
    unfold handleMessages
    rw [along_bind]
    refine (handleMessage_along m hk hw).mono fun handled l h => ?_
    cases handled with
    | returned result => exact h
    | next stage =>
      obtain ⟨ms, hl, hw⟩ := h
      exact ih hl hw

/-- What the whole handshake leaves behind. -/
def Ends (result : Bool × WebSocket.Decoder) (k : List SessionStep) : Prop :=
  Answered k ∧ (result.1 = true → Announced k)

theorem Heard.ends (hk : Heard ms k) (decoder : WebSocket.Decoder) : Ends (false, decoder) k :=
  hk.fails.2

theorem authenticateLoop_along (turns : List Turn) (decoder : WebSocket.Decoder)
    {stage : ChallengeStage} (hk : Heard ms k) (hw : Waits stage ms) :
    (authenticateLoop turns decoder stage).Along (History Allowed) k Ends := by
  induction turns generalizing decoder stage ms k with
  | nil => exact hk.ends decoder
  | cons turn turns ih =>
    unfold authenticateLoop
    rw [along_bind]
    refine (load_along _ hk).mono fun desired l hl => ?_
    split
    · exact hl.1.1.ends decoder
    split
    · exact ih _ hl.1.1 hw
    · exact hl.1.1.ends decoder
    split
    · exact hl.1.1.ends _
    rw [along_bind]
    refine (handleMessages_along _ hl.1.1 hw).mono fun handled l h => ?_
    cases handled with
    | returned result => exact h.2
    | next stage =>
      obtain ⟨ms, hl, hw⟩ := h
      exact ih _ hl hw

theorem authenticateConnection_along (turns : List Turn) :
    (authenticateConnection turns).Along (History Allowed) [] Ends := by
  unfold authenticateConnection
  have hnil : Heard [] [] := ⟨.nil, rfl, fun _ _ h => by cases h⟩
  rw [along_bind]
  refine (load_along _ hnil).mono fun socket k hk => ?_
  split
  · exact hk.1.1.ends _
  · exact authenticateLoop_along turns _ hk.1.1 rfl

/-- Every run of a connection, whatever the other threads do meanwhile. -/
theorem connection_history {other : ReceiverSession → ReceiverSession → Prop} {turns : List Turn}
    {s t : ReceiverSession} {h : List SessionStep} {q : Session (Bool × WebSocket.Decoder)}
    (run : Runs other (authenticateConnection turns) s h q t) :
    History Allowed h ∧ ∀ result, q = .ret result → Ends result h := by
  obtain ⟨hhistory, hend⟩ := (authenticateConnection_along turns).runs .nil run
  simp only [List.nil_append] at hhistory hend
  refine ⟨hhistory, ?_⟩
  rintro result rfl
  exact hend

/-- An `auth_challenge` and the `auth` that completes it were taken up, and then accepted by a
section that found the trusted computer, its credential and the source in order. -/
def Authenticated (h : List SessionStep) (epoch : Nat) (contract : MediaContract) : Prop :=
  ∃ before commit after, h = before ++ commit :: after ∧ messages after = [] ∧
    Commits (messages before) commit epoch contract

theorem messages_append (k l : List SessionStep) :
    messages (k ++ l) = messages k ++ messages l := by
  simp [messages, observed]

theorem history_messages (hk : History Allowed k) : (messages k).length ≤ 2 := by
  induction k using List.reverseRecOn with
  | nil => exact Nat.zero_le _
  | append_singleton k st ih =>
    rw [messages_concat, List.length_append]
    by_cases hmessage : ∃ m source, .message m source ∈ news st
    · obtain ⟨m, source, hmem⟩ := hmessage
      have howes : Owes k st (.message m source) := hk.last _ hmem
      rw [howes.1]
      exact howes.2
    · have hnone : (news st).filterMap messageOf = [] := by
        refine List.filterMap_eq_nil_iff.mpr fun o ho => ?_
        cases o with
        | message m source => exact absurd ⟨m, source, ho⟩ hmessage
        | _ => rfl
      simpa [hnone] using ih hk.earlier

theorem authenticated_of_ready {epoch : Nat} {contract : MediaContract} {whole : Bool}
    (hk : History Allowed k) (h : .reply (.ready epoch contract) whole ∈ observed k) :
    Authenticated k epoch contract := by
  obtain ⟨st, hst, hmem⟩ := List.mem_flatMap.mp h
  obtain ⟨before, after, rfl⟩ := List.append_of_mem hst
  obtain ⟨commit, hcommit, hcommitted⟩ : Discloses before (.ready epoch contract) :=
    hk before st after rfl _ hmem
  obtain ⟨earlier, between, rfl⟩ := List.append_of_mem hcommit
  have hcommits : Commits (messages earlier) commit epoch contract :=
    hk earlier commit (between ++ st :: after) (by simp) _ hcommitted
  refine ⟨earlier, commit, between ++ st :: after, by simp, ?_, hcommits⟩
  obtain ⟨first, second, challenge, htwo, -⟩ := hcommits
  have hsplit : earlier ++ commit :: between ++ st :: after =
      earlier ++ ([commit] ++ (between ++ st :: after)) := by simp
  have hlength := history_messages hk
  rw [hsplit, messages_append, messages_append, htwo, List.length_append,
    List.length_append] at hlength
  have hsize : [first, second].length = 2 := rfl
  exact List.eq_nil_of_length_eq_zero (by omega)

/-- The handshake is safe on every run of a connection, whatever other threads do to the
session meanwhile: it takes up two messages at most; it sends `ready` or returns true only
where it authenticated the trusted computer; of its replies only `paired` carries a
credential, the one that this connection created. And it does return: its sections are
bounded by its turns, and before each it can go on or is held by another thread. -/
theorem authentication_safe (other : ReceiverSession → ReceiverSession → Prop)
    (turns : List Turn) (s t : ReceiverSession) (h : List SessionStep)
    (q : Session (Bool × WebSocket.Decoder))
    (run : Runs other (authenticateConnection turns) s h q t) :
    (messages h).length ≤ 2 ∧
    (∀ epoch contract whole, .reply (.ready epoch contract) whole ∈ observed h →
      Authenticated h epoch contract) ∧
    (∀ result, q = .ret result → result.1 = true →
      ∃ epoch contract, .reply (.ready epoch contract) true ∈ observed h ∧
        Authenticated h epoch contract) ∧
    (∀ r whole, .reply r whole ∈ observed h → Discloses h r) ∧
    h.length ≤ turns.length + 53 ∧
    (q.result = none → q.canStep t = true ∨ Returning.Held q t) := by
  obtain ⟨hhistory, hends⟩ := connection_history run
  obtain ⟨hlength, hbounded⟩ := (Returning.authenticateConnection_bounded turns).runs run
  refine ⟨history_messages hhistory, fun _ _ _ => authenticated_of_ready hhistory,
    fun result hret htrue => ?_, fun r whole hmem => ?_, hlength, Returning.canStep_or_held hbounded⟩
  · obtain ⟨st, hst, epoch, contract, hready⟩ := (hends result hret).2 htrue
    have hmem := List.mem_flatMap.mpr ⟨st, hst, hready⟩
    exact ⟨epoch, contract, hmem, authenticated_of_ready hhistory hmem⟩
  · obtain ⟨st, hst, hreply⟩ := List.mem_flatMap.mp hmem
    obtain ⟨before, after, rfl⟩ := List.append_of_mem hst
    exact (show Discloses before r from hhistory before st after rfl _ hreply).mono
      (List.prefix_append _ _)

/-- A session that trusts the computer of the texts. -/
def trustingSession : ReceiverSession :=
  { ({} : ReceiverSession) with
    desired := true
    controlSocket := true
    deviceId := (List.replicate 16 (ascii "07")).flatten
    trustedSenderId := List.replicate 16 0x63
    trustedCredential := (List.replicate 32 (ascii "07")).flatten }

def authTurns : List Turn :=
  [EpochAgreement.authChallengeText 5, EpochAgreement.authText 5].map fun json =>
    .received (WebSocketStream.clientFrame json)

def playedAuth : List SessionStep × Session (Bool × WebSocket.Decoder) × ReceiverSession :=
  (authenticateConnection authTurns).play trustingSession
    (List.replicate 40 { sendMutex := true, sends := [.sent 1000] })

theorem trusted_computer_authenticated :
    (playedAuth.2.1.result.map Prod.fst = some true) ∧
      ∃ epoch contract, .reply (.ready epoch contract) true ∈ observed playedAuth.1 ∧
        Authenticated playedAuth.1 epoch contract := by
  have hreturned : playedAuth.2.1.result.map Prod.fst = some true := by decide +kernel
  obtain ⟨result, hresult, htrue⟩ := Option.map_eq_some_iff.mp hreturned
  exact ⟨hreturned, (authentication_safe (fun _ _ => True) authTurns trustingSession _ _ _
    (play_runs _ _ _)).2.2.1 result (eq_ret_of_result hresult) htrue⟩

end HarmonyScreen.Proofs.Connection
