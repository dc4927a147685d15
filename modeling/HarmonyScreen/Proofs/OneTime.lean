import HarmonyScreen.Lib.History
import HarmonyScreen.Proofs.Network
import HarmonyScreen.Proofs.PairingDelivery

namespace HarmonyScreen.Proofs.OneTime
open Lib Program Receiver ReceiverSession Effects Handshake Pairing Network Protocol

def acceptedSession : Observation → Option Bytes
  | .paired _ sessionId => some sessionId
  | _ => none

/-- The sessions accepted in a pairing, in order. -/
def accepted (log : List Observation) : List Bytes := log.filterMap acceptedSession

theorem acceptedSession_eq_some (h : acceptedSession o = some sessionId) :
    ∃ grant, o = .paired grant sessionId := by
  unfold acceptedSession at h
  split at h
  · rename_i grant other
    exact ⟨grant, by rw [Option.some.inj h]⟩
  · cases h

/-- Every `paired` reply goes out right behind the mark of a grant given before
it, and no grant is marked twice. -/
def OneReplyEach (log : List Observation) : Prop :=
  (∀ earlier deviceId credential whole later,
    log = earlier ++ .reply (.paired deviceId credential) whole :: later →
      ∃ before grant, earlier = before ++ [.answered grant] ∧ 0 < grant ∧
        grant ≤ before.count .granted) ∧
  ∀ grant, log.count (.answered grant) ≤ 1

def NoSessionTwice (log : List Observation) : Prop := (accepted log).Nodup

/-- A final pairing message to which nothing but its session id can still be
objected: an unexpired authorization for it is pending. -/
def Authorized (a : PairingAttempt) : Prop :=
  milliseconds a.now < milliseconds a.pairingExpiresAt ∧
  ((a.pendingSessionId ≠ [] ∧ a.challenge.sessionId = a.pendingSessionId ∧
      constantTimeEqual a.token a.pendingToken = true) ∨
    (a.pendingShortCode ≠ [] ∧
      constantTimeEqualSized (pairingShortCode a.token) a.pendingShortCode 6 = true)) ∧
  a.random = true ∧ a.deviceId = a.challenge.deviceId

/-- No authorization is pending for a session that was accepted before when its
final message arrives, unless the session is the one consumed last. -/
def OldOnlyIfLast (log : List Observation) : Prop :=
  ∀ earlier a later, log = earlier ++ .presented a :: later → Authorized a →
    a.challenge.sessionId ∈ accepted earlier → a.challenge.sessionId = a.consumedSessionId

theorem evaluate_accepted_iff (sessionId token pendingSessionId pendingToken pendingShortCode
    consumedSessionId : Bytes) (expiresAt now : Int) :
    evaluatePairingAuthorization sessionId token pendingSessionId pendingToken pendingShortCode
        consumedSessionId expiresAt now = .accepted ↔
      ¬ (sessionId ≠ [] ∧ sessionId = consumedSessionId) ∧ now < expiresAt ∧
        ((pendingSessionId ≠ [] ∧ sessionId = pendingSessionId ∧
            constantTimeEqual token pendingToken = true) ∨
          (pendingShortCode ≠ [] ∧
            constantTimeEqualSized (pairingShortCode token) pendingShortCode 6 = true)) := by
  unfold evaluatePairingAuthorization
  split
  · rename_i hused
    exact ⟨fun h => by simp at h, fun h => absurd hused h.1⟩
  · rename_i hused
    split
    · rename_i hlate
      exact ⟨fun h => by simp at h, fun h => absurd h.2.1 (by omega)⟩
    · rename_i hlate
      dsimp only
      split
      · rename_i hmatch
        exact ⟨fun _ => ⟨hused, by omega, hmatch⟩, fun _ => rfl⟩
      · rename_i hmatch
        exact ⟨fun h => by simp at h, fun h => absurd h.2.2 hmatch⟩

theorem not_refused_iff (a : PairingAttempt) : ¬ Refused a ↔
    Authorized a ∧ ¬ (a.challenge.sessionId ≠ [] ∧ a.challenge.sessionId = a.consumedSessionId) := by
  unfold Refused Authorized
  rw [not_or, not_or, not_not, not_not, Bool.not_eq_false, evaluate_accepted_iff]
  constructor
  · rintro ⟨⟨hfresh, htime, hmatch⟩, hrandom, hdevice⟩
    exact ⟨⟨htime, hmatch, hrandom, hdevice⟩, hfresh⟩
  · rintro ⟨⟨htime, hmatch, hrandom, hdevice⟩, hfresh⟩
    exact ⟨⟨hfresh, htime, hmatch⟩, hrandom, hdevice⟩

/-- What an entry of the log owes to the entries before it. -/
def Allowed (earlier : List Observation) : Observation → Prop
  | .paired grant sessionId =>
    grant = earlier.count .granted ∧ 0 < grant ∧ (∀ other, .paired grant other ∉ earlier) ∧
      sessionId ≠ [] ∧ ∃ before a, earlier = before ++ [.presented a] ∧
        a.challenge.sessionId = sessionId ∧ ¬ Refused a
  | .answered grant => .answered grant ∉ earlier ∧ ∃ sessionId, .paired grant sessionId ∈ earlier
  | .reply (.paired _ _) _ => ∃ before grant, earlier = before ++ [.answered grant]
  | _ => True

/-- An attempt that was not refused is followed by its pairing. -/
def Followed (log : List Observation) : Prop :=
  ∀ earlier a later, log = earlier ++ .presented a :: later → ¬ Refused a →
    ∃ grant rest, later = .paired grant a.challenge.sessionId :: rest

def Pending (s : ReceiverSession) : Prop := s.pendingSessionId ≠ [] ∨ s.pendingShortCode ≠ []

/-- The invariant: a pending authorization is one that no pairing has used. -/
structure UsedOnce (s : ReceiverSession) : Prop where
  history : History Allowed s.log
  followed : Followed s.log
  unused : Pending s → 0 < s.grants ∧ ∀ sessionId, .paired s.grants sessionId ∉ s.log

theorem allowed_of_not_pairing (h : isPairing o = false) (earlier : List Observation) :
    Allowed earlier o := by
  unfold isPairing at h
  split at h
  · cases h
  · cases h
  · cases h
  · cases h
  · cases h
  · unfold Allowed
    split <;> first | trivial | simp_all

theorem Followed.append {log os : List Observation} (h : Followed log)
    (hos : ∀ o ∈ os, ∀ a, o ≠ .presented a) :
    Followed (log ++ os) := by
  intro earlier a later heq haccepted
  obtain ⟨between, rfl, hlog⟩ := append_split (fun hmem => hos _ hmem a rfl) heq
  obtain ⟨grant, rest, rfl⟩ := h earlier a between hlog haccepted
  exact ⟨grant, rest ++ os, rfl⟩

/-- Sections that add nothing about pairings and authorize nothing new. -/
theorem UsedOnce.quiet {s t : ReceiverSession} {os : List Observation} (h : UsedOnce s)
    (hlog : t.log = s.log ++ os) (hos : ∀ o ∈ os, isPairing o = false)
    (hpending : Pending t → Pending s) : UsedOnce t := by
  have hnot {o : Observation} (ho : isPairing o = true) : o ∉ os := by
    intro hmem
    simp [hos o hmem] at ho
  have hgrants : t.grants = s.grants := by
    simp [grants, hlog, List.count_append, List.count_eq_zero.mpr (hnot (o := .granted) rfl)]
  refine ⟨?_, ?_, fun hp => ?_⟩
  · rw [hlog]
    exact h.history.append fun done o rest heq =>
      allowed_of_not_pairing (hos o (by simp [heq])) _
  · rw [hlog]
    exact h.followed.append fun o ho a heq => hnot (o := .presented a) rfl (heq ▸ ho)
  · obtain ⟨hpos, hunused⟩ := h.unused (hpending hp)
    rw [hgrants]
    refine ⟨hpos, fun sessionId hmem => ?_⟩
    rw [hlog] at hmem
    rcases List.mem_append.mp hmem with hmem | hmem
    · exact hunused sessionId hmem
    · exact hnot rfl hmem

theorem UsedOnce.unpaired (h : UsedOnce s) (hu : Unpaired s t) : UsedOnce t := by
  obtain ⟨hfields, os, hlog, hos⟩ := hu
  have hpending : Pending (pairing t) ↔ Pending (pairing s) := by rw [hfields]
  exact h.quiet hlog hos hpending.mp

theorem paired_le {log : List Observation} {grant : Nat} (h : History Allowed log)
    (hmem : .paired grant sessionId ∈ log) : 0 < grant ∧ grant ≤ log.count .granted := by
  obtain ⟨earlier, later, rfl⟩ := List.append_of_mem hmem
  obtain ⟨rfl, hpos, _⟩ := h _ _ _ rfl
  refine ⟨hpos, ?_⟩
  rw [List.count_append]
  omega

/-- A new grant is unused. -/
theorem UsedOnce.grant {s t : ReceiverSession} (h : UsedOnce s)
    (hlog : t.log = s.log ++ [.granted]) : UsedOnce t := by
  have hgrants : t.grants = s.grants + 1 := by simp [grants, hlog, List.count_append]
  refine ⟨?_, ?_, fun _ => ⟨by omega, fun sessionId hmem => ?_⟩⟩
  · rw [hlog]
    exact h.history.concat trivial
  · rw [hlog]
    exact h.followed.append fun o ho a heq => by simp [heq] at ho
  · rw [hgrants, hlog] at hmem
    simp only [List.mem_append, List.mem_singleton, reduceCtorEq, or_false] at hmem
    have hle := (paired_le h.history hmem).2
    rw [grants] at hle
    omega

theorem UsedOnce.refused {s : ReceiverSession} {a : PairingAttempt} (h : UsedOnce s)
    (hrefused : Refused a) : UsedOnce (s.note (.presented a)) := by
  have hgrants : (s.note (.presented a)).grants = s.grants := by
    simp [grants, note, List.count_append]
  refine ⟨h.history.concat trivial, ?_, fun hp => ?_⟩
  · intro earlier b later heq haccepted
    rcases concat_split heq with ⟨rfl, hb, rfl⟩ | ⟨more, rfl, hlog⟩
    · cases hb
      exact absurd hrefused haccepted
    · obtain ⟨grant, rest, rfl⟩ := h.followed earlier b more hlog haccepted
      exact ⟨grant, rest ++ [.presented a], rfl⟩
  · obtain ⟨hpos, hunused⟩ := h.unused hp
    rw [hgrants]
    refine ⟨hpos, fun sessionId hmem => hunused sessionId ?_⟩
    simpa [note] using hmem

/-- What the network thread owes after the commit of a pairing: one reply. -/
def Owing (grant : Nat) (s : ReceiverSession) : Prop :=
  (∃ sessionId, .paired grant sessionId ∈ s.log) ∧ .answered grant ∉ s.log

theorem UsedOnce.accepted {s : ReceiverSession} {a : PairingAttempt} (credential : Bytes)
    (h : UsedOnce s) (haccepted : ¬ Refused a) (hpending : Pending s)
    (hsession : a.challenge.sessionId ≠ []) :
    UsedOnce ((s.note (.presented a)).acceptPairing a.challenge credential) ∧
      Owing s.grants ((s.note (.presented a)).acceptPairing a.challenge credential) := by
  obtain ⟨hpos, hunused⟩ := h.unused hpending
  have hgrants : (s.note (.presented a)).grants = s.grants := by
    simp [grants, note, List.count_append]
  have hlog : ((s.note (.presented a)).acceptPairing a.challenge credential).log =
      s.log ++ [.presented a] ++ [.paired s.grants a.challenge.sessionId] := by
    simp only [acceptPairing, hgrants]
    rfl
  have hnone : ∀ other, .paired s.grants other ∉ s.log ++ [.presented a] := by
    intro other hmem
    exact hunused other (by simpa using hmem)
  refine ⟨⟨?_, ?_, fun hp => ?_⟩, ?_⟩
  · rw [hlog]
    have hpresented : History Allowed (s.log ++ [.presented a]) := h.history.concat trivial
    exact hpresented.concat
      ⟨hgrants.symm, hpos, hnone, hsession, s.log, a, rfl, rfl, haccepted⟩
  · rw [hlog]
    intro earlier b later heq hb
    rcases concat_split heq with ⟨_, hcontra, _⟩ | ⟨more, rfl, hbehind⟩
    · cases hcontra
    · rcases concat_split hbehind with ⟨_, hab, rfl⟩ | ⟨more, rfl, hsplit⟩
      · cases hab
        exact ⟨s.grants, [], rfl⟩
      · obtain ⟨grant, rest, rfl⟩ := h.followed earlier b more hsplit hb
        exact ⟨grant, rest ++ [.presented a] ++ [.paired s.grants a.challenge.sessionId], rfl⟩
  · rcases hp with hp | hp <;> simp [acceptPairing] at hp
  · rw [Owing, hlog]
    refine ⟨⟨a.challenge.sessionId, by simp⟩, fun hmem => ?_⟩
    have hmem : .answered s.grants ∈ s.log := by simpa using hmem
    obtain ⟨earlier, later, heq⟩ := List.append_of_mem hmem
    obtain ⟨_, sessionId, hpaired⟩ := h.history earlier _ later heq
    exact hunused sessionId (by simp [heq, hpaired])

theorem UsedOnce.answered {s : ReceiverSession} {grant : Nat} (h : UsedOnce s) (howing : Owing grant s)
    (deviceId credential : Bytes) (whole : Bool) :
    UsedOnce { s with
      log := s.log ++ [.answered grant] ++ [.reply (.paired deviceId credential) whole] } := by
  obtain ⟨hpaired, hnot⟩ := howing
  have hhistory : History Allowed (s.log ++ [.answered grant]) := h.history.concat ⟨hnot, hpaired⟩
  refine ⟨hhistory.concat ⟨s.log, grant, rfl⟩, ?_, fun hp => ?_⟩
  · rw [List.append_assoc]
    exact h.followed.append fun o ho a heq => by simp [heq] at ho
  · obtain ⟨hpos, hunused⟩ := h.unused hp
    have hgrants : grants { s with
        log := s.log ++ [.answered grant] ++ [.reply (.paired deviceId credential) whole] } =
          s.grants := by simp [grants, List.count_append]
    rw [hgrants]
    refine ⟨hpos, fun sessionId hmem => hunused sessionId ?_⟩
    simpa using hmem

/-- What the network thread relies on: nobody else answers a grant. -/
structure Respects (s t : ReceiverSession) : Prop where
  keeps : UsedOnce s → UsedOnce t
  log : ∃ os, t.log = s.log ++ os ∧ ∀ grant, .answered grant ∉ os

theorem Respects.refl (s : ReceiverSession) : Respects s s := ⟨id, [], by simp, by simp⟩

theorem Respects.trans (h : Respects s t) (k : Respects t u) : Respects s u := by
  obtain ⟨hkeeps, os, hlog, hos⟩ := h
  obtain ⟨kkeeps, ps, klog, kos⟩ := k
  refine ⟨kkeeps ∘ hkeeps, os ++ ps, by simp [klog, hlog], fun grant hmem => ?_⟩
  exact (List.mem_append.mp hmem).elim (hos grant) (kos grant)

theorem Respects.of_unpaired (h : Unpaired s t) : Respects s t := by
  refine ⟨fun hs => hs.unpaired h, ?_⟩
  obtain ⟨_, os, hlog, hos⟩ := h
  exact ⟨os, hlog, fun grant hmem => by simpa [isPairing] using hos _ hmem⟩

theorem Respects.of_silent (hlog : t.log = s.log) (hpending : Pending t → Pending s) :
    Respects s t := by
  have hnone : t.log = s.log ++ [] := by rw [hlog, List.append_nil]
  exact ⟨fun hs => hs.quiet hnone (by simp) hpending, [], hnone, by simp⟩

theorem Respects.of_ui (h : UiEffect s t) : Respects s t := by
  have hcleared {u : ReceiverSession} (hid : u.pendingSessionId = [])
      (hcode : u.pendingShortCode = []) : ¬ Pending u := by
    rintro (h | h)
    · exact h hid
    · exact h hcode
  cases h with
  | aside h => exact .of_unpaired (.of_aside h)
  | identify deviceId h =>
    exact .of_silent h.log (iff_of_eq (h.core_field Pending)).mp
  | trust deviceId senderId credential version h =>
    exact .of_silent h.log (iff_of_eq (h.core_field Pending)).mp
  | grant sessionId token shortCode expiresAt kind h =>
    exact ⟨fun hs => hs.grant h.log, [.granted], h.log, by simp⟩
  | forget h =>
    refine .of_silent h.log fun hp => ?_
    exact absurd hp (hcleared (h.core_field ReceiverSession.pendingSessionId)
      (h.core_field ReceiverSession.pendingShortCode))

theorem admitSlot_unpaired (decoder : Nat) (slot : InputSlot) (s : ReceiverSession) :
    Unpaired s (admitSlot decoder slot s) := by
  refine Unpaired.trans ?_ (.of_pumped (pumpDecoderLocked_pumped decoder _))
  exact .note (.admitted slot) rfl rfl rfl

theorem Respects.of_other (h : OtherEffect s t) : Respects s t := by
  cases h with
  | lifecycle h => exact .of_unpaired (.of_lifecycle h)
  | ui h => exact .of_ui h
  | needInput decoder slot => exact .of_unpaired (admitSlot_unpaired decoder slot s)

/-- Between connections the network thread asserts the invariant alone. -/
def once : Assertion Respects UsedOnce := ⟨UsedOnce, fun h r => r.keeps h, id⟩

def owing (grant : Nat) : Assertion Respects UsedOnce :=
  once.also (Owing grant) fun {s t} h r => by
    obtain ⟨⟨sessionId, hpaired⟩, hnot⟩ := h
    obtain ⟨os, hlog, hos⟩ := r.log
    refine ⟨⟨sessionId, by simp [hlog, hpaired]⟩, fun hmem => ?_⟩
    rw [hlog] at hmem
    exact (List.mem_append.mp hmem).elim hnot (hos grant)

/-- The session of a pairing that waits for its final message has an id. -/
def Named : ChallengeStage → Prop
  | .pairFinal challenge => challenge.sessionId ≠ []
  | _ => True

def stage (stage : ChallengeStage) : Assertion Respects UsedOnce := once.when (Named stage)

theorem steady_once : Steady once := ⟨Respects.refl, fun _ _ hs ha => hs.unpaired (.of_aside ha)⟩

theorem streams_once : Streams once where
  toSteady := steady_once
  reply s r whole hr hs := by
    refine UsedOnce.unpaired hs (.of_answers (.reply r whole ?_))
    cases r <;> first | rfl | cases hr
  video := handleVideo_triple steady_once fun _ _ _ hs h => UsedOnce.unpaired hs (.of_video h)

theorem steady_stage (st : ChallengeStage) : Steady (stage st) :=
  ⟨Respects.refl, fun _ _ hs ha => ⟨hs.1, hs.2.unpaired (.of_aside ha)⟩⟩

/-- Whether a handled message leads on only to a stage of a named session. -/
def LeadsOn : Handled → Prop
  | .returned _ => True
  | .next stage => Named stage

theorem unpaired_triple {p : Session Handled} (hp : p.Every Unpaired) (hr : p.Returns LeadsOn) :
    Triple once p (afterMessage once stage) := by
  have htriple : Triple once p (fun _ => once) := .every hp fun _ _ hs hu => UsedOnce.unpaired hs hu
  refine (htriple.returns hr).weaken (fun _ h => h) fun handled s h => ?_
  cases handled with
  | returned => exact h.2
  | next stage => exact ⟨h.1, h.2⟩

theorem refuse_leadsOn (code : ErrorCode) : (refuse code).Returns LeadsOn :=
  returns_bind fun _ => trivial

theorem pairChallenge_leadsOn (json : Bytes) : (pairChallenge json).Returns LeadsOn := by
  unfold pairChallenge
  dsimp only
  split
  · exact refuse_leadsOn _
  rename_i hvalid
  have hnamed : text json "sessionId" ≠ [] := by
    intro hnil
    simp [hnil, hex] at hvalid
  refine returns_bind fun decided => ?_
  split
  · exact refuse_leadsOn _
  split
  · exact refuse_leadsOn _
  refine returns_bind fun sent => ?_
  split
  · trivial
  · exact hnamed

theorem authChallenge_leadsOn (json : Bytes) : (authChallenge json).Returns LeadsOn := by
  unfold authChallenge
  split
  · exact refuse_leadsOn _
  refine returns_bind fun decision => ?_
  split
  · exact refuse_leadsOn _
  dsimp only
  split
  · exact refuse_leadsOn _
  refine returns_bind fun sent => ?_
  split
  · trivial
  · trivial

theorem authFinal_leadsOn (challenge : AuthChallengeState) (json : Bytes) :
    (authFinal challenge json).Returns LeadsOn := by
  have hconclude (previous : Previous) (prepared : Bool) :
      (concludeAuth challenge previous prepared).Returns LeadsOn := by
    unfold concludeAuth
    split
    · exact returns_bind fun _ => refuse_leadsOn _
    · refine returns_bind fun sent => ?_
      split
      · trivial
      · exact returns_bind fun _ => trivial
  rw [authFinal_eq]
  split
  · exact refuse_leadsOn _
  refine returns_bind fun committed => ?_
  cases committed with
  | error code => exact refuse_leadsOn _
  | ok previous =>
    dsimp only
    split
    · exact returns_bind (hconclude previous)
    · exact returns_bind (hconclude previous)

/-- What the commit of a pairing leaves behind. -/
def committed : Except ErrorCode (Bytes × Nat) → Assertion Respects UsedOnce
  | .error _ => once
  | .ok (_, grant) => owing grant

theorem pairFinal_triple (challenge : PairChallengeState) (json : Bytes)
    (hnamed : challenge.sessionId ≠ []) :
    Triple once (pairFinal challenge json) (afterMessage once stage) := by
  have hrefuse (code : ErrorCode) : Triple once (refuse code) (afterMessage once stage) :=
    unpaired_triple (refuse_unpaired code) (refuse_leadsOn code)
  unfold pairFinal
  split
  · exact hrefuse _
  refine .bind (Q := committed) Respects.refl (.critical fun e s hs => ?_) fun result => ?_
  · rcases commitPairing_cases challenge (text json "token") e s with
      ⟨hrefused, code, heq⟩ | ⟨haccepted, heq⟩
    · rw [heq]
      exact UsedOnce.refused hs hrefused
    · rw [heq]
      have hpending : Pending s := (((not_refused_iff _).mp haccepted).1.2.1).imp And.left And.left
      exact UsedOnce.accepted (a := s.attempt challenge (text json "token") e) _ hs haccepted
        hpending hnamed
  · split
    · exact hrefuse _
    · rename_i credential grant
      refine .bind (Q := fun _ => once) Respects.refl (.critical fun e s hs => ?_) fun _ => ?_
      · exact UsedOnce.answered hs.1 hs.2 challenge.deviceId credential _
      · refine .bind Respects.refl (steady_once.triple (setState_aside _ _ _ _)) fun _ => ?_
        exact .ret _ fun _ h => h

theorem pairManualIpv4_triple (json : Bytes) :
    Triple once (pairManualIpv4 json) (afterMessage once stage) := by
  unfold pairManualIpv4
  dsimp only
  split
  · exact unpaired_triple (refuse_unpaired _) (refuse_leadsOn _)
  · rename_i hvalid
    have hnamed : text json "sessionId" ≠ [] := by
      intro hnil
      simp [hnil, hex] at hvalid
    exact .bind Respects.refl (steady_once.load _) fun deviceId => pairFinal_triple _ json hnamed

theorem handleMessage_triple (st : ChallengeStage) (message : WebSocket.Message) :
    Triple (stage st) (handleMessage st message) (afterMessage once stage) := by
  have hdrop {p : Session Handled} (hp : Triple once p (afterMessage once stage)) :
      Triple (stage st) p (afterMessage once stage) := hp.weaken (fun _ h => h.2) fun _ _ h => h
  have hquiet {p : Session Handled} (hp : p.Every Unpaired) (hr : p.Returns LeadsOn) :
      Triple (stage st) p (afterMessage once stage) := hdrop (unpaired_triple hp hr)
  have hnote : (ReceiverSession.modify fun s => s.note (.message message s.source)).Every Unpaired :=
    modify_every fun s => .note _ rfl rfl rfl
  unfold handleMessage
  refine .bind (Q := fun _ => stage st) Respects.refl
    (.every hnote fun _ _ hs hu => ⟨hs.1, hs.2.unpaired hu⟩) fun _ => ?_
  split
  · exact hquiet (refuse_unpaired _) (refuse_leadsOn _)
  dsimp only
  split
  · exact hquiet (refuse_unpaired _) (refuse_leadsOn _)
  cases st with
  | initial =>
    dsimp only
    split
    · exact hdrop (pairManualIpv4_triple _)
    split
    · exact hquiet (pairChallenge_unpaired _) (pairChallenge_leadsOn _)
    split
    · exact hquiet (authChallenge_unpaired _) (authChallenge_leadsOn _)
    · exact hquiet (refuse_unpaired _) (refuse_leadsOn _)
  | pairFinal challenge =>
    exact fun s hs => pairFinal_triple challenge message.payload hs.1 s hs.2
  | authFinal challenge =>
    exact hquiet (authFinal_unpaired _ _) (authFinal_leadsOn _ _)

theorem network_triple (turns : List (Option Connection)) :
    Triple once (networkLoop turns) (fun _ => once) :=
  networkLoop_triple steady_once
    (authenticateConnection_triple steady_once steady_stage (fun _ h => ⟨trivial, h⟩)
      (fun _ _ h => h.2) handleMessage_triple)
    (Streams.runConnectedSession streams_once) turns

/-- The invariant holds in every state of the process. -/
theorem reachable_usedOnce {c : Config Thread ReceiverSession External} (hc : Reachable c) :
    UsedOnce c.state := by
  have hinit : UsedOnce {} := by
    refine ⟨.nil, fun earlier a later heq => by simp at heq, fun hp => ?_⟩
    rcases hp with hp | hp <;> exact absurd rfl hp
  exact steady_once.reachable Respects.trans (fun _ _ => .of_other) hinit network_triple hc

theorem oneReplyEach {log : List Observation} (h : History Allowed log) : OneReplyEach log := by
  refine ⟨fun earlier deviceId credential whole later heq => ?_,
    fun grant => h.count_le_one fun pre hallowed => hallowed.1⟩
  obtain ⟨before, grant, rfl⟩ := h _ _ _ heq
  rw [List.append_assoc] at heq
  obtain ⟨_, sessionId, hpaired⟩ := h before _ _ heq
  have hbefore : History Allowed before := (heq ▸ h).earlier
  obtain ⟨hpos, hle⟩ := paired_le hbefore hpaired
  exact ⟨before, grant, rfl, hpos, hle⟩

theorem accepted_append (log more : List Observation) :
    accepted (log ++ more) = accepted log ++ accepted more := List.filterMap_append

theorem oldOnlyIfLast_of_noSessionTwice {log : List Observation} (hfollowed : Followed log)
    (honce : NoSessionTwice log) : OldOnlyIfLast log := by
  intro earlier a later heq hauthorized hold
  by_contra hlast
  have haccepted : ¬ Refused a := (not_refused_iff a).mpr ⟨hauthorized, fun h => hlast h.2⟩
  obtain ⟨grant, rest, rfl⟩ := hfollowed earlier a later heq haccepted
  have hlog : accepted log = accepted earlier ++ a.challenge.sessionId :: accepted rest := by
    rw [heq, accepted_append]
    rfl
  rw [NoSessionTwice, hlog] at honce
  exact (List.nodup_append.mp honce).2.2 _ hold _ List.mem_cons_self rfl

theorem noSessionTwice_of_oldOnlyIfLast {log : List Observation} (h : History Allowed log)
    (hold : OldOnlyIfLast log) : NoSessionTwice log := by
  induction log using List.reverseRecOn with
  | nil => exact List.nodup_nil
  | append_singleton log o ih =>
    have hlog : NoSessionTwice log := ih h.earlier fun earlier a later heq =>
      hold earlier a (later ++ [o]) (by simp [heq])
    rw [NoSessionTwice, accepted_append]
    cases hsession : acceptedSession o with
    | none =>
      rw [show accepted [o] = [] from List.filterMap_cons_none hsession, List.append_nil]
      exact hlog
    | some sessionId =>
      obtain ⟨grant, rfl⟩ := acceptedSession_eq_some hsession
      obtain ⟨_, _, _, hnamed, before, a, rfl, rfl, haccepted⟩ := h.last
      have hfresh : a.challenge.sessionId ∉ accepted (before ++ [.presented a]) := by
        intro hused
        have hbefore : a.challenge.sessionId ∈ accepted before := by
          simpa [accepted_append, accepted, acceptedSession] using hused
        obtain ⟨hauthorized, hlast⟩ := (not_refused_iff a).mp haccepted
        have hconsumed := hold before a [.paired grant a.challenge.sessionId] (by simp) hauthorized
          hbefore
        exact hlast ⟨hnamed, hconsumed⟩
      refine List.nodup_append.mpr ⟨hlog, by simp [accepted, acceptedSession], ?_⟩
      rintro x hx y hy rfl
      rw [show x = a.challenge.sessionId from List.mem_singleton.mp hy] at hx
      exact hfresh hx

/-- In every reachable state: each grant has led to at most one `paired` reply,
and no session was accepted twice exactly when no session other than the one
consumed last was authorized and presented again. -/
theorem one_time_iff_oldOnlyIfLast (c : Config Thread ReceiverSession External)
    (hc : Reachable c) :
    OneReplyEach c.state.log ∧ (NoSessionTwice c.state.log ↔ OldOnlyIfLast c.state.log) := by
  obtain ⟨hhistory, hfollowed, _⟩ := reachable_usedOnce hc
  exact ⟨oneReplyEach hhistory, oldOnlyIfLast_of_noSessionTwice hfollowed,
    noSessionTwice_of_oldOnlyIfLast hhistory⟩

/-- A QR code that expires after a minute is scanned. -/
def scan (sessionId : Bytes) : Thread × Job × List External :=
  (.ui, .authorizeQr sessionId (List.replicate 64 0x32) 60000, [{}])

def lively : External := { random := some fun _ => 7, sendMutex := true, sends := [.sent 1000] }

def startReceiving : Thread × Job × List External := (.ui, .start, List.replicate 20 lively)

/-- A computer connects and pairs by the session; then the Wi-Fi address changes. -/
def pairBy (sessionId : Bytes) : Thread × Job × List External :=
  (.network,
    .network [some ⟨true, [.received (PairingDelivery.manualPairing sessionId
      (List.replicate 16 0x63) (List.replicate 64 0x32))], []⟩, none],
    List.replicate 16 lively ++ List.replicate 8 { lively with addressCurrent := false })

def firstSession : Bytes := List.replicate 32 0x31

def otherSession : Bytes := List.replicate 32 0x33

/-- The first QR code is scanned again after a pairing by another one. -/
def rescanning : List (Thread × Job × List External) :=
  [firstSession, otherSession, firstSession].flatMap fun sessionId =>
    [startReceiving, scan sessionId, pairBy sessionId]

theorem rescanning_accepts : ∃ s, Config.perform spawn launched rescanning {} = some s ∧
    accepted s.log = [firstSession, otherSession, firstSession] := by
  have hrun : (Config.perform spawn launched rescanning {}).map (fun s => accepted s.log) =
      some [firstSession, otherSession, firstSession] := by decide +kernel
  exact Option.map_eq_some_iff.mp hrun

theorem session_accepted_twice : ∃ c : Config Thread ReceiverSession External, Reachable c ∧
    ¬ (OneReplyEach c.state.log ∧ NoSessionTwice c.state.log) := by
  obtain ⟨s, hs, haccepted⟩ := rescanning_accepts
  refine ⟨Config.idle s, Config.Reaches.refl.perform rescanning hs, fun h => ?_⟩
  have honce : (accepted s.log).Nodup := h.2
  rw [haccepted] at honce
  simp at honce

theorem rescanning_not_oldOnlyIfLast : ∃ c : Config Thread ReceiverSession External,
    Reachable c ∧ OneReplyEach c.state.log ∧ ¬ OldOnlyIfLast c.state.log := by
  obtain ⟨s, hs, haccepted⟩ := rescanning_accepts
  have hreach : Reachable (Config.idle s) := Config.Reaches.refl.perform rescanning hs
  obtain ⟨hreplies, hiff⟩ := one_time_iff_oldOnlyIfLast (Config.idle s) hreach
  refine ⟨Config.idle s, hreach, hreplies, fun hold => ?_⟩
  have honce : (accepted s.log).Nodup := hiff.mpr hold
  rw [haccepted] at honce
  simp at honce

end HarmonyScreen.Proofs.OneTime
