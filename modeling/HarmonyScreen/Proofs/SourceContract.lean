import HarmonyScreen.Lib.History
import HarmonyScreen.Proofs.Network

namespace HarmonyScreen.Proofs.SourceContract
open Lib Program Receiver ReceiverSession Effects Handshake Network Protocol

variable {log more os : List Observation} {o : Observation} {a b c : Nat × MediaContract}

/-- The epoch and contract of a `ready` reply. -/
def readySource : Observation → Option (Nat × MediaContract)
  | .reply (.ready epoch contract) _ => some (epoch, contract)
  | _ => none

def readys (log : List Observation) : List (Nat × MediaContract) := log.filterMap readySource

/-- The source announced last; before the first one, none. -/
def lastSource (log : List Observation) : Nat × MediaContract := (readys log).getLast?.getD (0, {})

/-- Every variable of the source agrees with what was announced. -/
def agreed (source : Nat × MediaContract) : SourceState :=
  ⟨source.1, source.1, source.2, source.2⟩

/-- A later source: no earlier epoch, and the same contract for the same epoch. -/
def Precedes (a b : Nat × MediaContract) : Prop := a.1 ≤ b.1 ∧ (a.1 = b.1 → a.2 = b.2)

theorem Precedes.refl (a : Nat × MediaContract) : Precedes a a := ⟨Nat.le_refl _, fun _ => rfl⟩

theorem Precedes.trans (h : Precedes a b) (k : Precedes b c) : Precedes a c := by
  obtain ⟨hle, heq⟩ := h
  obtain ⟨kle, keq⟩ := k
  refine ⟨hle.trans kle, fun hac => ?_⟩
  have hab : a.1 = b.1 := by omega
  exact (heq hab).trans (keq (by omega))

theorem readys_append (log more : List Observation) :
    readys (log ++ more) = readys log ++ readys more := List.filterMap_append

theorem lastSource_append (h : readys more = []) : lastSource (log ++ more) = lastSource log := by
  rw [lastSource, readys_append, h, List.append_nil, lastSource]

theorem lastSource_ready (log : List Observation) (epoch : Nat) (contract : MediaContract)
    (whole : Bool) : lastSource (log ++ [.reply (.ready epoch contract) whole]) = (epoch, contract) := by
  rw [lastSource, readys_append]
  simp [readys, readySource]

theorem precedes_last (h : (readys log).Pairwise Precedes) (ha : a ∈ readys log) :
    Precedes a (lastSource log) := by
  unfold lastSource
  rcases List.eq_nil_or_concat (readys log) with hnil | ⟨earlier, last, heq⟩
  · rw [hnil] at ha
    simp at ha
  · rw [heq, List.concat_eq_append] at h ha ⊢
    rw [List.getLast?_concat, Option.getD_some]
    rcases List.mem_append.mp ha with ha | ha
    · exact (List.pairwise_append.mp h).2.2 a ha last (by simp)
    · rw [List.mem_singleton.mp ha]
      exact .refl last

/-- A new announcement behind all the others. -/
theorem ordered_ready (h : (readys log).Pairwise Precedes) (epoch : Nat) (contract : MediaContract)
    (whole : Bool) (hlast : Precedes (lastSource log) (epoch, contract)) :
    (readys (log ++ [.reply (.ready epoch contract) whole])).Pairwise Precedes := by
  rw [readys_append]
  refine List.pairwise_append.mpr ⟨h, by simp [readys, readySource], fun a ha b hb => ?_⟩
  have hb : b = (epoch, contract) := by simpa [readys, readySource] using hb
  rw [hb]
  exact (precedes_last h ha).trans hlast

/-- The messages and replies of the handshake. -/
def ofHandshake : Observation → Bool
  | .message _ _ => true
  | .reply r _ => !ofSession r
  | _ => false

/-- What only the handling of a message adds. -/
def ofExchange : Observation → Bool
  | .prepared _ => true
  | o => ofHandshake o

/-- The challenge of a message that is a valid `auth_challenge`. -/
def authChallengeOf (m : WebSocket.Message) : Option AuthChallengeState :=
  if m.opcode = .text ∧ m.payload.length ≤ 2048 ∧
      jsonInteger m.payload (ascii "protocol") = some (kVersion : Int) ∧
      textIs m.payload "type" "auth_challenge" = true then parseAuthChallenge m.payload
  else none

/-- How a challenge is answered in view of the latest source. -/
def Answered (challenge : AuthChallengeState) (latest : Nat × MediaContract) (r : Reply) : Prop :=
  r = .error .challengeStateInvalid ∨ r = .error .notPaired ∨ r = .error .identityMismatch ∨
    ((r = .error .epochStale ↔ challenge.sourceEpoch < latest.1) ∧
      (r = .error .epochContractMismatch ↔
        challenge.sourceEpoch = latest.1 ∧ challenge.mediaContract ≠ latest.2))

/-- What an entry of the log owes to the entries before it. -/
def Allowed (earlier : List Observation) : Observation → Prop
  | .message _ source => source = agreed (lastSource earlier)
  | .reply r _ => ofSession r = false → ∀ before m source between challenge,
      earlier = before ++ .message m source :: between →
      (∀ o ∈ between, ofHandshake o = false) → authChallengeOf m = some challenge →
      ∀ latest, source = agreed latest → Answered challenge latest r
  | .pushed _ input => ∀ a ∈ readys earlier, a.1 ≤ input.epoch
  | _ => True

/-- The invariant of the log and the queue. -/
structure Ordered (s : ReceiverSession) : Prop where
  history : History Allowed s.log
  queue : ∀ input ∈ s.decodeQueue, ∀ a ∈ readys s.log, a.1 ≤ input.epoch
  ordered : (readys s.log).Pairwise Precedes

def isMessage : Observation → Bool
  | .message _ _ => true
  | _ => false

/-- The invariant, with what holds right after an announcement and after a
preparation that failed. -/
structure Agreement (s : ReceiverSession) : Prop extends Ordered s where
  announced : ∀ earlier epoch contract whole,
    s.log = earlier ++ [.reply (.ready epoch contract) whole] → s.decoderMediaContract = contract
  failed : ∀ before m source between, s.log = before ++ .message m source :: between →
    (∀ o ∈ between, isMessage o = false) → .prepared false ∈ between →
      readys between = [] ∧
        ((∃ r whole, .reply r whole ∈ between ∧ ofSession r = false) → s.source = source)

theorem readySource_eq_none (h : ofHandshake o = false) : readySource o = none := by
  unfold readySource
  split
  · cases h
  · rfl

theorem readys_eq_nil (h : ∀ o ∈ os, ofHandshake o = false) : readys os = [] :=
  List.filterMap_eq_nil_iff.mpr fun o ho => readySource_eq_none (h o ho)

/-- Entries that are not of the handshake; what is pushed comes from the queue
or is of an epoch no earlier than any announced. -/
theorem Ordered.extend {s t : ReceiverSession} {os : List Observation} (h : Ordered s)
    (hlog : t.log = s.log ++ os) (hos : ∀ o ∈ os, ofHandshake o = false)
    (hpushed : ∀ slot input, .pushed slot input ∈ os → ∀ a ∈ readys s.log, a.1 ≤ input.epoch)
    (hqueue : ∀ input ∈ t.decodeQueue, ∀ a ∈ readys s.log, a.1 ≤ input.epoch) : Ordered t := by
  have hreadys : readys t.log = readys s.log := by
    rw [hlog, readys_append, readys_eq_nil hos, List.append_nil]
  refine ⟨?_, fun input hi => hreadys ▸ hqueue input hi, hreadys ▸ h.ordered⟩
  rw [hlog]
  refine h.history.append fun done o rest heq => ?_
  have ho : ofHandshake o = false := hos o (by simp [heq])
  have hnone : readys done = [] := readys_eq_nil fun x hx => hos x (by simp [heq, hx])
  have hdone : readys (s.log ++ done) = readys s.log := by
    rw [readys_append, hnone, List.append_nil]
  cases o with
  | pushed slot input => exact fun a ha => hpushed slot input (by simp [heq]) a (hdone ▸ ha)
  | reply r whole => exact fun hr => by simp [ofHandshake, hr] at ho
  | message => cases ho
  | _ => trivial

theorem agreed_injective (h : agreed a = agreed b) : a = b := by
  have hepoch := congrArg SourceState.latestEpoch h
  have hcontract := congrArg SourceState.activeContract h
  exact Prod.ext hepoch hcontract

theorem isMessage_of (h : ofHandshake o = false) : isMessage o = false := by
  cases o <;> first | rfl | cases h

theorem ofHandshake_of (h : ofExchange o = false) : ofHandshake o = false := by
  cases o <;> first | rfl | exact h

theorem not_message {between : List Observation} (h : ∀ o ∈ between, isMessage o = false) :
    ∀ o ∈ between, ¬ isMessage o = true := fun o ho => by simp [h o ho]

/-- The message that was taken up last, with the source at that moment. -/
theorem last_message_unique {before before' between between' : List Observation}
    {m m' : WebSocket.Message} {source source' : SourceState}
    (h : ∀ o ∈ between, isMessage o = false) (h' : ∀ o ∈ between', isMessage o = false)
    (heq : before ++ .message m source :: between = before' ++ .message m' source' :: between') :
    before = before' ∧ m = m' ∧ source = source' ∧ between = between' := by
  obtain ⟨rfl, hm, rfl⟩ := split_last_unique (P := fun o => isMessage o = true) (not_message h)
    (not_message h') rfl rfl heq
  cases hm
  exact ⟨rfl, rfl, rfl, rfl⟩

theorem lastSource_before {s : ReceiverSession} {before between : List Observation}
    {m : WebSocket.Message} {latest : Nat × MediaContract} (h : Ordered s)
    (hlog : s.log = before ++ .message m (agreed latest) :: between) (hbetween : readys between = []) :
    lastSource s.log = latest := by
  have hlatest : latest = lastSource before := agreed_injective (h.history _ _ _ hlog)
  have hsplit : s.log = before ++ ([.message m (agreed latest)] ++ between) := by simp [hlog]
  rw [hsplit, lastSource_append, hlatest]
  rw [readys_append, hbetween]
  rfl

/-- Nothing of the exchange but preparations with these results. -/
def Quiet (results : List Bool) (os : List Observation) : Prop :=
  ∀ o ∈ os, ofExchange o = true → ∃ prepared ∈ results, o = .prepared prepared

variable {results : List Bool}

theorem Quiet.not_exchange (h : ∀ o ∈ os, ofExchange o = false) : Quiet results os :=
  fun o ho hexchange => absurd (h o ho) (by simp [hexchange])

theorem Quiet.append (h : Quiet results os) (hmore : Quiet results more) :
    Quiet results (os ++ more) := by
  intro o ho
  exact (List.mem_append.mp ho).elim (h o) (hmore o)

theorem Quiet.prepared (h : Quiet [] os) (prepared : Bool) :
    Quiet [prepared] (os ++ [.prepared prepared]) := by
  intro o ho hexchange
  rcases List.mem_append.mp ho with ho | ho
  · obtain ⟨_, hnone, -⟩ := h o ho hexchange
    cases hnone
  · exact ⟨prepared, List.mem_singleton_self _, List.mem_singleton.mp ho⟩

theorem Quiet.handshake (h : Quiet results os) : ∀ o ∈ os, ofHandshake o = false := by
  intro o ho
  by_contra hhandshake
  have hexchange : ofExchange o = true := by
    cases o <;> first | rfl | simpa [ofExchange] using hhandshake
  obtain ⟨_, _, rfl⟩ := h o ho hexchange
  exact hhandshake rfl

theorem Quiet.result (h : Quiet results os) {prepared : Bool} (ho : .prepared prepared ∈ os) :
    prepared ∈ results := by
  obtain ⟨_, hmem, heq⟩ := h _ ho rfl
  cases heq
  exact hmem

/-- The handshake works on a message that has not been answered yet; these are the results of
the preparations since. -/
def Working (m : WebSocket.Message) (latest : Nat × MediaContract) (results : List Bool)
    (s : ReceiverSession) : Prop :=
  Ordered s ∧ ∃ before between, s.log = before ++ .message m (agreed latest) :: between ∧
    Quiet results between

/-- An announcement is not the last thing that happened, and a failure is not answered yet. -/
theorem Working.agreement (h : Working m latest results s) : Agreement s := by
  obtain ⟨hordered, before, between, hlog, hexchange⟩ := h
  have hbetween := hexchange.handshake
  have hquiet : ∀ o ∈ between, isMessage o = false := fun o ho => isMessage_of (hbetween o ho)
  refine ⟨hordered, fun earlier epoch contract whole heq => ?_,
    fun before' m' source' between' heq hmessage _ => ?_⟩
  · rw [hlog] at heq
    rcases List.eq_nil_or_concat between with rfl | ⟨more, o, rfl⟩
    · obtain ⟨_, hcontra⟩ := List.append_inj' heq rfl
      cases hcontra
    · rw [List.concat_eq_append, ← List.cons_append, ← List.append_assoc] at heq
      obtain ⟨_, ho⟩ := List.append_inj' heq rfl
      cases ho
      have hready := hbetween (.reply (.ready epoch contract) whole) (by simp)
      cases hready
  · obtain ⟨_, _, _, rfl⟩ := last_message_unique hquiet hmessage (hlog.symm.trans heq)
    refine ⟨readys_eq_nil hbetween, fun ⟨r, whole, hreply, hr⟩ => ?_⟩
    simpa [ofHandshake, hr] using hbetween _ hreply

theorem Agreement.extend {s t : ReceiverSession} (h : Agreement s) (hsource : t.source = s.source)
    (hlog : t.log = s.log ++ os) (hexchange : ∀ o ∈ os, ofExchange o = false)
    (hpushed : ∀ slot input, .pushed slot input ∈ os → ∀ a ∈ readys s.log, a.1 ≤ input.epoch)
    (hqueue : ∀ input ∈ t.decodeQueue, ∀ a ∈ readys s.log, a.1 ≤ input.epoch) : Agreement t := by
  have hos : ∀ o ∈ os, ofHandshake o = false := fun o ho => ofHandshake_of (hexchange o ho)
  refine ⟨h.toOrdered.extend hlog hos hpushed hqueue, fun earlier epoch contract whole heq => ?_,
    fun before m source between heq hmessage hmem => ?_⟩
  · have hdecoder : t.decoderMediaContract = s.decoderMediaContract :=
      congrArg SourceState.decoderContract hsource
    rcases List.eq_nil_or_concat os with rfl | ⟨more, o, rfl⟩
    · rw [List.append_nil] at hlog
      exact hdecoder.trans (h.announced earlier epoch contract whole (hlog ▸ heq))
    · rw [hlog, List.concat_eq_append, ← List.append_assoc] at heq
      obtain ⟨_, ho⟩ := List.append_inj' heq rfl
      cases ho
      have hready := hos (.reply (.ready epoch contract) whole) (by simp)
      cases hready
  · rw [hlog] at heq
    obtain ⟨more, rfl, hsplit⟩ := append_split (fun hmem => by have := hos _ hmem; cases this) heq
    have hmore : .prepared false ∈ more := by
      rcases List.mem_append.mp hmem with hmem | hmem
      · exact hmem
      · cases hexchange _ hmem
    obtain ⟨hnone, hkept⟩ := h.failed before m source more hsplit
      (fun o ho => hmessage o (by simp [ho])) hmore
    refine ⟨by rw [readys_append, hnone, readys_eq_nil hos]; rfl, fun ⟨r, whole, hreply, hr⟩ => ?_⟩
    refine hsource.trans (hkept ⟨r, whole, ?_, hr⟩)
    rcases List.mem_append.mp hreply with hreply | hreply
    · exact hreply
    · simpa [ofHandshake, hr] using hos _ hreply

/-- What the network thread relies on: the source is its own, the others only take
from the queue, and the handshake is not theirs. -/
structure Respects (s t : ReceiverSession) : Prop where
  source : t.source = s.source
  queue : t.decodeQueue <:+ s.decodeQueue
  log : ∃ os, t.log = s.log ++ os ∧ (∀ o ∈ os, ofExchange o = false) ∧
    ∀ slot input, .pushed slot input ∈ os → input ∈ s.decodeQueue

theorem Respects.refl (s : ReceiverSession) : Respects s s :=
  ⟨rfl, List.suffix_refl _, [], by simp, by simp, by simp⟩

theorem Respects.trans (h : Respects s t) (k : Respects t u) : Respects s u := by
  obtain ⟨hsource, hqueue, os, hlog, hos, hpushed⟩ := h
  obtain ⟨ksource, kqueue, ps, klog, kos, kpushed⟩ := k
  refine ⟨ksource.trans hsource, kqueue.trans hqueue, os ++ ps, by simp [klog, hlog], ?_, ?_⟩
  · intro o ho
    exact (List.mem_append.mp ho).elim (hos o) (kos o)
  · intro slot input hmem
    rcases List.mem_append.mp hmem with hmem | hmem
    · exact hpushed slot input hmem
    · exact hqueue.subset (kpushed slot input hmem)

theorem Respects.keeping {s t : ReceiverSession} (hsource : t.source = s.source)
    (hqueue : t.decodeQueue = s.decodeQueue) (hlog : t.log = s.log) : Respects s t :=
  ⟨hsource, by simp only [hqueue, List.suffix_refl], [], by simp [hlog], by simp, by simp⟩

theorem Respects.of_aside (h : Aside s t) : Respects s t := .keeping h.source h.decodeQueue h.log

theorem Respects.of_lifecycle (h : LifecycleEffect s t) : Respects s t := by
  rcases h with h | h | ⟨o, ho, h⟩
  · exact .of_aside h
  · refine ⟨h.source, ?_, [.cleared], h.log, by simp [ofExchange, ofHandshake], by simp⟩
    rw [show t.decodeQueue = [] from h.decodeQueue]
    exact List.nil_suffix
  · have hqueue : t.decodeQueue = s.decodeQueue := h.decodeQueue
    refine ⟨h.source, by simp only [hqueue, List.suffix_refl], [o], h.log, ?_, ?_⟩
    all_goals cases o <;> simp_all [ofCodec, ofExchange, ofHandshake]

theorem Respects.of_ui (h : UiEffect s t) : Respects s t := by
  cases h with
  | aside h => exact .of_aside h
  | identify deviceId h => exact .keeping h.source h.decodeQueue h.log
  | trust deviceId senderId credential version h => exact .keeping h.source h.decodeQueue h.log
  | grant sessionId token shortCode expiresAt kind h =>
    refine ⟨h.source, ?_, [.granted], h.log, by simp [ofExchange, ofHandshake], by simp⟩
    simp only [show t.decodeQueue = s.decodeQueue from h.decodeQueue, List.suffix_refl]
  | forget h => exact .keeping h.source h.decodeQueue h.log

theorem Respects.of_pumped {s t : ReceiverSession} (h : Pumped s t) : Respects s t := by
  obtain ⟨os, hlog, hos⟩ := h.log
  refine ⟨h.outside_field ReceiverSession.source, h.queue, os, hlog, fun o ho => ?_,
    fun slot input hmem => ?_⟩
  · cases hos o ho <;> rfl
  · cases hos _ hmem
    assumption

theorem Respects.of_other (h : OtherEffect s t) : Respects s t := by
  cases h with
  | lifecycle h => exact .of_lifecycle h
  | ui h => exact .of_ui h
  | needInput decoder slot =>
    refine Respects.trans ?_ (.of_pumped (pumpDecoderLocked_pumped decoder _))
    exact ⟨rfl, List.suffix_refl _, [.admitted slot], rfl, by simp [ofExchange, ofHandshake], by simp⟩

theorem Ordered.respects (h : Ordered s) (hr : Respects s t) : Ordered t := by
  obtain ⟨_, hqueue, os, hlog, hos, hpushed⟩ := hr
  exact h.extend hlog (fun o ho => ofHandshake_of (hos o ho)) (fun slot input hmem => h.queue input (hpushed slot input hmem))
    fun input hi => h.queue input (hqueue.subset hi)

theorem Agreement.respects (h : Agreement s) (hr : Respects s t) : Agreement t := by
  obtain ⟨hsource, hqueue, os, hlog, hos, hpushed⟩ := hr
  exact h.extend hsource hlog hos (fun slot input hmem => h.queue input (hpushed slot input hmem))
    fun input hi => h.queue input (hqueue.subset hi)

theorem Working.respects (h : Working m latest results s) (hr : Respects s t) :
    Working m latest results t := by
  obtain ⟨hordered, before, between, hlog, hbetween⟩ := h
  refine ⟨hordered.respects hr, ?_⟩
  obtain ⟨_, _, os, htlog, hos, _⟩ := hr
  exact ⟨before, between ++ os, by simp [htlog, hlog], hbetween.append (.not_exchange hos)⟩

theorem Respects.quiet (hr : Respects s t) : ∃ os, t.log = s.log ++ os ∧
    ∀ o ∈ os, ofHandshake o = false := by
  obtain ⟨_, _, os, hlog, hos, _⟩ := hr
  exact ⟨os, hlog, fun o ho => ofHandshake_of (hos o ho)⟩

theorem Respects.lastSource (hr : Respects s t) : lastSource t.log = lastSource s.log := by
  obtain ⟨os, hlog, hos⟩ := hr.quiet
  rw [hlog, lastSource_append (readys_eq_nil hos)]

/-- Outside of an authentication all variables are those of the last announcement. -/
def Settled (s : ReceiverSession) : Prop := Agreement s ∧ s.source = agreed (lastSource s.log)

theorem Settled.respects (h : Settled s) (hr : Respects s t) : Settled t :=
  ⟨h.1.respects hr, by rw [hr.source, hr.lastSource, h.2]⟩

def settled : Assertion Respects Agreement := ⟨Settled, Settled.respects, And.left⟩

/-- The message being handled may have been answered, but announced nothing. -/
def Opened (m : WebSocket.Message) (latest : Nat × MediaContract) (s : ReceiverSession) : Prop :=
  Agreement s ∧ s.source = agreed latest ∧
    ∃ before between, s.log = before ++ .message m (agreed latest) :: between ∧
      (∀ o ∈ between, isMessage o = false) ∧ readys between = []

theorem Opened.respects (h : Opened m latest s) (hr : Respects s t) : Opened m latest t := by
  obtain ⟨hagreement, hsource, before, between, hlog, hmessage, hnone⟩ := h
  refine ⟨hagreement.respects hr, hr.source.trans hsource, ?_⟩
  obtain ⟨os, htlog, hos⟩ := hr.quiet
  refine ⟨before, between ++ os, by simp [htlog, hlog], fun o ho => ?_, ?_⟩
  · exact (List.mem_append.mp ho).elim (hmessage o) fun ho => isMessage_of (hos o ho)
  · rw [readys_append, hnone, readys_eq_nil hos]
    rfl

theorem Opened.settled (h : Opened m latest s) : Settled s := by
  obtain ⟨hagreement, hsource, before, between, hlog, _, hnone⟩ := h
  exact ⟨hagreement, by rw [hsource, lastSource_before hagreement.toOrdered hlog hnone]⟩

def opened (m : WebSocket.Message) (latest : Nat × MediaContract) : Assertion Respects Agreement :=
  ⟨Opened m latest, Opened.respects, And.left⟩

theorem Working.opened (h : Working m latest results s) (hsource : s.source = agreed latest) :
    Opened m latest s := by
  have hagreement := h.agreement
  obtain ⟨_, before, between, hlog, hexchange⟩ := h
  have hbetween := hexchange.handshake
  exact ⟨hagreement, hsource, before, between, hlog, fun o ho => isMessage_of (hbetween o ho),
    readys_eq_nil hbetween⟩

/-- At work on a message, with the source in this state. -/
def working (m : WebSocket.Message) (latest : Nat × MediaContract) (source : SourceState)
    (results : List Bool) : Assertion Respects Agreement where
  holds s := Working m latest results s ∧ s.source = source
  stable h r := ⟨h.1.respects r, r.source.trans h.2⟩
  safe h := h.1.agreement

/-- A message is taken up. -/
theorem Settled.message (h : Settled s) (m : WebSocket.Message) :
    Working m (lastSource s.log) [] (s.note (.message m s.source)) := by
  obtain ⟨hagreement, hsource⟩ := h
  have hreadys : readys (s.log ++ [.message m s.source]) = readys s.log := by
    simp [readys, readySource]
  refine ⟨⟨hagreement.history.concat hsource, fun input hi a ha => ?_, ?_⟩,
    s.log, [], by rw [← hsource]; rfl, .not_exchange (by simp)⟩
  · exact hagreement.queue input hi a (hreadys ▸ ha)
  · exact hreadys ▸ hagreement.ordered

/-- A reply that announces nothing, and is a fitting answer to a challenge. -/
theorem Opened.reply (h : Opened m latest s) (r : Reply) (whole : Bool)
    (hplain : ∀ epoch contract, r ≠ .ready epoch contract)
    (hanswer : ∀ challenge, authChallengeOf m = some challenge → Answered challenge latest r) :
    Opened m latest (s.note (.reply r whole)) := by
  obtain ⟨hagreement, hsource, before, between, hlog, hmessage, hnone⟩ := h
  have hready : readySource (.reply r whole) = none := by
    unfold readySource
    split
    · rename_i heq
      cases heq
      exact absurd rfl (hplain _ _)
    · rfl
  have hone : readys [.reply r whole] = [] := List.filterMap_cons_none hready
  have hreadys : readys (s.log ++ [.reply r whole]) = readys s.log := by
    rw [readys_append, hone, List.append_nil]
  have hafter : (s.note (.reply r whole)).log =
      before ++ .message m (agreed latest) :: (between ++ [.reply r whole]) := by
    simp [note, hlog]
  have hafterMessage : ∀ o ∈ between ++ [.reply r whole], isMessage o = false := by
    intro o ho
    rcases List.mem_append.mp ho with ho | ho
    · exact hmessage o ho
    · rw [List.mem_singleton.mp ho]
      rfl
  have hafterNone : readys (between ++ [.reply r whole]) = [] := by
    rw [readys_append, hnone, hone]
    rfl
  refine ⟨⟨⟨hagreement.history.concat ?_, ?_, ?_⟩, ?_, ?_⟩, hsource, before, _, hafter,
    hafterMessage, hafterNone⟩
  · intro _ before' m' source' between' challenge heq hbetween' hchallenge latest' hlatest'
    obtain ⟨_, rfl, rfl, _⟩ := last_message_unique hmessage
      (fun o ho => isMessage_of (hbetween' o ho)) (hlog.symm.trans heq)
    rw [← agreed_injective hlatest']
    exact hanswer challenge hchallenge
  · exact fun input hi a ha => hagreement.queue input hi a (hreadys ▸ ha)
  · exact hreadys ▸ hagreement.ordered
  · intro earlier epoch contract whole' heq
    obtain ⟨_, ho⟩ := List.append_inj' heq rfl
    cases ho
    exact absurd rfl (hplain _ _)
  · intro before' m' source' between' heq hmessage' _
    obtain ⟨_, _, rfl, rfl⟩ := last_message_unique hafterMessage hmessage' (hafter.symm.trans heq)
    exact ⟨hafterNone, fun _ => hsource⟩

end HarmonyScreen.Proofs.SourceContract
