import HarmonyScreen.Lib.History
import HarmonyScreen.Proofs.Pairing
import HarmonyScreen.Proofs.WebSocketStream

namespace HarmonyScreen.Proofs.PairingDelivery
open Lib Program Receiver ReceiverSession Effects Pairing

abbrev SessionStep := Step ReceiverSession External

/-- What one section of the connection added to the log. -/
def news (st : SessionStep) : List Observation := st.after.log.drop st.before.log.length

/-- What the sections of the connection added, in order. -/
def observed (h : List SessionStep) : List Observation := h.flatMap news

theorem news_of_log {s t : ReceiverSession} {e : External} {os : List Observation}
    (h : t.log = s.log ++ os) : news ⟨s, e, t⟩ = os := by
  simp [news, h]

/-- The fields that a failed pairing must leave alone. -/
structure PairingState where
  trustedSenderId : Bytes
  trustedCredential : Bytes
  pairingRecordVersion : UInt64
  consumedSessionId : Bytes
  pendingSessionId : Bytes
  pendingToken : Bytes
  pendingShortCode : Bytes
  deriving DecidableEq

def pairingState (s : ReceiverSession) : PairingState :=
  ⟨s.trustedSenderId, s.trustedCredential, s.pairingRecordVersion, s.consumedSessionId,
    s.pendingSessionId, s.pendingToken, s.pendingShortCode⟩

/-- The connection's own sections left every pairing field as they found it. -/
def Kept (h : List SessionStep) : Prop :=
  ∀ st ∈ h, pairingState st.after = pairingState st.before

/-- A complete `paired` frame was handed to the socket. -/
def Delivered (h : List SessionStep) : Prop :=
  ∃ deviceId credential, .reply (.paired deviceId credential) true ∈ observed h

/-- The calls of `send` take all of the bytes before one of them fails or expires. -/
inductive TakesAll : List SendCall → Nat → Prop where
  | done : TakesAll calls 0
  | sent (some_ : 0 < count) (rest : TakesAll calls (remaining - count)) :
      TakesAll (.sent count :: calls) remaining
  | interrupted (rest : TakesAll calls remaining) : TakesAll (.interrupted :: calls) remaining
  | writable (rest : TakesAll calls remaining) :
      TakesAll (.wouldBlock false true :: calls) remaining

theorem sendLoop_eq_zero (calls : List SendCall) (remaining : Nat) :
    sendLoop calls remaining = 0 ↔ TakesAll calls remaining := by
  induction calls generalizing remaining with
  | nil =>
    cases remaining with
    | zero => exact ⟨fun _ => .done, fun _ => rfl⟩
    | succ n => exact ⟨fun h => by simp [sendLoop] at h, fun h => by cases h⟩
  | cons call calls ih =>
    cases remaining with
    | zero => exact ⟨fun _ => .done, fun _ => by simp [sendLoop]⟩
    | succ n =>
      cases call with
      | sent count =>
        simp only [sendLoop]
        split
        · rename_i h0
          exact ⟨fun h => by simp at h, fun h => by cases h; omega⟩
        · rename_i h0
          rw [ih]
          exact ⟨fun h => .sent (by omega) h, fun h => by cases h; assumption⟩
      | interrupted =>
        simp only [sendLoop, ih]
        exact ⟨.interrupted, fun h => by cases h; assumption⟩
      | wouldBlock expired writable =>
        simp only [sendLoop]
        split
        · rename_i hb
          exact ⟨fun h => by simp at h, fun h => by cases h; simp at hb⟩
        · rename_i hb
          simp only [Bool.or_eq_true, Bool.not_eq_true', not_or, Bool.not_eq_true,
            Bool.not_eq_false] at hb
          obtain ⟨rfl, rfl⟩ := hb
          rw [ih]
          exact ⟨.writable, fun h => by cases h; assumption⟩
      | failed => exact ⟨fun h => by simp [sendLoop] at h, fun h => by cases h⟩

/-- The send mutex is free in time, the connection is open, the text fits a
frame, and the socket takes all of the frame. -/
def Takes (st : SessionStep) (json : Bytes) : Prop :=
  st.learned.sendMutex = true ∧ st.before.controlSocket = true ∧
    json.length ≤ WebSocket.kMaxMessageBytes ∧
    TakesAll st.learned.sends (WebSocket.encodeFrame .text json).length

theorem sendsWhole_iff (s : ReceiverSession) (e : External) (t : ReceiverSession) (json : Bytes) :
    s.sendsWhole e json = true ↔ Takes ⟨s, e, t⟩ json := by
  have hframe : (WebSocket.encodeFrame .text json).isEmpty = false ↔
      json.length ≤ WebSocket.kMaxMessageBytes := by
    unfold WebSocket.encodeFrame
    split
    · simp_all
    · simp_all
  simp only [sendsWhole, Takes, Bool.and_eq_true, beq_iff_eq, sendLoop_eq_zero, and_assoc,
    Bool.not_eq_true', hframe]

/-- A pairing that reached its authorization was refused there, or the socket
took all of the reply. -/
def HoldsWhen (h : List SessionStep) : Prop :=
  ∀ pre commit send post attempt, h = pre ++ commit :: send :: post →
    .presented attempt ∈ news commit →
    Refused attempt ∨
      Takes send (Reply.paired attempt.challenge.deviceId (randomHex commit.learned.random 32)).text

def Verdict (h : List SessionStep) : Prop := Delivered h ∨ Kept h ↔ HoldsWhen h

/-- Sections that have no part in pairing. -/
def Plain (h : List SessionStep) : Prop := ∀ st ∈ h, Unpaired st.before st.after

theorem Plain.concat (hk : Plain k) (hst : Unpaired st.before st.after) : Plain (k ++ [st]) := by
  intro x hx
  rcases List.mem_append.mp hx with hx | hx
  · exact hk x hx
  · rw [List.mem_singleton.mp hx]
    exact hst

theorem kept_of_unpaired (h : Unpaired s t) : pairingState t = pairingState s := by
  have := congrArg pairingState h.fields
  exact this

/-- The section at which an authorization is checked. -/
def Presents (st : SessionStep) : Prop :=
  ∃ attempt, .presented attempt ∈ news st

theorem not_mem_news {st : SessionStep} (h : Unpaired st.before st.after)
    (ho : isPairing o = true) : o ∉ news st := by
  obtain ⟨os, hlog, hos⟩ := h.log
  intro hmem
  rw [show news st = os from news_of_log (e := st.learned) hlog] at hmem
  simp [hos o hmem] at ho

theorem not_presents {st : SessionStep} (h : Unpaired st.before st.after) : ¬ Presents st :=
  fun ⟨_, hmem⟩ => not_mem_news h rfl hmem

theorem not_observed (hk : Plain k) (ho : isPairing o = true) : o ∉ observed k := by
  intro hmem
  obtain ⟨st, hst, hnews⟩ := List.mem_flatMap.mp hmem
  exact not_mem_news (hk st hst) ho hnews

theorem Plain.verdict (hk : Plain k) : Verdict k := by
  refine ⟨fun _ => ?_, fun _ => .inr fun st hst => kept_of_unpaired (hk st hst)⟩
  intro pre commit send post attempt heq hmem
  have hcommit : commit ∈ k := by simp [heq]
  exact absurd ⟨attempt, hmem⟩ (not_presents (hk commit hcommit))

/-- Where the one section that presents an authorization stands. -/
theorem holdsWhen_iff {commit send : SessionStep} {rest : List SessionStep} (hk : Plain k)
    (hrest : ∀ st ∈ send :: rest, ¬ Presents st) (attempt : PairingAttempt)
    (hc : ∀ a, .presented a ∈ news commit ↔ a = attempt) :
    HoldsWhen (k ++ commit :: send :: rest) ↔
      Refused attempt ∨ Takes send
        (Reply.paired attempt.challenge.deviceId (randomHex commit.learned.random 32)).text := by
  constructor
  · intro h
    exact h k commit send rest attempt rfl ((hc _).mpr rfl)
  · intro h pre commit' send' post a heq hmem
    obtain ⟨rfl, rfl, hpost⟩ := split_unique (fun st hst => not_presents (hk st hst)) hrest
      ⟨a, hmem⟩ heq
    cases hpost
    obtain rfl := (hc a).mp hmem
    exact h

/-- A refused pairing leaves everything as it was. -/
theorem refused_verdict {commit send : SessionStep} {attempt : PairingAttempt} (hk : Plain k)
    (hcommit : commit.after = commit.before.note (.presented attempt))
    (hrefused : Refused attempt) (hsend : Unpaired send.before send.after) :
    Verdict (k ++ [commit, send]) := by
  have hnews : news commit = [.presented attempt] :=
    news_of_log (e := commit.learned) (by rw [hcommit]; rfl)
  have hkept : Kept (k ++ [commit, send]) := by
    intro st hst
    simp only [List.mem_append, List.mem_cons, List.not_mem_nil, or_false] at hst
    rcases hst with hst | rfl | rfl
    · exact kept_of_unpaired (hk st hst)
    · rw [hcommit]
      rfl
    · exact kept_of_unpaired hsend
  refine ⟨fun _ => ?_, fun _ => .inr hkept⟩
  refine (holdsWhen_iff hk (by simpa using not_presents hsend) attempt ?_).mpr (.inl hrefused)
  intro a
  simp [hnews]

/-- An accepted pairing has changed the record, whatever becomes of the reply. -/
theorem committed_verdict {commit send last : SessionStep} {a : PairingAttempt} (hk : Plain k)
    (hcommit : commit.after = (commit.before.note (.presented a)).acceptPairing
      a.challenge (randomHex commit.learned.random 32))
    (haccepted : ¬ Refused a)
    (hsend : send.after.log = send.before.log ++ [.answered grant] ++
      [.reply (.paired a.challenge.deviceId (randomHex commit.learned.random 32))
        (send.before.sendsWhole send.learned
          (Reply.paired a.challenge.deviceId (randomHex commit.learned.random 32)).text)])
    (hlast : Unpaired last.before last.after) : Verdict (k ++ [commit, send, last]) := by
  have hnews : news commit = [.presented a,
      .paired (commit.before.note (.presented a)).grants a.challenge.sessionId] :=
    news_of_log (e := commit.learned) (by rw [hcommit]; simp [acceptPairing, note])
  have hsent : news send = [.answered grant] ++ [_] :=
    news_of_log (e := send.learned) (by rw [hsend, List.append_assoc])
  have hversion : ¬ Kept (k ++ [commit, send, last]) := by
    intro hkept
    have := hkept commit (by simp)
    rw [hcommit] at this
    have hv := congrArg PairingState.pairingRecordVersion this
    simp [pairingState, acceptPairing, note] at hv
  have hdelivered : Delivered (k ++ [commit, send, last]) ↔ send.before.sendsWhole send.learned
      (Reply.paired a.challenge.deviceId (randomHex commit.learned.random 32)).text = true := by
    have hlastnews {d c} : (.reply (.paired d c) true) ∉ news last := not_mem_news hlast rfl
    have hknews {d c} : (.reply (.paired d c) true) ∉ k.flatMap news := not_observed hk rfl
    simp only [Delivered, observed, List.flatMap_append, List.flatMap_cons, List.mem_append,
      hknews, hnews, hsent, hlastnews, false_or, or_false, List.flatMap_nil, List.not_mem_nil]
    constructor
    · rintro ⟨d, c, hmem⟩
      simp only [List.mem_cons, reduceCtorEq, List.not_mem_nil, or_false, Observation.reply.injEq,
        false_or] at hmem
      exact hmem.2.symm
    · intro hwhole
      exact ⟨a.challenge.deviceId, randomHex commit.learned.random 32, by simp [hwhole]⟩
  have hsendPresents : ¬ Presents send := by
    rintro ⟨b, hmem⟩
    simp [hsent] at hmem
  rw [Verdict, holdsWhen_iff hk (by simpa using ⟨hsendPresents, not_presents hlast⟩) a
    (by simp [hnews]), hdelivered]
  simp only [hversion, or_false, haccepted, false_or]
  exact sendsWhole_iff send.before send.learned send.after _

/-- What a handler leaves behind: the verdict if the connection ends here, and
nothing that has to do with pairing if it goes on. -/
def After (handled : Handled) (k : List SessionStep) : Prop :=
  match handled with
  | .returned _ => Verdict k
  | .next _ => Plain k

theorem Plain.after (hk : Plain k) (handled : Handled) : After handled k := by
  cases handled with
  | returned => exact hk.verdict
  | next => exact hk

theorem plain_along {p : Session α} (hp : p.Every Unpaired) (hk : Plain k) :
    p.Along (fun _ => True) k (fun _ => Plain) :=
  hp.along (fun _ _ => trivial) (fun _ _ _ _ hk hst => hk.concat hst) hk

theorem after_along {p : Session Handled} (hp : p.Every Unpaired) (hk : Plain k) :
    p.Along (fun _ => True) k After :=
  (plain_along hp hk).mono fun handled _ hk => hk.after handled

theorem pairFinal_along (challenge : PairChallengeState) (json : Bytes) (hk : Plain k) :
    (pairFinal challenge json).Along (fun _ => True) k After := by
  unfold pairFinal
  split
  · exact after_along (refuse_unpaired _) hk
  rw [along_bind, along_critical]
  refine fun s e => ⟨trivial, ?_⟩
  rcases commitPairing_cases challenge (text json "token") e s with
    ⟨hrefused, code, heq⟩ | ⟨haccepted, heq⟩
  · rw [heq]
    simp only [refuse, sendControl, sendNoted, along_bind, along_critical, pure_eq, along_ret]
    refine fun u f => ⟨trivial, ?_⟩
    rw [List.append_assoc]
    exact refused_verdict hk rfl hrefused
      (.note (.reply (.error code) (u.sendsWhole f (Reply.error code).text)) rfl (by simp) rfl)
  · rw [heq]
    simp only [sendNoted, setState, along_bind, along_critical, pure_eq, along_ret]
    refine fun u f => ⟨trivial, fun v g => ⟨trivial, ?_⟩⟩
    rw [List.append_assoc, List.append_assoc]
    exact committed_verdict (a := s.attempt challenge (text json "token") e) hk rfl haccepted rfl (.of_aside rfl)

theorem handleMessage_along (stage : ChallengeStage) (message : WebSocket.Message)
    (hk : Plain k) : (handleMessage stage message).Along (fun _ => True) k After := by
  unfold handleMessage
  rw [along_bind]
  have hnote : (ReceiverSession.modify fun s => s.note (.message message s.source)).Every Unpaired :=
    modify_every fun s => .note _ rfl rfl rfl
  refine (plain_along hnote hk).mono fun _ k hk => ?_
  split
  · exact after_along (refuse_unpaired _) hk
  dsimp only
  split
  · exact after_along (refuse_unpaired _) hk
  split
  · split
    · unfold pairManualIpv4
      dsimp only
      split
      · exact after_along (refuse_unpaired _) hk
      · rw [along_bind]
        exact (plain_along (load_unpaired _) hk).mono fun _ k hk => pairFinal_along _ _ hk
    split
    · exact after_along (pairChallenge_unpaired _) hk
    split
    · exact after_along (authChallenge_unpaired _) hk
    · exact after_along (refuse_unpaired _) hk
  · exact pairFinal_along _ _ hk
  · exact after_along (authFinal_unpaired _ _) hk

theorem handleMessages_along (messages : List WebSocket.Message) (stage : ChallengeStage)
    (hk : Plain k) : (handleMessages messages stage).Along (fun _ => True) k After := by
  induction messages generalizing stage k with
  | nil => exact hk
  | cons message messages ih =>
    unfold handleMessages
    rw [along_bind]
    refine (handleMessage_along stage message hk).mono fun handled k hafter => ?_
    cases handled with
    | returned => exact hafter
    | next stage => exact ih stage hafter

theorem authenticateLoop_along (turns : List Turn) (decoder : WebSocket.Decoder)
    (stage : ChallengeStage) (hk : Plain k) :
    (authenticateLoop turns decoder stage).Along (fun _ => True) k (fun _ => Verdict) := by
  induction turns generalizing decoder stage k with
  | nil => exact hk.verdict
  | cons turn turns ih =>
    unfold authenticateLoop
    rw [along_bind]
    refine (plain_along (load_unpaired _) hk).mono fun desired k hk => ?_
    split
    · exact hk.verdict
    split
    · exact ih _ _ hk
    · exact hk.verdict
    split
    · exact hk.verdict
    rw [along_bind]
    refine (handleMessages_along _ stage hk).mono fun handled k hafter => ?_
    cases handled with
    | returned => exact hafter
    | next stage => exact ih _ _ hafter

/-- In every completed run of a connection, whatever other threads do meanwhile:
either the whole `paired` reply went out or the connection left the pairing
alone, exactly when its pairing, if it got as far as its authorization, was
refused there or the socket took all of the reply. -/
theorem pairing_atomic_iff_taken (other : ReceiverSession → ReceiverSession → Prop)
    (turns : List Turn) (s t : ReceiverSession) (h : List SessionStep)
    (result : Bool × WebSocket.Decoder)
    (run : Runs other (authenticateConnection turns) s h (.ret result) t) :
    (¬ Delivered h → Kept h) ↔ HoldsWhen h := by
  have halong : (authenticateConnection turns).Along (fun _ => True) [] (fun _ => Verdict) := by
    unfold authenticateConnection
    have hnil : Plain [] := fun _ h => by simp at h
    rw [along_bind]
    refine (plain_along (load_unpaired _) hnil).mono fun socket k hk => ?_
    split
    · exact hk.verdict
    · exact authenticateLoop_along _ _ _ hk
  have hverdict : Verdict h := by simpa using (halong.runs trivial run).2
  exact or_iff_not_imp_left.symm.trans hverdict

instance (h : List SessionStep) : Decidable (Kept h) :=
  inferInstanceAs (Decidable (∀ st ∈ h, _))

def isDelivery : Observation → Bool
  | .reply (.paired _ _) true => true
  | _ => false

theorem delivered_iff (h : List SessionStep) :
    (observed h).any isDelivery = true ↔ Delivered h := by
  rw [List.any_eq_true]
  constructor
  · rintro ⟨o, ho, hd⟩
    unfold isDelivery at hd
    split at hd
    · exact ⟨_, _, ho⟩
    · cases hd
  · rintro ⟨d, c, hmem⟩
    exact ⟨_, hmem, rfl⟩

instance (h : List SessionStep) : Decidable (Delivered h) := decidable_of_iff _ (delivered_iff h)

/-- A session with one authorization waiting for a computer. -/
def authorizedSession : ReceiverSession :=
  { ({} : ReceiverSession) with
    desired := true
    controlSocket := true
    deviceId := List.replicate 32 0x64
    trustedSenderId := List.replicate 16 0x61
    trustedCredential := List.replicate 64 0x62
    pendingSessionId := List.replicate 32 0x31
    pendingToken := List.replicate 64 0x32
    pairingExpiresAt := 60000000 }

/-- The one message of a manual pairing, in one frame with a zero mask. -/
def manualPairing (sessionId senderId token : Bytes) : Bytes :=
  WebSocketStream.clientFrame (ascii "\x7b\"type\":\"pair_manual_ipv4\",\"protocol\":6,\"mode\":\"pair_manual_ipv4\",\"sessionId\":\""
    ++ sessionId ++ ascii "\",\"senderId\":\"" ++ senderId ++ ascii "\",\"token\":\"" ++ token ++
    ascii "\"\x7d")

def pairingTurns : List Turn :=
  [.received (manualPairing (List.replicate 32 0x31) (List.replicate 16 0x63)
    (List.replicate 64 0x32))]

/-- A computer pairs by the authorization, over a socket on which `send` does this. -/
def playedPairing (sends : List SendCall) :
    List SessionStep × Session (Bool × WebSocket.Decoder) × ReceiverSession :=
  (authenticateConnection pairingTurns).play authorizedSession
    (List.replicate 8 { random := some fun _ => 7, sendMutex := true, sends := sends })

theorem playedPairing_runs (sends : List SendCall) {result : Bool × WebSocket.Decoder}
    (h : (playedPairing sends).2.1.result = some result) :
    Runs (fun _ _ => True) (authenticateConnection pairingTurns) authorizedSession
      (playedPairing sends).1 (.ret result) (playedPairing sends).2.2 := by
  rw [← eq_ret_of_result h]
  exact play_runs _ _ _

/-- The socket takes ten bytes of the reply and fails: the previous computer's
credential and the authorization are gone, and the new computer has no credential. -/
theorem interrupted_pairing_not_atomic : ∃ h t,
    Runs (fun _ _ => True) (authenticateConnection pairingTurns) authorizedSession h
      (.ret (false, {})) t ∧ ¬ (¬ Delivered h → Kept h) :=
  ⟨_, _, playedPairing_runs [.sent 10, .failed] (by decide +kernel), by decide +kernel⟩

theorem taken_pairing_holds : HoldsWhen (playedPairing [.sent 1000]).1 :=
  (pairing_atomic_iff_taken _ pairingTurns authorizedSession _ _ (false, {})
    (playedPairing_runs [.sent 1000] (by decide +kernel))).mp fun hnot => absurd (by decide +kernel) hnot

end HarmonyScreen.Proofs.PairingDelivery
