import HarmonyScreen.Lib.Discipline
import HarmonyScreen.Proofs.Connection

namespace HarmonyScreen.Proofs.AutomaticPath
open Lib Program Receiver ReceiverSession Effects Handshake Pairing PairingDelivery Protocol Network
  Connection

variable {h : List SessionStep} {s t : ReceiverSession}

/-- The pending authorization is of one kind. -/
def Exclusive (s : ReceiverSession) : Prop := s.pendingSessionId = [] ∨ s.pendingShortCode = []

/-- A section that keeps it so. -/
def Keeps (s t : ReceiverSession) : Prop := Exclusive s → Exclusive t

theorem Keeps.unpaired (h : Unpaired s t) : Keeps s t := by
  intro hs
  have hpairing : Exclusive (pairing t) ↔ Exclusive (pairing s) := by rw [h.fields]
  exact hpairing.mpr hs

theorem keeps_of_unpaired {p : Session α} (hp : p.Every Unpaired) : p.Every Keeps :=
  hp.mono fun _ _ => .unpaired

/-- Each grant is of one kind. -/
theorem Keeps.ui (h : UiEffect s t) : Keeps s t := by
  cases h with
  | aside h => exact .unpaired (.of_aside h)
  | identify deviceId h => exact (iff_of_eq (h.core_field Exclusive)).mpr
  | trust deviceId senderId credential version h =>
    exact (iff_of_eq (h.core_field Exclusive)).mpr
  | grant sessionId token shortCode expiresAt kind h =>
    intro _
    exact (iff_of_eq (h.core_field Exclusive)).mpr kind
  | forget h =>
    intro _
    exact .inl (h.core_field ReceiverSession.pendingSessionId)

theorem Keeps.other (h : OtherEffect s t) : Keeps s t := by
  cases h with
  | lifecycle h => exact .unpaired (.of_lifecycle h)
  | ui h => exact .ui h
  | needInput decoder slot => exact .unpaired (OneTime.admitSlot_unpaired decoder slot s)

theorem Keeps.handshake (h : HandshakeEffect s t) : Keeps s t := by
  cases h with
  | message m => exact .unpaired (.note _ rfl rfl rfl)
  | pair h =>
    cases h with
    | answers h => exact .unpaired (.of_answers h)
    | commit challenge token e =>
      rcases commitPairing_cases challenge token e s with ⟨-, code, heq⟩ | ⟨-, heq⟩
      · rw [heq]
        exact fun hs => hs
      · rw [heq]
        exact fun _ => .inl rfl
    | paired => exact fun hs => hs
  | auth h => exact .unpaired (.of_auth h)

theorem handleMessages_keeps (received : List WebSocket.Message) (stage : ChallengeStage) :
    (handleMessages received stage).Every Keeps := by
  induction received generalizing stage with
  | nil => exact every_ret _
  | cons m received ih =>
    unfold handleMessages
    refine ((handleMessage_effect stage m).mono fun _ _ => .handshake).bind fun handled => ?_
    cases handled with
    | returned => exact every_ret _
    | next stage => exact ih stage

theorem authenticateLoop_keeps (turns : List Turn) (decoder : WebSocket.Decoder)
    (stage : ChallengeStage) : (authenticateLoop turns decoder stage).Every Keeps := by
  induction turns generalizing decoder stage with
  | nil => exact every_ret _
  | cons turn turns ih =>
    unfold authenticateLoop
    refine (keeps_of_unpaired (load_unpaired _)).bind fun desired => ?_
    split
    · exact every_ret _
    split
    · exact ih _ _
    · exact every_ret _
    split
    · exact every_ret _
    refine (handleMessages_keeps _ stage).bind fun handled => ?_
    cases handled with
    | returned => exact every_ret _
    | next stage => exact ih _ _

theorem authenticateConnection_keeps (turns : List Turn) :
    (authenticateConnection turns).Every Keeps := by
  unfold authenticateConnection
  refine (keeps_of_unpaired (load_unpaired _)).bind fun socket => ?_
  split
  · exact every_ret _
  · exact authenticateLoop_keeps _ _ _

/-- The network thread asserts it, against whatever keeps it. -/
def exclusive : Assertion Keeps Exclusive := ⟨Exclusive, fun h r => r h, id⟩

theorem steady : Steady exclusive :=
  ⟨fun _ h => h, fun _ _ hs ha => Keeps.unpaired (.of_aside ha) hs⟩

theorem streams : Streams exclusive where
  toSteady := steady
  reply s r whole hr hs := by
    refine Keeps.unpaired (.of_answers (.reply r whole ?_)) hs
    cases r <;> first | rfl | cases hr
  video := handleVideo_triple steady fun _ _ _ hs h => Keeps.unpaired (.of_video h) hs

theorem reachable_exclusive {c : Config Thread ReceiverSession External} (hc : Reachable c) :
    Exclusive c.state := by
  refine steady.reachable (fun h h' hs => h' (h hs)) (fun _ _ => .other) (.inl rfl)
    (networkLoop_triple steady (fun turns => ?_) streams.runConnectedSession) hc
  exact .every (authenticateConnection_keeps turns) fun _ _ hs h => h hs

/-- A section of a job of another thread. -/
def OtherSection (s t : ReceiverSession) : Prop :=
  ∃ thread job, thread ≠ .network ∧ (spawn thread job).Section s t

/-- What is pending at an accepted pairing is the QR authorization of this session and token. -/
def ByQr (s : ReceiverSession) (sessionId token : Bytes) : Prop :=
  s.pendingSessionId ≠ [] ∧ sessionId = s.pendingSessionId ∧ token = s.pendingToken

/-- Where a connection that began with `pair_challenge` is answered `paired`, a QR authorization
of its session and its final message's token was consumed; and where another authorization was
consumed, the connection began with `pair_manual_ipv4`. -/
def AutomaticByQr (h : List SessionStep) : Prop :=
  (∀ first rest, messages h = first :: rest →
    textIs first.payload "type" "pair_challenge" = true →
    (∃ deviceId credential whole, .reply (.paired deviceId credential) whole ∈ observed h) →
    ∃ final, rest = [final] ∧ (∃ commit ∈ h, Pairs commit) ∧ ∀ commit ∈ h, Pairs commit →
      ByQr commit.before (text first.payload "sessionId") (text final.payload "token")) ∧
  ∀ commit ∈ h, Pairs commit → ∀ a, .presented a ∈ news commit →
    ¬ ByQr commit.before a.challenge.sessionId a.token →
    ∃ first rest, messages h = first :: rest ∧ Spoken first "pair_manual_ipv4"

/-- When the final message of an automatic connection comes to the check of its authorization,
no short code is pending, or the pairing is refused. -/
def NoShortCode (h : List SessionStep) : Prop :=
  ∀ commit ∈ h, ∀ a, .presented a ∈ news commit → a.challenge.manualIpv4 = false →
    commit.before.pendingShortCode = [] ∨ Refused a

/-- A connection began with one type of message. -/
theorem spoken_once {m : WebSocket.Message} {type other : String} (hm : Spoken m type)
    (h : textIs m.payload "type" other = true) : ascii type = ascii other := by
  have htyped := hm.typed
  simp only [textIs, beq_iff_eq] at htyped h
  exact Option.some.inj (htyped.symm.trans h)

/-- The two paths on which a pairing comes to its check. -/
theorem presents_cases (hh : History Allowed h) {commit : SessionStep} (hcommit : commit ∈ h)
    {a : PairingAttempt} (ha : .presented a ∈ news commit) :
    (∃ first rest, messages h = first :: rest ∧ Spoken first "pair_manual_ipv4" ∧
      a.challenge.manualIpv4 = true) ∨
    ∃ first second, messages h = [first, second] ∧ PairChallenges first a.challenge ∧
      text second.payload "token" = a.token := by
  obtain ⟨before, after, rfl⟩ := List.append_of_mem hcommit
  have howes : Owes before commit (.presented a) := hh before commit after rfl _ ha
  have hlength := history_messages hh
  rw [messages_append] at hlength ⊢
  rcases howes.1 with ⟨hmanual, m, hm, hspoken, -⟩ | ⟨first, second, htwo, hfirst, -, htoken⟩
  · rw [hm]
    exact .inl ⟨m, _, rfl, hspoken, hmanual⟩
  · rw [htwo, List.length_append] at hlength
    have hsize : [first, second].length = 2 := rfl
    have hnone : messages (commit :: after) = [] := List.eq_nil_of_length_eq_zero (by omega)
    rw [htwo, hnone]
    exact .inr ⟨first, second, rfl, hfirst, htoken⟩

/-- What an accepted pairing owes. -/
theorem pairs_owes (hh : History Allowed h) {commit : SessionStep} (hcommit : commit ∈ h)
    (hp : Pairs commit) : (∃ a, .presented a ∈ news commit) ∧
      ∀ a, .presented a ∈ news commit → ¬ Refused a := by
  obtain ⟨before, after, rfl⟩ := List.append_of_mem hcommit
  obtain ⟨grant, sessionId, hpaired⟩ := hp
  have howes : Owes before commit (.paired grant sessionId) := hh before commit after rfl _ hpaired
  exact howes.2

theorem presented_owes (hh : History Allowed h) {commit : SessionStep} (hcommit : commit ∈ h)
    {a : PairingAttempt} (ha : .presented a ∈ news commit) :
    a = commit.before.attempt a.challenge a.token commit.learned ∧ (Refused a ∨ Pairs commit) := by
  obtain ⟨before, after, rfl⟩ := List.append_of_mem hcommit
  have howes : Owes before commit (.presented a) := hh before commit after rfl _ ha
  exact howes.2

/-- Without a short code only the QR authorization is left to accept a pairing. -/
theorem byQr_of_accepted (hh : History Allowed h) {commit : SessionStep} (hcommit : commit ∈ h)
    {a : PairingAttempt} (ha : .presented a ∈ news commit) (haccepted : ¬ Refused a)
    (hnone : commit.before.pendingShortCode = []) :
    ByQr commit.before a.challenge.sessionId a.token := by
  have hattempt := (presented_owes hh hcommit ha).1
  have hshort : a.pendingShortCode = commit.before.pendingShortCode :=
    congrArg PairingAttempt.pendingShortCode hattempt
  have hsession : a.pendingSessionId = commit.before.pendingSessionId :=
    congrArg PairingAttempt.pendingSessionId hattempt
  have htoken : a.pendingToken = commit.before.pendingToken :=
    congrArg PairingAttempt.pendingToken hattempt
  rcases ((OneTime.not_refused_iff a).mp haccepted).1.2.1 with ⟨hpending, hsame, hequal⟩ | ⟨hpending, -⟩
  · rw [ByQr, ← hsession, ← htoken]
    exact ⟨hpending, hsame, ((constantTimeEqual_iff _ _).mp hequal).2⟩
  · exact absurd (hshort.trans hnone) hpending

/-- On every completed run of a connection in a reachable state of the process, whatever
sections of the other threads come between: the automatic path is left to QR authorizations
exactly if no short code is pending where its final message would be accepted. -/
theorem automatic_by_qr_iff (c : Config Thread ReceiverSession External) (hc : Reachable c)
    (turns : List Turn) (t : ReceiverSession) (h : List SessionStep)
    (result : Bool × WebSocket.Decoder)
    (run : Runs OtherSection (authenticateConnection turns) c.state h (.ret result) t) :
    AutomaticByQr h ↔ NoShortCode h := by
  have hh := (connection_history run).1
  have hexclusive : ∀ st ∈ h, Exclusive st.before := by
    refine ((authenticateConnection_keeps turns).runs (fun s t other => ?_)
      (reachable_exclusive hc) run).2.2
    obtain ⟨thread, job, hthread, hsection⟩ := other
    exact Keeps.other ((spawn_effect thread job hthread).section hsection)
  constructor
  · rintro ⟨-, hmanual⟩ commit hcommit a ha hautomatic
    by_contra hbad
    obtain ⟨hshort, haccepted⟩ := not_or.mp hbad
    have hpairs : Pairs commit := (presented_owes hh hcommit ha).2.resolve_left haccepted
    have hnone : commit.before.pendingSessionId = [] := (hexclusive commit hcommit).resolve_right hshort
    obtain ⟨first, rest, hmessages, hspoken⟩ :=
      hmanual commit hcommit hpairs a ha fun hqr => hqr.1 hnone
    rcases presents_cases hh hcommit ha with ⟨_, _, _, _, htrue⟩ | ⟨first', second, htwo, hfirst, -⟩
    · rw [hautomatic] at htrue
      cases htrue
    · rw [htwo] at hmessages
      cases hmessages
      exact absurd (spoken_once hspoken hfirst.typed) (by decide)
  · intro hnone
    have hqr : ∀ commit ∈ h, Pairs commit → ∀ a, .presented a ∈ news commit →
        a.challenge.manualIpv4 = false → ByQr commit.before a.challenge.sessionId a.token :=
      fun commit hcommit hpairs a ha hautomatic => by
        have haccepted := (pairs_owes hh hcommit hpairs).2 a ha
        exact byQr_of_accepted hh hcommit ha haccepted
          ((hnone commit hcommit a ha hautomatic).resolve_right haccepted)
    refine ⟨fun first rest hmessages htype hreply => ?_, fun commit hcommit hpairs a ha hnot => ?_⟩
    · have hcommits : ∀ commit ∈ h, Pairs commit → ∃ final, rest = [final] ∧
          ByQr commit.before (text first.payload "sessionId") (text final.payload "token") := by
        intro commit hcommit hpairs
        obtain ⟨a, ha⟩ := (pairs_owes hh hcommit hpairs).1
        rcases presents_cases hh hcommit ha with
          ⟨first', rest', hmanual, hspoken, -⟩ | ⟨first', second, htwo, hfirst, htoken⟩
        · rw [hmanual] at hmessages
          cases hmessages
          exact absurd (spoken_once hspoken htype) (by decide)
        · rw [htwo] at hmessages
          cases hmessages
          refine ⟨second, rfl, ?_⟩
          rw [hfirst.session, htoken]
          exact hqr commit hcommit hpairs a ha hfirst.automatic
      obtain ⟨deviceId, credential, whole, hmem⟩ := hreply
      obtain ⟨st, hst, hpaired⟩ := List.mem_flatMap.mp hmem
      obtain ⟨before, after, heq⟩ := List.append_of_mem hst
      obtain ⟨commit, hcommit, hcreates, -⟩ : Discloses before (.paired deviceId credential) :=
        hh before st after heq _ hpaired
      have hin : commit ∈ h := by
        rw [heq]
        exact List.mem_append_left _ hcommit
      obtain ⟨final, hfinal, -⟩ := hcommits commit hin hcreates.1
      refine ⟨final, hfinal, ⟨commit, hin, hcreates.1⟩, fun other hother hpairs => ?_⟩
      obtain ⟨final', hfinal', hbyQr⟩ := hcommits other hother hpairs
      rw [hfinal] at hfinal'
      cases hfinal'
      exact hbyQr
    · rcases presents_cases hh hcommit ha with
        ⟨first, rest, hmessages, hspoken, -⟩ | ⟨_, _, _, hfirst, _⟩
      · exact ⟨first, rest, hmessages, hspoken⟩
      · exact absurd (hqr commit hcommit hpairs a ha hfirst.automatic) hnot

/-- A Receiver whose user scanned a QR code; a connection has been accepted. -/
def scanned : List (Move Thread External Job) :=
  .start .ui .start :: List.replicate 20 (.step .ui OneTime.lively) ++
    .start .ui (.authorizeQr OneTime.firstSession (List.replicate 64 0x32) 60000) ::
    List.replicate 2 (.step .ui {}) ++
    .start .network (.network [some ⟨true, [], []⟩]) ::
    List.replicate 5 (.step .network OneTime.lively)

/-- A message of the automatic path, up to its last member. -/
def automaticText (type : String) : Bytes :=
  ascii "\x7b\"type\":\"" ++ ascii type ++
    ascii "\",\"protocol\":6,\"mode\":\"pair\",\"sessionId\":\"" ++ OneTime.firstSession ++
    ascii "\",\"senderId\":\"" ++ List.replicate 16 0x63 ++ ascii "\",\"nonce\":\"" ++
    List.replicate 64 0x34

def automaticTurns : List Turn :=
  [.received (WebSocketStream.clientFrame (automaticText "pair_challenge" ++ ascii "\"\x7d")),
    .received (WebSocketStream.clientFrame (automaticText "pair" ++ ascii "\",\"token\":\"" ++
      List.replicate 64 0x32 ++ ascii "\"\x7d"))]

/-- The sections up to the answer to the challenge. -/
def challenged (s : ReceiverSession) :
    List SessionStep × Session (Bool × WebSocket.Decoder) × ReceiverSession :=
  (authenticateConnection automaticTurns).play s (List.replicate 5 OneTime.lively)

/-- The short code of the token is authorized in place of the QR code. -/
def replaced (s : ReceiverSession) : ReceiverSession :=
  ((spawn .ui (.authorizeShortCode [0x38, 0x39, 0x34, 0x37, 0x35, 0x34])).play s [{}]).2.2

def finished (s : ReceiverSession) :
    List SessionStep × Session (Bool × WebSocket.Decoder) × ReceiverSession :=
  (challenged s).2.1.play (replaced (challenged s).2.2) (List.replicate 12 OneTime.lively)

theorem finished_runs (s : ReceiverSession) : Runs OtherSection (authenticateConnection automaticTurns)
    s ((challenged s).1 ++ (finished s).1) (finished s).2.1 (finished s).2.2 := by
  have hother : OtherSection (challenged s).2.2 (replaced (challenged s).2.2) :=
    ⟨.ui, .authorizeShortCode _, by decide, play_section (List.cons_ne_nil _ _)⟩
  exact (Runs.interfere (play_runs _ _ _) hother).trans (play_runs _ _ _)

def isPaired : Observation → Bool
  | .paired _ _ => true
  | _ => false

def isPairedReply : Observation → Bool
  | .reply (.paired _ _) _ => true
  | _ => false

/-- An automatic connection was answered `paired` although no QR code was pending. -/
def pairedByShortCode (h : List SessionStep) : Bool :=
  (messages h).head?.any (fun first => textIs first.payload "type" "pair_challenge") &&
    (observed h).any isPairedReply &&
    h.any fun st => st.before.pendingSessionId == [] && (news st).any isPaired

theorem not_automatic_of_short_code (hbad : pairedByShortCode h = true) : ¬ AutomaticByQr h := by
  simp only [pairedByShortCode, Bool.and_eq_true, Option.any_eq_true, List.any_eq_true,
    beq_iff_eq] at hbad
  obtain ⟨⟨⟨first, hhead, htype⟩, reply, hreply, hisReply⟩, commit, hcommit, hnone, o, ho, hpaired⟩ :=
    hbad
  intro hclaim
  obtain ⟨rest, hmessages⟩ : ∃ rest, messages h = first :: rest := List.head?_eq_some_iff.mp hhead
  have hanswered : ∃ deviceId credential whole, .reply (.paired deviceId credential) whole ∈ observed h := by
    cases reply with
    | reply r whole =>
      cases r with
      | paired deviceId credential => exact ⟨deviceId, credential, whole, hreply⟩
      | _ => cases hisReply
    | _ => cases hisReply
  have hpairs : Pairs commit := by
    cases o with
    | paired grant sessionId => exact ⟨grant, sessionId, ho⟩
    | _ => cases hpaired
  obtain ⟨final, -, -, hqr⟩ := hclaim.1 first rest hmessages htype hanswered
  exact (hqr commit hcommit hpairs).1 hnone

/-- The authorization is replaced between the challenge and the final message; the computer is
paired on the automatic path by the short code of its token. -/
theorem replaced_grant_pairs : ∃ c : Config Thread ReceiverSession External, Reachable c ∧
    ∃ h result t, Runs OtherSection (authenticateConnection automaticTurns) c.state h
      (.ret result) t ∧ ¬ AutomaticByQr h := by
  have hrun : (Config.follow spawn launched (fun _ _ _ => True) scanned (Config.idle {})).any
      (fun c => (finished c.state).2.1.result.isSome &&
        pairedByShortCode ((challenged c.state).1 ++ (finished c.state).1)) = true := by
    decide +kernel
  obtain ⟨c, hc, hend⟩ := (Option.any_eq_true _ _).mp hrun
  obtain ⟨hreturned, hbad⟩ := (Bool.and_eq_true _ _).mp hend
  obtain ⟨result, hresult⟩ := Option.isSome_iff_exists.mp hreturned
  have hruns := finished_runs c.state
  rw [eq_ret_of_result hresult] at hruns
  exact ⟨c, (Config.ReachesOffered.follow .refl _ hc).reaches, _, result, _, hruns,
    not_automatic_of_short_code hbad⟩

/-- Left alone the same connection is paired by the QR code. -/
def undisturbed (s : ReceiverSession) :
    List SessionStep × Session (Bool × WebSocket.Decoder) × ReceiverSession :=
  (authenticateConnection automaticTurns).play s (List.replicate 20 OneTime.lively)

theorem undisturbed_by_qr : ∃ c : Config Thread ReceiverSession External, Reachable c ∧
    (observed (undisturbed c.state).1).any isPairedReply = true ∧
    AutomaticByQr (undisturbed c.state).1 := by
  have hrun : (Config.follow spawn launched (fun _ _ _ => True) scanned (Config.idle {})).any
      (fun c => (undisturbed c.state).2.1.result.isSome &&
        ((observed (undisturbed c.state).1).any isPairedReply &&
          (undisturbed c.state).1.all fun st => st.before.pendingShortCode == [])) = true := by
    decide +kernel
  obtain ⟨c, hc, hend⟩ := (Option.any_eq_true _ _).mp hrun
  simp only [Bool.and_eq_true, List.all_eq_true, beq_iff_eq] at hend
  obtain ⟨hreturned, hpaired, hnone⟩ := hend
  obtain ⟨result, hresult⟩ := Option.isSome_iff_exists.mp hreturned
  have hruns : Runs OtherSection (authenticateConnection automaticTurns) c.state
      (undisturbed c.state).1 (.ret result) (undisturbed c.state).2.2 := by
    rw [← eq_ret_of_result hresult]
    exact play_runs _ _ _
  have hreach : Reachable c := (Config.ReachesOffered.follow .refl _ hc).reaches
  exact ⟨c, hreach, hpaired, (automatic_by_qr_iff c hreach automaticTurns _ _ result hruns).mpr
    fun commit hcommit _ _ _ => .inl (hnone commit hcommit)⟩

end HarmonyScreen.Proofs.AutomaticPath
