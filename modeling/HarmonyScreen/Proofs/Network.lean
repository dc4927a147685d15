import HarmonyScreen.Lib.Rely
import HarmonyScreen.Proofs.Handshake

namespace HarmonyScreen.Proofs.Network
open Lib Program Receiver ReceiverSession Effects Handshake

section
variable {R : ReceiverSession → ReceiverSession → Prop} {J : ReceiverSession → Prop}

/-- What a handler has to leave behind: the assertion itself when the
connection's handshake ends, the next stage's when it goes on. -/
def afterMessage (P : Assertion R J) (S : ChallengeStage → Assertion R J) :
    Handled → Assertion R J
  | .returned _ => P
  | .next stage => S stage

/-- An assertion about the network thread that only the handshake endangers. -/
structure Steady (P : Assertion R J) : Prop where
  refl : ∀ s, R s s
  aside : ∀ s t, P.holds s → Aside s t → P.holds t

theorem Steady.triple {P : Assertion R J} (hP : Steady P) {p : Session α} (hp : p.Every Aside) :
    Triple P p (fun _ => P) := .every hp hP.aside

theorem Steady.load {P : Assertion R J} (hP : Steady P) (read : ReceiverSession → α) :
    Triple P (load read) (fun _ => P) := hP.triple (load_every read Aside.refl)

variable {P : Assertion R J} {S : ChallengeStage → Assertion R J}

theorem handleMessages_triple (hP : Steady P)
    (message : ∀ stage m, Triple (S stage) (handleMessage stage m) (afterMessage P S))
    (messages : List WebSocket.Message) (stage : ChallengeStage) :
    Triple (S stage) (handleMessages messages stage) (afterMessage P S) := by
  induction messages generalizing stage with
  | nil => exact .ret _ fun _ h => h
  | cons m messages ih =>
    unfold handleMessages
    refine .bind hP.refl (message stage m) fun handled => ?_
    cases handled with
    | returned result => exact .ret _ fun _ h => h
    | next stage => exact ih stage

theorem authenticateLoop_triple (hP : Steady P) (hS : ∀ stage, Steady (S stage))
    (leave : ∀ stage s, (S stage).holds s → P.holds s)
    (message : ∀ stage m, Triple (S stage) (handleMessage stage m) (afterMessage P S))
    (turns : List Turn) (decoder : WebSocket.Decoder) (stage : ChallengeStage) :
    Triple (S stage) (authenticateLoop turns decoder stage) (fun _ => P) := by
  induction turns generalizing decoder stage with
  | nil => exact .ret _ (leave stage)
  | cons turn turns ih =>
    unfold authenticateLoop
    refine .bind hP.refl ((hS stage).load _) fun desired => ?_
    split
    · exact .ret _ (leave stage)
    split
    · exact ih _ stage
    · exact .ret _ (leave stage)
    split
    · exact .ret _ (leave stage)
    refine .bind hP.refl (handleMessages_triple hP message _ stage) fun handled => ?_
    cases handled with
    | returned result => exact .ret _ fun _ h => h
    | next stage => exact ih _ stage

/-- The handshake rule: one lemma for each message of each stage carries a whole connection. -/
theorem authenticateConnection_triple (hP : Steady P) (hS : ∀ stage, Steady (S stage))
    (enter : ∀ s, P.holds s → (S .initial).holds s)
    (leave : ∀ stage s, (S stage).holds s → P.holds s)
    (message : ∀ stage m, Triple (S stage) (handleMessage stage m) (afterMessage P S))
    (turns : List Turn) : Triple P (authenticateConnection turns) (fun _ => P) := by
  unfold authenticateConnection
  refine .bind hP.refl (hP.load _) fun socket => ?_
  split
  · exact .ret _ fun _ h => h
  · exact (authenticateLoop_triple hP hS leave message turns {} .initial).weaken enter
      fun _ _ h => h

/-- The replies of a connected session. -/
def ofSession : Reply → Bool
  | .keyframe | .pong _ | .telemetry _ => true
  | _ => false

/-- What the session rule asks of an assertion: its replies and its video keep it. -/
structure Streams (P : Assertion R J) : Prop extends Steady P where
  reply : ∀ s r whole, ofSession r = true → P.holds s → P.holds (s.note (.reply r whole))
  video : ∀ data, Triple P (handleVideo data) (fun _ => P)

theorem handleVideo_triple (hP : Steady P)
    (video : ∀ epoch s t, P.holds s → VideoEffect epoch s t → P.holds t) (data : Bytes) :
    Triple P (handleVideo data) (fun _ => P) := by
  obtain ⟨body, heq, hbody⟩ := handleVideo_effect data
  rw [heq]
  exact .bind hP.refl (hP.load _) fun epoch => .every (hbody epoch) (video epoch)

theorem sendControl_triple {Q : Assertion R J} (r : Reply)
    (h : ∀ s whole, P.holds s → Q.holds (s.note (.reply r whole))) :
    Triple P (ReceiverSession.sendControl r) (fun _ => Q) := by
  refine .critical fun e s hs => ?_
  have hreply := h s (s.sendsWhole e r.text) hs
  rw [note] at hreply
  simpa only [List.append_nil] using hreply

theorem Streams.sendControl (hP : Streams P) (r : Reply) (h : ofSession r = true) :
    Triple P (sendControl r) (fun _ => P) :=
  sendControl_triple r fun s whole hs => hP.reply s r whole h hs

theorem handleSessionMessage_triple (hP : Streams P) (message : WebSocket.Message) :
    Triple P (handleSessionMessage message) (fun _ => P) := by
  have hret {α : Type} (a : α) : Triple P (.ret a : Session α) (fun _ => P) := .ret a fun _ h => h
  unfold handleSessionMessage
  split
  · unfold handleControl
    split
    · exact hret _
    split
    · split
      · exact hret _
      · exact hP.sendControl _ rfl
    · exact hret _
  · exact .bind hP.refl (hP.video _) fun _ => hret _
  · exact hP.triple (learn_every _ Aside.refl)
  · exact hret _
  · exact hret _
  · exact hret _

theorem handleSessionMessages_triple (hP : Streams P) (messages : List WebSocket.Message) :
    Triple P (handleSessionMessages messages) (fun _ => P) := by
  induction messages with
  | nil => exact .ret _ fun _ h => h
  | cons message messages ih =>
    unfold handleSessionMessages
    refine .bind hP.refl (handleSessionMessage_triple hP message) fun goesOn => ?_
    split
    · exact .ret _ fun _ h => h
    · exact ih

theorem sendTelemetry_triple (hP : Streams P) : Triple P sendTelemetry (fun _ => P) := by
  unfold sendTelemetry
  refine .bind hP.refl (hP.triple ((every_critical _).mpr fun _ _ => rfl)) fun telemetry => ?_
  split
  · exact .ret _ fun _ h => h
  · exact hP.sendControl _ rfl

theorem sendPending_triple (hP : Streams P) : Triple P sendPending (fun _ => P) := by
  have hcount : Triple P (ReceiverSession.modify fun s =>
      { s with keyframeRequestsSent := s.keyframeRequestsSent + 1 }) (fun _ => P) :=
    hP.triple (modify_every fun _ => rfl)
  unfold sendPending
  refine .bind hP.refl (hP.triple ((every_critical _).mpr fun _ _ => rfl)) fun requested => ?_
  cases requested with
  | true =>
    refine .bind hP.refl (hP.sendControl _ rfl) fun sent => ?_
    cases sent with
    | false => exact .ret _ fun _ h => h
    | true => exact .bind hP.refl hcount fun _ => sendTelemetry_triple hP
  | false => exact sendTelemetry_triple hP

theorem connectedLoop_triple (hP : Streams P) (turns : List Turn) (decoder : WebSocket.Decoder) :
    Triple P (connectedLoop turns decoder) (fun _ => P) := by
  induction turns generalizing decoder with
  | nil => exact .ret _ fun _ h => h
  | cons turn turns ih =>
    have hleave : Triple P (pure () : Session Unit) (fun _ => P) := .ret _ fun _ h => h
    have hsent (sent : Bool) (d : WebSocket.Decoder) :
        Triple P (if (!sent) = true then pure () else connectedLoop turns d : Session Unit)
          (fun _ => P) := by
      split
      · exact hleave
      · exact ih d
    have hcurrent {p : Bool → Session Unit} (hp : Triple P (p true) (fun _ => P))
        (hf : Triple P (p false) (fun _ => P)) (desired : Bool) :
        Triple P (if desired = true then continueWithCurrentAddress >>= p else p false)
          (fun _ => P) := by
      split
      · refine .bind hP.refl (hP.triple continueWithCurrentAddress_aside) fun current => ?_
        cases current with
        | true => exact hp
        | false => exact hf
      · exact hf
    unfold connectedLoop
    refine .bind hP.refl (hP.load _) fun desired => ?_
    cases turn with
    | ended => exact hcurrent hleave hleave desired
    | idle =>
      exact hcurrent (.bind hP.refl (sendPending_triple hP) fun sent => hsent sent decoder) hleave
        desired
    | received data =>
      refine hcurrent ?_ hleave desired
      dsimp only
      rw [if_neg (show ¬ (!true) = true from Bool.false_ne_true)]
      split
      · exact hleave
      · rename_i d messages _
        refine .bind hP.refl (handleSessionMessages_triple hP messages) fun goesOn => ?_
        cases goesOn with
        | true => exact .bind hP.refl (sendPending_triple hP) fun sent => hsent sent d
        | false => exact hsent false d

/-- The session rule. -/
theorem Streams.runConnectedSession (hP : Streams P) (turns : List Turn)
    (decoder : WebSocket.Decoder) : Triple P (runConnectedSession turns decoder) (fun _ => P) := by
  unfold ReceiverSession.runConnectedSession
  refine .bind hP.refl (hP.load _) fun socket => ?_
  split
  · exact .ret _ fun _ h => h
  · exact connectedLoop_triple hP turns decoder

theorem acceptWebSocket_triple (hP : Steady P)
    (authenticate : ∀ turns, Triple P (authenticateConnection turns) (fun _ => P))
    (session : ∀ turns decoder, Triple P (runConnectedSession turns decoder) (fun _ => P))
    (c : Connection) : Triple P (acceptWebSocket c) (fun _ => P) := by
  unfold acceptWebSocket
  refine .bind hP.refl (hP.triple (modify_every fun _ => rfl)) fun _ => ?_
  split
  · exact .ret _ fun _ h => h
  refine .bind hP.refl (authenticate c.authentication) fun result => ?_
  obtain ⟨authenticated, decoder⟩ := result
  dsimp only
  split
  · exact session _ _
  · exact .ret _ fun _ h => h

theorem networkTurns_triple (hP : Steady P)
    (authenticate : ∀ turns, Triple P (authenticateConnection turns) (fun _ => P))
    (session : ∀ turns decoder, Triple P (runConnectedSession turns decoder) (fun _ => P))
    (turns : List (Option Connection)) : Triple P (networkTurns turns) (fun _ => P) := by
  induction turns with
  | nil => exact .await fun _ h _ => h
  | cons turn turns ih =>
    cases turn with
    | none =>
      have hcontinue (current : Bool) :
          Triple P (if (!current) = true then pure () else networkTurns turns : Session Unit)
            (fun _ => P) := by
        split
        · exact .ret _ fun _ h => h
        · exact ih
      unfold networkTurns
      refine .bind hP.refl (hP.load _) fun desired => ?_
      cases desired with
      | true => exact .bind hP.refl (hP.triple continueWithCurrentAddress_aside) hcontinue
      | false => exact hcontinue false
    | some c =>
      have hcontinue (current : Bool) :
          Triple P (if (!current) = true then pure () else
            acceptWebSocket c >>= fun _ => closeControlSocket >>= fun _ =>
              load (·.desired) >>= fun desired =>
              if desired = true then
                setState "listening" waitingDetail true false >>= fun _ => networkTurns turns
              else networkTurns turns : Session Unit) (fun _ => P) := by
        split
        · exact .ret _ fun _ h => h
        refine .bind hP.refl (acceptWebSocket_triple hP authenticate session c) fun _ =>
          .bind hP.refl (hP.triple closeControlSocket_aside) fun _ =>
          .bind hP.refl (hP.load _) fun desired => ?_
        split
        · exact .bind hP.refl (hP.triple (setState_aside _ _ _ _)) fun _ => ih
        · exact ih
      unfold networkTurns
      refine .bind hP.refl (hP.load _) fun desired => ?_
      cases desired with
      | true => exact .bind hP.refl (hP.triple continueWithCurrentAddress_aside) hcontinue
      | false => exact hcontinue false

/-- The thread rule: what the handshake and the session of every connection
keep, a network thread keeps. -/
theorem networkLoop_triple (hP : Steady P)
    (authenticate : ∀ turns, Triple P (authenticateConnection turns) (fun _ => P))
    (session : ∀ turns decoder, Triple P (runConnectedSession turns decoder) (fun _ => P))
    (turns : List (Option Connection)) : Triple P (networkLoop turns) (fun _ => P) := by
  have hmodify {f : ReceiverSession → ReceiverSession} (hf : ∀ s, Aside s (f s)) :
      Triple P (ReceiverSession.modify f) (fun _ => P) := hP.triple (modify_every hf)
  have hworker : Triple P (closeControlSocket >>= fun _ =>
      ReceiverSession.modify fun s => { s with worker := false }) (fun _ => P) :=
    .bind hP.refl (hP.triple closeControlSocket_aside) fun _ => hmodify fun _ => rfl
  unfold networkLoop
  refine .bind hP.refl (hP.triple (learn_every _ Aside.refl)) fun listens => ?_
  split
  · refine .bind hP.refl (hP.load _) fun desired => ?_
    split
    · exact .bind hP.refl (hP.triple (setState_aside _ _ _ _)) fun _ => hworker
    · exact hworker
  · refine .bind hP.refl (hP.triple (setState_aside _ _ _ _)) fun _ =>
      .bind hP.refl (networkTurns_triple hP authenticate session turns) fun _ => ?_
    exact .bind hP.refl (hP.triple closeControlSocket_aside) fun _ =>
      .bind hP.refl (hmodify fun _ => rfl) fun _ => .bind hP.refl (hmodify fun _ => rfl) fun _ =>
      hmodify fun _ => rfl

/-- The process rule: what the network thread keeps against the other threads
holds in every reachable state. -/
theorem Steady.reachable (hP : Steady P) (trans : ∀ {s t u}, R s t → R t u → R s u)
    (others : ∀ s t, OtherEffect s t → R s t) (init : P.holds {})
    (network : ∀ turns, Triple P (networkLoop turns) (fun _ => P))
    {c : Config Thread ReceiverSession External} (hc : Reachable c) : J c.state := by
  refine Config.Reaches.safe (m := .network) (I := P.holds) hP.refl trans (fun _ _ => P.stable)
    (fun _ => P.safe) (fun s job hs _ => ?_) (fun i job hi => ?_) init hc
  · cases job with
    | network turns => exact network turns s hs
    | _ => exact Triple.ret () (fun _ h => h) s hs
  · exact (spawn_effect i job hi).mono others

end

end HarmonyScreen.Proofs.Network
