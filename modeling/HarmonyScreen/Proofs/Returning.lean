import HarmonyScreen.Proofs.Handshake

namespace HarmonyScreen.Proofs.Returning
open Lib Program Receiver ReceiverSession Protocol Handshake

/-- What a section of the handshake may have to wait for. -/
def Waits (ready : ReceiverSession → Bool) : Prop :=
  ready = (fun s => s.lifecycleMutex == none) ∨ ready = callbacksReturned

/-- A critical section first. -/
theorem step {n : Nat} {f : External → ReceiverSession → α × ReceiverSession}
    {g : α → Session β} (hg : ∀ a, (g a).Bounded Waits n) : (critical f >>= g).Bounded Waits (n + 1) :=
  bounded_critical_bind hg

/-- A section that waits. -/
theorem wait {n : Nat} {ready : ReceiverSession → Bool} {act : External → ReceiverSession → ReceiverSession}
    {next : External → ReceiverSession → Session α} (h : Waits ready)
    (hg : ∀ s e, (next e s).Bounded Waits n) : (Program.atomic ready act next).Bounded Waits (n + 1) :=
  ⟨.inr h, fun s e _ => hg s e⟩

theorem flushCodec_bounded : flushCodec.Bounded Waits 2 :=
  step fun _ => wait (.inr rfl) fun _ _ => bounded_ret _

theorem stopCodec_bounded : stopCodec.Bounded Waits 2 :=
  step fun _ => wait (.inr rfl) fun _ _ => bounded_ret _

theorem destroyDecoderLocked_bounded : destroyDecoderLocked.Bounded Waits 8 := by
  have hrest : (setGate .stopped >>= fun _ => requireCodecData).Bounded Waits 2 :=
    step fun _ => bounded_critical _
  unfold destroyDecoderLocked
  refine step fun _ => step fun _ => step fun decoder => ?_
  split
  · exact stopCodec_bounded.bind fun _ => step fun _ => hrest
  · exact hrest.mono (by decide)

theorem prepareDecoder_bounded (connected : Bool)
    (operations : List (String × (ReceiverSession → ReceiverSession))) :
    (prepareDecoder connected operations).Bounded Waits (operations.length + 3) := by
  induction operations with
  | nil => exact bounded_ret _
  | cons operation operations ih =>
    obtain ⟨name, effect⟩ := operation
    unfold prepareDecoder
    refine step fun status => ?_
    split
    · exact (step fun _ => step fun _ => step fun _ => bounded_ret _ :
        Bounded Waits 3 _).mono (by simp)
    · exact ih

theorem createDecoderLocked_bounded : createDecoderLocked.Bounded Waits 22 := by
  unfold createDecoderLocked
  refine step fun connected => step fun shouldRun => ?_
  split
  · exact step fun _ => bounded_ret _
  refine step fun contract => ?_
  split
  · exact step fun _ => bounded_ret _
  refine step fun _ => step fun created => ?_
  split
  · exact step fun _ => step fun _ => bounded_ret _
  refine Bounded.bind (m := 8) (n := 9) (prepareDecoder_bounded connected [_, _, _, _, _])
    fun prepared => ?_
  split
  · exact bounded_ret _
  refine step fun _ => step fun _ => step fun start => ?_
  split
  · exact step fun _ => step fun _ => step fun _ => step fun _ => step fun _ => step fun _ =>
      bounded_ret _
  · exact step fun _ => bounded_ret _

theorem restartDecoder_bounded : restartDecoder.Bounded Waits 2 :=
  step fun _ => step fun _ => bounded_ret _

theorem flushDecoderLocked_bounded : flushDecoderLocked.Bounded Waits 38 := by
  have hcreate {b : Bool} : (load (·.lifecycleState.decoderShouldRun) >>= fun shouldRun =>
      if shouldRun then createDecoderLocked else pure b).Bounded Waits 23 := by
    refine step fun shouldRun => ?_
    split
    · exact createDecoderLocked_bounded
    · exact bounded_ret _
  unfold flushDecoderLocked
  refine step fun decoder => ?_
  split
  · have hafter (flushed : Int) (restarted : Bool) :
        (if evaluateFlushRecovery (flushed == 0) restarted = .resume then pure true
          else destroyDecoderLocked >>= fun _ => load (·.lifecycleState.decoderShouldRun) >>=
            fun shouldRun => if shouldRun then createDecoderLocked else pure false :
          Session Bool).Bounded Waits 31 := by
      split
      · exact bounded_ret _
      · exact destroyDecoderLocked_bounded.bind fun _ => hcreate
    refine step fun _ => step fun _ => Bounded.bind (m := 2) (n := 33) flushCodec_bounded
      fun flushed => ?_
    split
    · exact restartDecoder_bounded.bind (hafter flushed)
    · exact (hafter flushed false).mono (by decide)
  · exact (step fun _ => step fun _ => step fun _ => hcreate : Bounded Waits 26 _).mono (by decide)

theorem lockLifecycle_bounded (thread : LifecycleThread) :
    (lockLifecycle thread).Bounded Waits 1 :=
  wait (.inl rfl) fun _ _ => bounded_ret _

/-- What both preparations end with. -/
theorem released_bounded (prepared : Bool) : (requireCodecData >>= fun _ => unlockLifecycle >>=
    fun _ => countResync prepared >>= fun _ => requestKeyframe >>= fun _ => pure prepared).Bounded
      Waits 4 :=
  step fun _ => step fun _ => step fun _ => step fun _ => bounded_ret _

theorem flushDecoder_bounded : flushDecoder.Bounded Waits 43 :=
  (lockLifecycle_bounded _).bind fun _ => flushDecoderLocked_bounded.bind released_bounded

theorem reconfigureDecoder_bounded (contract : MediaContract) :
    (reconfigureDecoder contract).Bounded Waits 43 := by
  have hafter (previous : MediaContract) (prepared : Bool) :
      (if (!prepared) = true then
          (ReceiverSession.modify fun s => { s with decoderMediaContract := previous }) >>= fun _ =>
            requireCodecData >>= fun _ => unlockLifecycle >>= fun _ => countResync prepared >>=
            fun _ => requestKeyframe >>= fun _ => pure prepared
        else requireCodecData >>= fun _ => unlockLifecycle >>= fun _ => countResync prepared >>=
            fun _ => requestKeyframe >>= fun _ => pure prepared : Session Bool).Bounded Waits 5 := by
    split
    · exact step fun _ => released_bounded prepared
    · exact (released_bounded prepared).mono (by decide)
  unfold reconfigureDecoder
  split
  · exact step fun _ => bounded_ret _
  refine Bounded.bind (m := 1) (n := 42) (lockLifecycle_bounded _) fun _ => step fun previous =>
    Bounded.bind (m := 8) (n := 33) destroyDecoderLocked_bounded fun _ => step fun _ =>
    step fun shouldRun => ?_
  split
  · exact (createDecoderLocked_bounded.bind (hafter previous)).mono (by decide)
  · exact (hafter previous true).mono (by decide)

theorem refuse_bounded (code : ErrorCode) : (refuse code).Bounded Waits 1 :=
  step fun _ => bounded_ret _

theorem pairChallenge_bounded (json : Bytes) : (pairChallenge json).Bounded Waits 2 := by
  unfold pairChallenge
  dsimp only
  split
  · exact (refuse_bounded _).mono (by decide)
  refine step fun locked => ?_
  split
  · exact refuse_bounded _
  split
  · exact refuse_bounded _
  refine step fun sent => ?_
  split
  · exact bounded_ret _
  · exact bounded_ret _

theorem pairFinal_bounded (challenge : PairChallengeState) (json : Bytes) :
    (pairFinal challenge json).Bounded Waits 3 := by
  unfold pairFinal
  split
  · exact (refuse_bounded _).mono (by decide)
  refine step fun committed => ?_
  split
  · exact (refuse_bounded _).mono (by decide)
  · exact step fun _ => step fun _ => bounded_ret _

theorem pairManualIpv4_bounded (json : Bytes) : (pairManualIpv4 json).Bounded Waits 4 := by
  unfold pairManualIpv4
  dsimp only
  split
  · exact (refuse_bounded _).mono (by decide)
  · exact step fun deviceId => pairFinal_bounded _ _

theorem authChallenge_bounded (json : Bytes) : (authChallenge json).Bounded Waits 2 := by
  unfold authChallenge
  split
  · exact (refuse_bounded _).mono (by decide)
  refine step fun decision => ?_
  split
  · exact refuse_bounded _
  dsimp only
  split
  · exact refuse_bounded _
  refine step fun sent => ?_
  split
  · exact bounded_ret _
  · exact bounded_ret _

theorem concludeAuth_bounded (challenge : AuthChallengeState) (previous : Previous)
    (prepared : Bool) : (concludeAuth challenge previous prepared).Bounded Waits 2 := by
  unfold concludeAuth
  split
  · exact step fun _ => refuse_bounded _
  refine step fun sent => ?_
  split
  · exact bounded_ret _
  · exact step fun _ => bounded_ret _

theorem authFinal_bounded (challenge : AuthChallengeState) (json : Bytes) :
    (authFinal challenge json).Bounded Waits 46 := by
  rw [authFinal_eq]
  split
  · exact (refuse_bounded _).mono (by decide)
  refine step fun committed => ?_
  cases committed with
  | error code => exact (refuse_bounded _).mono (by decide)
  | ok previous =>
    dsimp only
    split
    · exact flushDecoder_bounded.bind (concludeAuth_bounded challenge previous)
    · exact (reconfigureDecoder_bounded _).bind (concludeAuth_bounded challenge previous)

/-- What one message may take in this stage. -/
def cost : ChallengeStage → Nat
  | .initial => 5
  | .pairFinal _ | .authFinal _ => 47

/-- What all messages together may still take from this stage on. -/
def left : ChallengeStage → Nat
  | .initial => 52
  | .pairFinal _ | .authFinal _ => 47

theorem cost_le (stage : ChallengeStage) : 2 ≤ cost stage := by
  cases stage with
  | initial => decide
  | pairFinal _ | authFinal _ => exact (by decide : 2 ≤ 47)

theorem cost_le_left (stage : ChallengeStage) : cost stage ≤ left stage := by
  cases stage with
  | initial => decide
  | pairFinal _ | authFinal _ => exact Nat.le_refl 47

/-- A message that does not end the handshake leaves what the next one may take. -/
def Advances (stage : ChallengeStage) : Handled → Prop
  | .returned _ => True
  | .next stage' => cost stage + left stage' ≤ left stage

theorem refuse_returns (code : ErrorCode) (stage : ChallengeStage) :
    (refuse code).Returns (Advances stage) :=
  fun _ _ _ => trivial

theorem pairFinal_returns (challenge : PairChallengeState) (json : Bytes) (stage : ChallengeStage) :
    (pairFinal challenge json).Returns (Advances stage) := by
  unfold pairFinal
  split
  · exact refuse_returns _ _
  refine returns_bind fun committed => ?_
  split
  · exact refuse_returns _ _
  · exact returns_bind fun _ => returns_bind fun _ => trivial

theorem pairManualIpv4_returns (json : Bytes) :
    (pairManualIpv4 json).Returns (Advances .initial) := by
  unfold pairManualIpv4
  dsimp only
  split
  · exact refuse_returns _ _
  · exact returns_bind fun _ => pairFinal_returns _ _ _

theorem concludeAuth_returns (challenge : AuthChallengeState) (previous : Previous)
    (prepared : Bool) (stage : ChallengeStage) :
    (concludeAuth challenge previous prepared).Returns (Advances stage) := by
  unfold concludeAuth
  split
  · exact returns_bind fun _ => refuse_returns _ _
  refine returns_bind fun sent => ?_
  split
  · exact trivial
  · exact returns_bind fun _ => trivial

theorem authFinal_returns (challenge : AuthChallengeState) (json : Bytes) (stage : ChallengeStage) :
    (authFinal challenge json).Returns (Advances stage) := by
  rw [authFinal_eq]
  split
  · exact refuse_returns _ _
  refine returns_bind fun committed => ?_
  cases committed with
  | error code => exact refuse_returns _ _
  | ok previous =>
    dsimp only
    split
    · exact returns_bind fun prepared => concludeAuth_returns _ _ prepared _
    · exact returns_bind fun prepared => concludeAuth_returns _ _ prepared _

theorem pairChallenge_returns (json : Bytes) :
    (pairChallenge json).Returns (Advances .initial) := by
  unfold pairChallenge
  dsimp only
  split
  · exact refuse_returns _ _
  refine returns_bind fun locked => ?_
  split
  · exact refuse_returns _ _
  split
  · exact refuse_returns _ _
  refine returns_bind fun sent => ?_
  split
  · exact trivial
  · exact Nat.le_refl 52

theorem authChallenge_returns (json : Bytes) :
    (authChallenge json).Returns (Advances .initial) := by
  unfold authChallenge
  split
  · exact refuse_returns _ _
  refine returns_bind fun decision => ?_
  split
  · exact refuse_returns _ _
  dsimp only
  split
  · exact refuse_returns _ _
  refine returns_bind fun sent => ?_
  split
  · exact trivial
  · exact Nat.le_refl 52

theorem handleMessage_bounded (stage : ChallengeStage) (m : WebSocket.Message) :
    (handleMessage stage m).Bounded Waits (cost stage) := by
  have hfirst {p : Session Handled} {n : Nat} (hp : p.Bounded Waits n) (hn : n + 1 ≤ cost stage) :
      (ReceiverSession.modify (fun s => s.note (.message m s.source)) >>= fun _ => p).Bounded
        Waits (cost stage) :=
    (step fun _ => hp).mono hn
  have hrefuse (code : ErrorCode) :
      (ReceiverSession.modify (fun s => s.note (.message m s.source)) >>= fun _ =>
        refuse code).Bounded Waits (cost stage) :=
    hfirst (refuse_bounded code) (cost_le stage)
  unfold handleMessage
  split
  · exact hrefuse _
  dsimp only
  split
  · exact hrefuse _
  cases stage with
  | initial =>
    dsimp only
    split
    · exact hfirst (pairManualIpv4_bounded _) (by decide)
    split
    · exact hfirst (pairChallenge_bounded _) (by decide)
    split
    · exact hfirst (authChallenge_bounded _) (by decide)
    · exact hrefuse _
  | pairFinal challenge => exact hfirst (pairFinal_bounded challenge _) (by decide : 4 ≤ 47)
  | authFinal challenge => exact hfirst (authFinal_bounded challenge _) (Nat.le_refl 47)

theorem handleMessage_returns (stage : ChallengeStage) (m : WebSocket.Message) :
    (handleMessage stage m).Returns (Advances stage) := by
  unfold handleMessage
  refine returns_bind fun _ => ?_
  split
  · exact refuse_returns _ _
  dsimp only
  split
  · exact refuse_returns _ _
  cases stage with
  | initial =>
    dsimp only
    split
    · exact pairManualIpv4_returns _
    split
    · exact pairChallenge_returns _
    split
    · exact authChallenge_returns _
    · exact refuse_returns _ _
  | pairFinal challenge => exact pairFinal_returns challenge _ _
  | authFinal challenge => exact authFinal_returns challenge _ _

/-- The messages that came at once, with what follows them. -/
theorem handleMessages_bounded {f : Handled → Session α} {n : Nat}
    (hreturned : ∀ result, (f (.returned result)).Bounded Waits n)
    (hnext : ∀ stage, (f (.next stage)).Bounded Waits (left stage + n))
    (received : List WebSocket.Message) (stage : ChallengeStage) :
    (handleMessages received stage >>= f).Bounded Waits (left stage + n) := by
  induction received generalizing stage with
  | nil => exact hnext stage
  | cons m received ih =>
    have hcost := cost_le_left stage
    rw [handleMessages, Program.bind_assoc,
      show left stage + n = cost stage + (left stage - cost stage + n) by omega]
    refine (handleMessage_bounded stage m).bind_returns (handleMessage_returns stage m)
      fun handled hadvances => ?_
    cases handled with
    | returned result => exact (hreturned result).mono (by omega)
    | next stage' =>
      have hleft : cost stage + left stage' ≤ left stage := hadvances
      exact (ih stage').mono (by omega)

theorem authenticateLoop_bounded (turns : List Turn) (decoder : WebSocket.Decoder)
    (stage : ChallengeStage) :
    (authenticateLoop turns decoder stage).Bounded Waits (left stage + turns.length) := by
  induction turns generalizing decoder stage with
  | nil => exact bounded_ret _
  | cons turn turns ih =>
    unfold authenticateLoop
    refine step fun desired => ?_
    split
    · exact bounded_ret _
    split
    · exact ih _ _
    · exact bounded_ret _
    split
    · exact bounded_ret _
    · refine handleMessages_bounded (fun _ => ?_) (fun stage => ?_) _ _
      · exact bounded_ret _
      · exact ih _ stage

theorem authenticateConnection_bounded (turns : List Turn) :
    (authenticateConnection turns).Bounded Waits (turns.length + 53) := by
  unfold authenticateConnection
  refine step fun socket => ?_
  split
  · exact bounded_ret _
  · exact (authenticateLoop_bounded turns {} .initial).mono (Nat.le_of_eq (Nat.add_comm _ _))

/-- The connection stands before a section that another thread keeps from being taken: it waits
for the lifecycle lock, or for the callbacks of the codec to return. -/
inductive Held : Session α → ReceiverSession → Prop where
  | lock (holder : LifecycleThread) (h : s.lifecycleMutex = some holder) :
      Held (.atomic (fun s => s.lifecycleMutex == none) act next) s
  | callbacks (h : callbacksReturned s = false) : Held (.atomic callbacksReturned act next) s

/-- A program that has not returned can go on, unless it is held. -/
theorem canStep_or_held {n : Nat} {q : Session α} {s : ReceiverSession} (hq : q.Bounded Waits n)
    (hnone : q.result = none) : q.canStep s = true ∨ Held q s := by
  cases q with
  | ret a => cases hnone
  | atomic ready act next =>
    cases n with
    | zero => exact hq.elim
    | succ n =>
      rcases hq.1 with hready | rfl | rfl
      · exact .inl (hready s)
      · cases hmutex : s.lifecycleMutex with
        | none => exact .inl (by simp [canStep, hmutex])
        | some holder => exact .inr (.lock holder hmutex)
      · cases hreturned : callbacksReturned s with
        | true => exact .inl hreturned
        | false => exact .inr (.callbacks hreturned)

end HarmonyScreen.Proofs.Returning
