import HarmonyScreen.Receiver.System

namespace HarmonyScreen.Proofs.Effects
open Lib Program Receiver ReceiverSession

/-- What the properties are about: the pairing, the source, the decoder's queues
and the log. The rest is set aside. -/
def core (s : ReceiverSession) : ReceiverSession :=
  { ({} : ReceiverSession) with
    deviceId := s.deviceId
    trustedSenderId := s.trustedSenderId
    trustedCredential := s.trustedCredential
    pairingRecordVersion := s.pairingRecordVersion
    pendingSessionId := s.pendingSessionId
    pendingToken := s.pendingToken
    pendingShortCode := s.pendingShortCode
    consumedSessionId := s.consumedSessionId
    pairingExpiresAt := s.pairingExpiresAt
    latestSourceEpoch := s.latestSourceEpoch
    activeSourceEpoch := s.activeSourceEpoch
    activeMediaContract := s.activeMediaContract
    decoderMediaContract := s.decoderMediaContract
    inputSlots := s.inputSlots
    decodeQueue := s.decodeQueue
    log := s.log }

/-- A section that changes only what is set aside. -/
def Aside (s t : ReceiverSession) : Prop := core t = core s

def cleared (s : ReceiverSession) : ReceiverSession :=
  { s with inputSlots := [], decodeQueue := [], log := s.log ++ [.cleared] }

/-- What is observed of the codec's own calls. -/
def ofCodec : Observation → Bool
  | .started | .halted => true
  | _ => false

/-- A section of a lifecycle operation: besides what is set aside it at most
clears the decoder's queues, or the codec is started or halted. -/
def LifecycleEffect (s t : ReceiverSession) : Prop :=
  Aside s t ∨ Aside (cleared s) t ∨ ∃ o, ofCodec o = true ∧ Aside (s.note o) t

theorem Aside.core_field (h : Aside s t) (f : ReceiverSession → α) : f (core t) = f (core s) :=
  congrArg f h

theorem Aside.log (h : Aside s t) : t.log = s.log :=
  h.core_field ReceiverSession.log

theorem Aside.source (h : Aside s t) : t.source = s.source :=
  h.core_field ReceiverSession.source

theorem Aside.decodeQueue (h : Aside s t) : t.decodeQueue = s.decodeQueue :=
  h.core_field ReceiverSession.decodeQueue

theorem Aside.inputSlots (h : Aside s t) : t.inputSlots = s.inputSlots :=
  h.core_field ReceiverSession.inputSlots

theorem Aside.effect (h : Aside s t) : LifecycleEffect s t := .inl h

theorem Aside.refl (s : ReceiverSession) : Aside s s := rfl

theorem LifecycleEffect.source (h : LifecycleEffect s t) : t.source = s.source := by
  rcases h with h | h | ⟨o, -, h⟩ <;> exact h.source

variable {G : ReceiverSession → ReceiverSession → Prop}

/-- Sections that only read. -/
theorem load_every (read : ReceiverSession → α) (hg : ∀ s, G s s) : (load read).Every G := by
  rw [load, every_critical]
  exact fun s _ => hg s

theorem modify_every {f : ReceiverSession → ReceiverSession} (hf : ∀ s, G s (f s)) :
    (modify f).Every G := by
  unfold ReceiverSession.modify
  rw [every_critical]
  exact fun s _ => hf s

theorem learn_every (read : External → α) (hg : ∀ s, G s s) :
    (critical fun e s => (read e, s) : Session α).Every G := by
  rw [every_critical]
  exact fun s _ => hg s

theorem setState_aside (state detail : String) (listening connected : Bool) :
    (setState state detail listening connected).Every Aside := by
  rw [setState, every_critical]
  exact fun _ _ => rfl

theorem requestKeyframe_aside : requestKeyframe.Every Aside := modify_every fun _ => rfl

theorem closeControlSocket_aside : closeControlSocket.Every Aside := modify_every fun _ => rfl

theorem drop_aside : (modify drop).Every Aside := modify_every fun _ => rfl

theorem setGate_aside (state : DecoderLifecycleState) : (setGate state).Every Aside :=
  modify_every fun _ => rfl

theorem requireCodecData_aside : requireCodecData.Every Aside := modify_every fun _ => rfl

theorem codecCall_aside : codecCall.Every Aside := learn_every _ Aside.refl

theorem await_aside (ready : ReceiverSession → Bool) : (await ready : Session Unit).Every Aside :=
  fun _ _ _ => ⟨rfl, trivial⟩

theorem lockLifecycle_aside (thread : LifecycleThread) : (lockLifecycle thread).Every Aside :=
  fun _ _ _ => ⟨rfl, trivial⟩

theorem unlockLifecycle_aside : unlockLifecycle.Every Aside := modify_every fun _ => rfl

theorem initializationFailed_aside (connected : Bool) (operation : String) (errorCode : Int) :
    (initializationFailed connected operation errorCode).Every Aside := setState_aside _ _ _ _

/-- A section of `FlushDecoder` or `ReconfigureDecoder`: one of a lifecycle operation, or it is
settled what the call comes to. -/
def PreparationEffect (s t : ReceiverSession) : Prop :=
  LifecycleEffect s t ∨ ∃ prepared, Aside (s.note (.prepared prepared)) t

/-- Programs that change only what is set aside are lifecycle programs. -/
theorem lifecycle_of_aside {p : Session α} (hp : p.Every Aside) : p.Every LifecycleEffect :=
  hp.mono fun _ _ => Aside.effect

theorem clearDecoderQueues_effect : clearDecoderQueues.Every LifecycleEffect :=
  modify_every fun _ => .inr (.inl rfl)

theorem codecStep_effect {effect : ReceiverSession → ReceiverSession}
    (h : ∀ s, LifecycleEffect s (effect s)) : (codecStep effect).Every LifecycleEffect := by
  rw [codecStep, every_critical]
  intro s e
  dsimp only
  split
  · exact h s
  · exact .inl (.refl s)

theorem startCodec_effect : startCodec.Every LifecycleEffect :=
  codecStep_effect fun _ => .inr (.inr ⟨.started, rfl, rfl⟩)

theorem haltCodec_effect : haltCodec.Every LifecycleEffect :=
  modify_every fun _ => .inr (.inr ⟨.halted, rfl, rfl⟩)

theorem flushCodec_effect : flushCodec.Every LifecycleEffect :=
  haltCodec_effect.bind fun _ => fun s _ _ => ⟨.inl (.refl s), trivial⟩

theorem stopCodec_effect : stopCodec.Every LifecycleEffect :=
  haltCodec_effect.bind fun _ => lifecycle_of_aside (await_aside _)

theorem destroyCodec_effect : destroyCodec.Every LifecycleEffect :=
  modify_every fun _ => .inr (.inr ⟨.halted, rfl, rfl⟩)

theorem prepareDecoder_effect (connected : Bool)
    (operations : List (String × (ReceiverSession → ReceiverSession)))
    (h : ∀ o ∈ operations, ∀ s, LifecycleEffect s (o.2 s)) :
    (prepareDecoder connected operations).Every LifecycleEffect := by
  induction operations with
  | nil => exact every_ret _
  | cons operation operations ih =>
    obtain ⟨name, effect⟩ := operation
    unfold prepareDecoder
    refine (codecStep_effect (h _ (List.mem_cons_self ..))).bind fun status => ?_
    split
    · exact (lifecycle_of_aside (initializationFailed_aside _ _ _)).bind fun _ =>
        destroyCodec_effect.bind fun _ => (lifecycle_of_aside (setGate_aside _)).bind fun _ =>
        every_ret _
    · exact ih fun o ho => h o (List.mem_cons_of_mem _ ho)

theorem createDecoderLocked_effect : createDecoderLocked.Every LifecycleEffect := by
  have hread : ∀ s, LifecycleEffect s s := fun s => (Aside.refl s).effect
  have haside {α : Type} {p : Session α} (hp : p.Every Aside) : p.Every LifecycleEffect :=
    lifecycle_of_aside hp
  unfold createDecoderLocked
  refine (load_every _ hread).bind fun connected => (load_every _ hread).bind fun shouldRun => ?_
  split
  · exact (haside (initializationFailed_aside _ _ _)).bind fun _ => every_ret _
  refine (load_every _ hread).bind fun contract => ?_
  split
  · exact (haside (setGate_aside _)).bind fun _ => every_ret _
  refine (haside (setGate_aside _)).bind fun _ =>
    Every.bind ((every_critical _).mpr fun s e => ?_) fun created => ?_
  · dsimp only
    split <;> exact .inl rfl
  split
  · exact (haside (initializationFailed_aside _ _ _)).bind fun _ =>
      (haside (setGate_aside _)).bind fun _ => every_ret _
  refine (prepareDecoder_effect _ _ ?_).bind fun prepared => ?_
  · simp only [List.forall_mem_cons]
    exact ⟨fun _ => .inl rfl, fun _ => .inl rfl, fun _ => .inl rfl, fun _ => .inl rfl,
      fun _ => .inl rfl, fun _ h => by cases h⟩
  split
  · exact every_ret _
  refine (modify_every fun _ => .inl rfl).bind fun _ => (haside (setGate_aside _)).bind fun _ =>
    startCodec_effect.bind fun started => ?_
  split
  · exact (haside (initializationFailed_aside _ _ _)).bind fun _ =>
      (haside (setGate_aside _)).bind fun _ => clearDecoderQueues_effect.bind fun _ =>
      (modify_every fun _ => .inl rfl).bind fun _ => destroyCodec_effect.bind fun _ =>
      (haside (setGate_aside _)).bind fun _ => every_ret _
  · exact (haside requireCodecData_aside).bind fun _ => every_ret _

theorem load_effect (read : ReceiverSession → α) : (load read).Every LifecycleEffect :=
  load_every read fun s => (Aside.refl s).effect

theorem destroyDecoderLocked_effect : destroyDecoderLocked.Every LifecycleEffect := by
  unfold destroyDecoderLocked
  refine (lifecycle_of_aside (setGate_aside _)).bind fun _ => clearDecoderQueues_effect.bind fun _ =>
    Every.bind ((every_critical _).mpr fun _ _ => .inl rfl) fun decoder => ?_
  have hrest : (setGate .stopped >>= fun _ => requireCodecData).Every LifecycleEffect :=
    (lifecycle_of_aside (setGate_aside _)).bind fun _ => lifecycle_of_aside requireCodecData_aside
  split
  · exact stopCodec_effect.bind fun _ => destroyCodec_effect.bind fun _ => hrest
  · exact hrest

theorem restartDecoder_effect : restartDecoder.Every LifecycleEffect :=
  (lifecycle_of_aside (setGate_aside _)).bind fun _ => startCodec_effect.bind fun _ => every_ret _

theorem flushDecoderLocked_effect : flushDecoderLocked.Every LifecycleEffect := by
  have hcreate {b : Bool} : (load (·.lifecycleState.decoderShouldRun) >>= fun shouldRun =>
      if shouldRun then createDecoderLocked else pure b).Every LifecycleEffect := by
    refine (load_effect _).bind fun shouldRun => ?_
    split
    · exact createDecoderLocked_effect
    · exact every_ret _
  unfold flushDecoderLocked
  refine (load_effect _).bind fun decoder => ?_
  split
  · refine (lifecycle_of_aside (setGate_aside _)).bind fun _ =>
      clearDecoderQueues_effect.bind fun _ => flushCodec_effect.bind fun flushed => ?_
    have hafter (restarted : Bool) :
        (if evaluateFlushRecovery (flushed == 0) restarted = .resume then pure true
          else destroyDecoderLocked >>= fun _ => load (·.lifecycleState.decoderShouldRun) >>=
            fun shouldRun => if shouldRun then createDecoderLocked else pure false : Session Bool).Every
          LifecycleEffect := by
      split
      · exact every_ret _
      · exact destroyDecoderLocked_effect.bind fun _ => hcreate
    split
    · exact restartDecoder_effect.bind hafter
    · exact hafter false
  · exact (lifecycle_of_aside (setGate_aside _)).bind fun _ => clearDecoderQueues_effect.bind fun _ =>
      (lifecycle_of_aside (setGate_aside _)).bind fun _ => hcreate

theorem preparation_of_lifecycle {p : Session α} (hp : p.Every LifecycleEffect) :
    p.Every PreparationEffect := hp.mono fun _ _ => .inl

theorem countResync_effect (prepared : Bool) : (countResync prepared).Every PreparationEffect :=
  modify_every fun _ => .inr ⟨prepared, rfl⟩

/-- What both preparations end with. -/
theorem released_effect (prepared : Bool) : (requireCodecData >>= fun _ => unlockLifecycle >>=
    fun _ => countResync prepared >>= fun _ => requestKeyframe >>= fun _ => pure prepared).Every
      PreparationEffect := by
  have haside {α : Type} {p : Session α} (hp : p.Every Aside) : p.Every PreparationEffect :=
    preparation_of_lifecycle (lifecycle_of_aside hp)
  exact (haside requireCodecData_aside).bind fun _ => (haside unlockLifecycle_aside).bind fun _ =>
    (countResync_effect prepared).bind fun _ => (haside requestKeyframe_aside).bind fun _ =>
    every_ret _

theorem flushDecoder_effect : flushDecoder.Every PreparationEffect :=
  (preparation_of_lifecycle (lifecycle_of_aside (lockLifecycle_aside _))).bind fun _ =>
    (preparation_of_lifecycle flushDecoderLocked_effect).bind released_effect

/-- A reconfiguration is a preparation that besides sets the decoder's contract. -/
theorem reconfigureDecoder_every (preparation : ∀ s t, PreparationEffect s t → G s t)
    (contract : ∀ s c, G s { s with decoderMediaContract := c }) (c : Protocol.MediaContract) :
    (reconfigureDecoder c).Every G := by
  have hlifecycle {α : Type} {p : Session α} (hp : p.Every LifecycleEffect) : p.Every G :=
    (preparation_of_lifecycle hp).mono preparation
  have hset (c : Protocol.MediaContract) :
      (ReceiverSession.modify fun s => { s with decoderMediaContract := c }).Every G :=
    modify_every fun s => contract s c
  have hend (prepared : Bool) := (released_effect prepared).mono preparation
  have hafter (previous : Protocol.MediaContract) (prepared : Bool) :
      (if (!prepared) = true then
          (ReceiverSession.modify fun s => { s with decoderMediaContract := previous }) >>= fun _ =>
            requireCodecData >>= fun _ => unlockLifecycle >>= fun _ => countResync prepared >>=
            fun _ => requestKeyframe >>= fun _ => pure prepared
        else requireCodecData >>= fun _ => unlockLifecycle >>= fun _ => countResync prepared >>=
            fun _ => requestKeyframe >>= fun _ => pure prepared : Session Bool).Every G := by
    split
    · exact (hset previous).bind fun _ => hend prepared
    · exact hend prepared
  unfold reconfigureDecoder
  split
  · exact (modify_every fun s => preparation s _ (.inr ⟨false, rfl⟩)).bind fun _ => every_ret _
  refine (hlifecycle (lifecycle_of_aside (lockLifecycle_aside _))).bind fun _ =>
    (hlifecycle (load_effect _)).bind fun previous =>
    (hlifecycle destroyDecoderLocked_effect).bind fun _ => (hset c).bind fun _ =>
    (hlifecycle (load_effect _)).bind fun shouldRun => ?_
  split
  · exact (hlifecycle createDecoderLocked_effect).bind (hafter previous)
  · exact hafter previous true

theorem applyLifecycleDecisionLocked_effect (decision : ReceiverLifecycleDecision) :
    (applyLifecycleDecisionLocked decision).Every LifecycleEffect := by
  unfold applyLifecycleDecisionLocked
  have hstop {q : Session Bool} (hq : q.Every LifecycleEffect) :
      (if decision.stopDecoder = true then destroyDecoderLocked >>= fun _ => q else q).Every
        LifecycleEffect := by
    split
    · exact destroyDecoderLocked_effect.bind fun _ => hq
    · exact hq
  split
  · exact every_ret _
  · split
    · exact hstop (every_ret _)
    · exact hstop createDecoderLocked_effect

theorem onLifecycleEvent_effect (event : LifecycleEvent) :
    (onLifecycleEvent event).Every LifecycleEffect := by
  unfold onLifecycleEvent
  refine (lifecycle_of_aside (lockLifecycle_aside _)).bind fun _ =>
    Every.bind ((every_critical _).mpr fun _ _ => .inl rfl) fun decision =>
    (applyLifecycleDecisionLocked_effect decision).bind fun started =>
    (lifecycle_of_aside unlockLifecycle_aside).bind fun _ => ?_
  split
  · exact every_ret _
  · exact every_ret _
  · split
    · exact lifecycle_of_aside requestKeyframe_aside
    · exact every_ret _

theorem decoderError_aside (errorCode : Int) : (decoderError errorCode).Every Aside :=
  (load_every _ Aside.refl).bind fun _ => setState_aside _ _ _ _

theorem decoderOutput_aside (decoder : Nat) (shown : Bool) (captureUs : Int) :
    (decoderOutput decoder shown captureUs).Every Aside := by
  unfold decoderOutput
  refine (load_every _ Aside.refl).bind fun allowed => ?_
  split
  · exact every_ret _
  refine codecCall_aside.bind fun rendered => ?_
  split
  · exact every_ret _
  refine Every.bind ((every_critical _).mpr fun _ _ => rfl) fun decoded => ?_
  have hpush : (critical fun (e : External) (s : ReceiverSession) =>
      ((), s.pushTelemetry (s.telemetryText captureUs e.now decoded))).Every Aside :=
    (every_critical _).mpr fun _ _ => rfl
  split
  · exact (setState_aside _ _ _ _).bind fun _ => hpush
  · exact hpush

theorem stop_aside : ReceiverSession.stop.Every Aside :=
  have hmodify {f : ReceiverSession → ReceiverSession} (hf : ∀ s, Aside s (f s)) :
      (ReceiverSession.modify f).Every Aside := modify_every hf
  (hmodify fun _ => rfl).bind fun _ => closeControlSocket_aside.bind fun _ =>
    (await_aside _).bind fun _ => (hmodify fun _ => rfl).bind fun _ =>
    (hmodify fun _ => rfl).bind fun _ => setState_aside _ _ _ _

/-- What a section of the user interface's thread does to the pairing. -/
inductive UiEffect (s : ReceiverSession) : ReceiverSession → Prop where
  | aside (h : Aside s t) : UiEffect s t
  | identify (deviceId : Bytes) (h : Aside { s with deviceId := deviceId } t) : UiEffect s t
  | trust (deviceId senderId credential : Bytes) (version : UInt64)
      (h : Aside { s with
        deviceId := deviceId, trustedSenderId := senderId, trustedCredential := credential,
        pairingRecordVersion := version } t) : UiEffect s t
  | grant (sessionId token shortCode : Bytes) (expiresAt : Int)
      (kind : sessionId = [] ∨ shortCode = []) (h : Aside { s with
        pendingSessionId := sessionId, pendingToken := token, pendingShortCode := shortCode,
        pairingExpiresAt := expiresAt, log := s.log ++ [.granted] } t) : UiEffect s t
  | forget (h : Aside { s with
        trustedSenderId := [], trustedCredential := [], pendingSessionId := [], pendingToken := [],
        pendingShortCode := [], pairingRecordVersion := s.pairingRecordVersion + 1 } t) :
      UiEffect s t

theorem ui_of_aside {p : Session α} (hp : p.Every Aside) : p.Every UiEffect :=
  hp.mono fun _ _ => UiEffect.aside

theorem generateDeviceId_effect : generateDeviceId.Every UiEffect := by
  unfold generateDeviceId
  refine Every.bind ((every_critical _).mpr fun s _ => .aside (.refl s)) fun generated => ?_
  have hlast : (critical fun (_ : External) (s : ReceiverSession) =>
      if s.deviceId = [] then (false, { s with
          state := "error", detail := "无法生成设备身份", listening := false, connected := false })
      else (true, s)).Every UiEffect := by
    rw [every_critical]
    intro s _
    split <;> exact .aside rfl
  split
  · refine (modify_every fun s => ?_).bind fun _ => hlast
    split
    · exact .identify generated rfl
    · exact .aside rfl
  · exact hlast

theorem start_effect : start.Every UiEffect := by
  unfold start
  refine (learn_every _ fun s => .aside (.refl s)).bind fun current => ?_
  split
  · exact ui_of_aside (setState_aside _ _ _ _)
  refine (ui_of_aside stop_aside).bind fun _ => generateDeviceId_effect.bind fun identified => ?_
  split
  · exact every_ret _
  exact (modify_every fun _ => .aside rfl).bind fun _ => (modify_every fun _ => .aside rfl).bind fun _ =>
    (ui_of_aside (setState_aside _ _ _ _)).bind fun _ => modify_every fun _ => .aside rfl

theorem configureTrust_effect (deviceId senderId credential : Bytes) (version : UInt64) :
    (configureTrust deviceId senderId credential version).Every UiEffect := by
  unfold configureTrust
  split
  · exact every_ret _
  · rw [every_critical]
    exact fun _ _ => .trust deviceId senderId credential version rfl

theorem authorizeQr_effect (sessionId token : Bytes) (expiresAtMs : Int) :
    (authorizeQr sessionId token expiresAtMs).Every UiEffect := by
  unfold authorizeQr
  rw [every_critical]
  intro s e
  dsimp only
  split
  · exact .aside rfl
  · exact .grant sessionId token [] _ (.inr rfl) rfl

theorem authorizeShortCode_effect (shortCode : Bytes) :
    (authorizeShortCode shortCode).Every UiEffect := by
  unfold authorizeShortCode
  split
  · exact every_ret _
  · rw [every_critical]
    exact fun _ _ => .grant [] [] shortCode _ (.inl rfl) rfl

theorem forgetDevice_effect : forgetDevice.Every UiEffect :=
  (modify_every fun _ => .forget rfl).bind fun _ => ui_of_aside closeControlSocket_aside

/-- The critical section of `DecoderNeedInput` for an admitted slot. -/
def admitSlot (decoder : Nat) (slot : InputSlot) (s : ReceiverSession) : ReceiverSession :=
  pumpDecoderLocked decoder
    { s with inputSlots := s.inputSlots ++ [slot], log := s.log ++ [.admitted slot] }

/-- What a section of any thread but the network's does. -/
inductive OtherEffect (s : ReceiverSession) : ReceiverSession → Prop where
  | lifecycle (h : LifecycleEffect s t) : OtherEffect s t
  | ui (h : UiEffect s t) : OtherEffect s t
  | needInput (decoder : Nat) (slot : InputSlot) (running : s.callbacksAllowed = true)
      (current : s.decoder = some decoder) : OtherEffect s (admitSlot decoder slot s)

theorem decoderNeedInput_effect (decoder : Nat) (slot : InputSlot) :
    (decoderNeedInput decoder slot).Every OtherEffect := by
  unfold decoderNeedInput
  refine (load_every _ fun s => .lifecycle (Aside.refl s).effect).bind fun allowed => ?_
  split
  · exact every_ret _
  · refine modify_every fun s => ?_
    split
    · exact .lifecycle (Aside.refl s).effect
    · rename_i h
      simp only [Bool.or_eq_true, Bool.not_eq_true', bne_iff_ne, not_or, Bool.not_eq_false,
        ne_eq, not_not] at h
      exact .needInput decoder slot h.1 h.2

theorem ignored {p : Session α} (hp : p.Every G) : (p >>= fun _ => .ret ()).Every G :=
  hp.bind fun _ => every_ret _

/-- Whatever a thread other than the network's is asked to do, its sections are these. -/
theorem spawn_effect (thread : Thread) (job : Job) (h : thread ≠ .network) :
    (spawn thread job).Every OtherEffect := by
  have hui {p : Session Unit} (hp : p.Every UiEffect) : p.Every OtherEffect :=
    hp.mono fun _ _ => .ui
  have haside {p : Session Unit} (hp : p.Every Aside) : p.Every OtherEffect :=
    hp.mono fun _ _ h => .lifecycle h.effect
  unfold spawn
  split
  · rename_i hjob
    cases job with
    | network turns => cases thread <;> simp [Job.isOf] at hjob h
    | start => exact hui start_effect
    | stop => exact haside stop_aside
    | configureTrust => exact hui (ignored (configureTrust_effect _ _ _ _))
    | authorizeQr => exact hui (ignored (authorizeQr_effect _ _ _))
    | authorizeShortCode => exact hui (ignored (authorizeShortCode_effect _))
    | forgetDevice => exact hui forgetDevice_effect
    | lifecycle event => exact (onLifecycleEvent_effect event).mono fun _ _ => .lifecycle
    | needInput decoder slot => exact decoderNeedInput_effect decoder slot
    | output decoder shown captureUs => exact haside (decoderOutput_aside decoder shown captureUs)
    | error errorCode => exact haside (decoderError_aside errorCode)
  · exact every_ret _

/-- The core without the queues and the log. -/
def outside (s : ReceiverSession) : ReceiverSession :=
  { core s with inputSlots := [], decodeQueue := [], log := [] }

section Pump
variable {slot : InputSlot} {slots : List InputSlot} {frame : DecodedInput}
  {queue : List DecodedInput} {s : ReceiverSession}

/-- The slot and the input are taken. -/
def taken (s : ReceiverSession) (slot : InputSlot) (slots : List InputSlot) (frame : DecodedInput)
    (queue : List DecodedInput) : ReceiverSession :=
  { s with
    inputSlots := slots
    decodeQueue := queue
    log := s.log ++ [.popped slot frame s.decoderRecovery.state] }

/-- The loop stands still, or takes one turn and perhaps goes on. -/
theorem pumpLoop_cons (decoder : Nat) (slot : InputSlot) (slots : List InputSlot)
    (s : ReceiverSession) : pumpLoop decoder (slot :: slots) s = s ∨
      ∃ frame queue, s.decodeQueue = frame :: queue ∧ pumpLoop decoder (slot :: slots) s =
        if (pumpTurn (taken s slot slots frame queue) slot frame).1 then
          pumpLoop decoder slots (pumpTurn (taken s slot slots frame queue) slot frame).2
        else (pumpTurn (taken s slot slots frame queue) slot frame).2 := by
  rw [pumpLoop]
  split
  · exact .inl rfl
  · rename_i frame queue hq
    split
    · refine .inr ⟨frame, queue, hq, ?_⟩
      dsimp only [taken]
      split <;> simp [*]
    · exact .inl rfl

/-- What every turn keeps, the loop keeps. -/
theorem pumpLoop_keeps {G : ReceiverSession → ReceiverSession → Prop} (refl : ∀ s, G s s)
    (trans : ∀ {s t u}, G s t → G t u → G s u)
    (turn : ∀ {s : ReceiverSession} {slot slots frame queue}, s.decodeQueue = frame :: queue →
      G s (pumpTurn (taken s slot slots frame queue) slot frame).2)
    (decoder : Nat) (slots : List InputSlot) (s : ReceiverSession) :
    G s (pumpLoop decoder slots s) := by
  induction slots generalizing s with
  | nil => exact refl s
  | cons slot slots ih =>
    rcases pumpLoop_cons decoder slot slots s with hsame | ⟨frame, queue, hq, hturn⟩
    · rw [hsame]
      exact refl s
    · rw [hturn]
      split
      · exact trans (turn hq) (ih _)
      · exact turn hq

end Pump

/-- An observation of the pump about an input of this queue. -/
inductive PumpObservation (queue : List DecodedInput) : Observation → Prop where
  | popped (slot : InputSlot) (input : DecodedInput) (state : DecoderRecoveryState)
      (h : input ∈ queue) : PumpObservation queue (.popped slot input state)
  | pushed (slot : InputSlot) (input : DecodedInput) (h : input ∈ queue) :
      PumpObservation queue (.pushed slot input)

/-- What the pump does: it takes inputs off the front of the queue, or empties
it, and records what it took and pushed. -/
structure Pumped (s t : ReceiverSession) : Prop where
  outside : outside t = outside s
  queue : t.decodeQueue <:+ s.decodeQueue
  log : ∃ os, t.log = s.log ++ os ∧ ∀ o ∈ os, PumpObservation s.decodeQueue o

theorem Pumped.outside_field (h : Pumped s t) (f : ReceiverSession → α) :
    f (Effects.outside t) = f (Effects.outside s) := congrArg f h.outside

theorem PumpObservation.mono {queue queue' : List DecodedInput} (h : PumpObservation queue o)
    (hq : ∀ input ∈ queue, input ∈ queue') : PumpObservation queue' o := by
  cases h with
  | popped slot input state h => exact .popped slot input state (hq _ h)
  | pushed slot input h => exact .pushed slot input (hq _ h)

theorem Pumped.refl (s : ReceiverSession) : Pumped s s :=
  ⟨rfl, List.suffix_refl _, [], by simp, by simp⟩

theorem Pumped.trans (h : Pumped s t) (k : Pumped t u) : Pumped s u := by
  obtain ⟨os, hlog, hos⟩ := h.log
  obtain ⟨ps, klog, kos⟩ := k.log
  refine ⟨k.outside.trans h.outside, k.queue.trans h.queue, os ++ ps, by simp [klog, hlog], ?_⟩
  intro o ho
  rcases List.mem_append.mp ho with ho | ho
  · exact hos o ho
  · exact (kos o ho).mono fun _ hi => h.queue.subset hi

theorem resync_pumped (s : ReceiverSession) : Pumped s s.resync :=
  ⟨rfl, List.nil_suffix, [], by simp [resync], by simp⟩

/-- One turn of the loop, with the taking of the slot and the input. -/
theorem pumpTurn_pumped {s : ReceiverSession} (slot : InputSlot) (slots : List InputSlot)
    {frame : DecodedInput} {queue : List DecodedInput} (hq : s.decodeQueue = frame :: queue) :
    Pumped s (pumpTurn (taken s slot slots frame queue) slot frame).2 := by
  have htaken {t : ReceiverSession} (ho : outside t = outside s)
      (htq : t.decodeQueue = queue)
      (hlog : t.log = s.log ++ [.popped slot frame s.decoderRecovery.state]) :
      Pumped s t :=
    ⟨ho, by rw [htq, hq]; exact List.suffix_cons _ _, _, hlog, by
      intro o hmem
      rw [List.mem_singleton.mp hmem]
      exact .popped _ _ _ (by simp [hq])⟩
  have hpushed {u : ReceiverSession} (ho : outside u = outside s) (huq : u.decodeQueue = queue)
      (hlog : u.log = s.log ++ [.popped slot frame s.decoderRecovery.state] ++ [.pushed slot frame]) :
      Pumped s u :=
    ⟨ho, by rw [huq, hq]; exact List.suffix_cons _ _, _, by rw [hlog, List.append_assoc], by
      intro o hmem
      rcases List.mem_append.mp hmem with hmem | hmem <;> rw [List.mem_singleton.mp hmem]
      · exact .popped _ _ _ (by simp [hq])
      · exact .pushed _ _ (by simp [hq])⟩
  unfold pumpTurn
  split
  · exact htaken rfl rfl rfl
  · split
    · refine Pumped.trans ?_ (resync_pumped _)
      exact htaken rfl rfl rfl
    · dsimp only
      split
      · exact hpushed rfl rfl rfl
      · refine Pumped.trans ?_ (resync_pumped _)
        exact hpushed rfl rfl rfl

theorem pumpLoop_pumped (decoder : Nat) (slots : List InputSlot) (s : ReceiverSession) :
    Pumped s (pumpLoop decoder slots s) :=
  pumpLoop_keeps .refl .trans (fun hq => pumpTurn_pumped _ _ hq) decoder slots s

theorem pumpDecoderLocked_pumped (decoder : Nat) (s : ReceiverSession) :
    Pumped s (pumpDecoderLocked decoder s) := pumpLoop_pumped decoder s.inputSlots s

/-- What a section of `HandleVideo` does once it has read the active epoch. -/
inductive VideoEffect (epoch : Nat) (s : ReceiverSession) : ReceiverSession → Prop where
  | aside (h : Aside s t) : VideoEffect epoch s t
  | arrived (arrival : Nat) (keyframe : Bool) (state : DecoderRecoveryState) (waiting : Bool) :
      VideoEffect epoch s (s.note (.arrived arrival keyframe state waiting))
  | submit (frame : DecodedInput) (h : frame.epoch = epoch) :
      VideoEffect epoch s (submitFrameLocked frame s)
  | recover (codecData syncFrame : DecodedInput) (h : codecData.epoch = epoch)
      (h' : syncFrame.epoch = epoch) :
      VideoEffect epoch s (submitRecoveryLocked codecData syncFrame s).2

theorem handleVideo_effect (data : Bytes) : ∃ body : Nat → Session Unit,
    handleVideo data = (load (·.activeSourceEpoch) >>= body) ∧
      ∀ epoch, (body epoch).Every (VideoEffect epoch) := by
  refine ⟨_, rfl, fun epoch => ?_⟩
  have hread : ∀ s, VideoEffect epoch s s := fun s => .aside (.refl s)
  have haside {α : Type} {p : Session α} (hp : p.Every Aside) : p.Every (VideoEffect epoch) :=
    hp.mono fun _ _ => .aside
  have hrequest : (ReceiverSession.modify drop >>= fun _ => requestKeyframe).Every
      (VideoEffect epoch) :=
    (haside drop_aside).bind fun _ => haside requestKeyframe_aside
  dsimp only
  split
  · exact haside drop_aside
  split
  · exact haside drop_aside
  rename_i header _ hactive
  have hepoch : header.sourceEpoch = epoch := not_not.mp hactive
  refine Every.bind ((every_critical _).mpr fun _ _ => .aside rfl) fun arrival =>
    (load_every _ hread).bind fun running => ?_
  split
  · exact haside drop_aside
  refine Every.bind ((every_critical _).mpr fun s _ => .arrived arrival _ _ _) fun state => ?_
  split
  · split
    · exact hrequest
    · refine Every.bind ((every_critical _).mpr fun s _ => .recover _ _ hepoch hepoch) fun submitted => ?_
      split
      · exact every_ret _
      · exact haside requestKeyframe_aside
  · split
    · exact hrequest
    · exact modify_every fun s => .submit _ hepoch

/-- An observation of a video section: what the pump takes was queued before or
is of the section's epoch. -/
inductive FeedObservation (epoch : Nat) (queue : List DecodedInput) : Observation → Prop where
  | arrived (arrival : Nat) (keyframe : Bool) (state : DecoderRecoveryState) (waiting : Bool) :
      FeedObservation epoch queue (.arrived arrival keyframe state waiting)
  | recovering (arrival : Nat) (state : DecoderRecoveryState) :
      FeedObservation epoch queue (.recovering arrival state)
  | popped (slot : InputSlot) (input : DecodedInput) (state : DecoderRecoveryState) :
      FeedObservation epoch queue (.popped slot input state)
  | pushed (slot : InputSlot) (input : DecodedInput) (h : input ∈ queue ∨ input.epoch = epoch) :
      FeedObservation epoch queue (.pushed slot input)
  | refused : FeedObservation epoch queue .refused

/-- What a video section does outside the slots: every input it adds is of its epoch. -/
structure Feeds (epoch : Nat) (s t : ReceiverSession) : Prop where
  outside : outside t = outside s
  queue : ∀ input ∈ t.decodeQueue, input ∈ s.decodeQueue ∨ input.epoch = epoch
  log : ∃ os, t.log = s.log ++ os ∧ ∀ o ∈ os, FeedObservation epoch s.decodeQueue o

theorem Feeds.of_aside (h : Aside s t) : Feeds epoch s t :=
  ⟨h.core_field Effects.outside, fun _ hi => .inl (h.decodeQueue ▸ hi), [], by simp [h.log], by simp⟩

theorem Feeds.note {s t : ReceiverSession} (o : Observation) (ho : FeedObservation epoch s.decodeQueue o)
    (houtside : Effects.outside t = Effects.outside s) (hqueue : t.decodeQueue = s.decodeQueue)
    (hlog : t.log = s.log ++ [o]) : Feeds epoch s t :=
  ⟨houtside, fun _ hi => .inl (hqueue ▸ hi), [o], hlog, by simpa using ho⟩

/-- The pump at work on a queue to which only inputs of the epoch were added. -/
theorem Feeds.pump {s u t : ReceiverSession} (hu : Feeds epoch s u) (ht : Pumped u t) :
    Feeds epoch s t := by
  obtain ⟨houtside, hqueue, os, hlog, hos⟩ := hu
  obtain ⟨ps, klog, kos⟩ := ht.log
  refine ⟨ht.outside.trans houtside, fun input hi => hqueue input (ht.queue.subset hi), os ++ ps,
    by simp [klog, hlog], fun o ho => ?_⟩
  rcases List.mem_append.mp ho with ho | ho
  · exact hos o ho
  · cases kos o ho with
    | popped slot input state hi => exact .popped slot input state
    | pushed slot input hi => exact .pushed slot input (hqueue input hi)

theorem submitFrameLocked_feeds (frame : DecodedInput) (s : ReceiverSession) :
    Feeds frame.epoch s (submitFrameLocked frame s) := by
  unfold submitFrameLocked
  split
  · exact .of_aside rfl
  split
  · exact .of_aside rfl
  dsimp only
  split
  · split
    · exact ⟨rfl, fun _ hi => by simp at hi, [.refused], rfl, by simpa using .refused⟩
    · exact ⟨rfl, fun _ hi => .inl hi, [.refused], rfl, by simpa using .refused⟩
  · refine Feeds.pump ?_ (pumpDecoderLocked_pumped _ _)
    split
    · exact ⟨rfl, fun _ hi => .inr (by simp at hi; rw [hi]), [], by simp, by simp⟩
    · refine ⟨rfl, fun input hi => ?_, [], by simp, by simp⟩
      rcases List.mem_append.mp hi with hi | hi
      · exact .inl hi
      · rw [List.mem_singleton.mp hi]
        exact .inr rfl

theorem submitRecoveryLocked_feeds (codecData syncFrame : DecodedInput) (s : ReceiverSession)
    (h : codecData.epoch = epoch) (h' : syncFrame.epoch = epoch) :
    Feeds epoch s (submitRecoveryLocked codecData syncFrame s).2 := by
  have hnote {t : ReceiverSession} (houtside : Effects.outside t = Effects.outside s)
      (hqueue : t.decodeQueue = s.decodeQueue)
      (hlog : t.log = s.log ++ [.recovering codecData.arrival s.decoderRecovery.state]) :
      Feeds epoch s t := .note _ (.recovering _ _) houtside hqueue hlog
  unfold submitRecoveryLocked
  dsimp only
  split
  · exact hnote rfl rfl rfl
  split
  · exact hnote rfl rfl rfl
  · refine Feeds.pump ?_ (pumpDecoderLocked_pumped _ _)
    refine ⟨rfl, fun input hi => .inr ?_, _, rfl, by simpa using .recovering _ _⟩
    rcases List.mem_cons.mp hi with rfl | hi
    · exact h
    · rw [List.mem_singleton.mp hi]
      exact h'

theorem VideoEffect.feeds (h : VideoEffect epoch s t) : Feeds epoch s t := by
  cases h with
  | aside h => exact .of_aside h
  | arrived arrival keyframe state waiting => exact .note _ (.arrived _ _ _ _) rfl rfl rfl
  | submit frame h => exact h ▸ submitFrameLocked_feeds frame s
  | recover codecData syncFrame h h' => exact submitRecoveryLocked_feeds codecData syncFrame s h h'

theorem continueWithCurrentAddress_aside : continueWithCurrentAddress.Every Aside := by
  unfold continueWithCurrentAddress
  refine (learn_every _ Aside.refl).bind fun current => ?_
  split
  · exact every_ret _
  · have hset : (ReceiverSession.modify fun s => { s with desired := false }).Every Aside :=
      modify_every fun _ => rfl
    exact hset.bind fun _ => (setState_aside _ _ _ _).bind fun _ => every_ret _

end HarmonyScreen.Proofs.Effects
