import HarmonyScreen.Proofs.DecoderTrace
import HarmonyScreen.Proofs.Effects

namespace HarmonyScreen.Proofs.DecoderQueue
open Lib Receiver ReceiverSession Effects DecoderTrace

variable {s t u : ReceiverSession} {stage : Stage}

/-- What the lifecycle operations change; the callers of callbacks are kept apart. -/
structure Runtime where
  gate : DecoderLifecycleState
  decoder : Option Nat
  contract : Protocol.MediaContract
  lifecycle : ReceiverLifecycleState
  codec : AvCodec

def runtime (s : ReceiverSession) : Runtime where
  gate := s.decoderCallbackGate
  decoder := s.decoder
  contract := s.decoderMediaContract
  lifecycle := s.lifecycleState
  codec := { s.avCodec with callbacks := [] }

/-- The recovery state admits no more than the stage does. -/
def Agrees (stage : Stage) (state : DecoderRecoveryState) : Prop :=
  (state = .needsSyncFrame → stage = .configured) ∧ (state = .ready → stage = .flowing)

theorem agrees_due (stage : Stage) : Agrees stage .needsCodecData :=
  ⟨fun h => (by cases h), fun h => (by cases h)⟩

theorem agrees_flowing : Agrees .flowing .ready := ⟨fun h => (by cases h), fun _ => rfl⟩

/-- The log goes by the stages, and the codec is started unless its stage is `halted`. -/
def TracedAt (stage : Stage) (s : ReceiverSession) : Prop :=
  stageOf s.log = some stage ∧ (s.avCodec.started = true ↔ stage ≠ .halted)

def Traced (s : ReceiverSession) : Prop := ∃ stage, TracedAt stage s

/-- The log goes by the stages, and the recovery state by the log. -/
def Agreed (s : ReceiverSession) : Prop :=
  ∃ stage, TracedAt stage s ∧ Agrees stage s.decoderRecovery.state

theorem Agreed.traced (h : Agreed s) : Traced s :=
  let ⟨stage, hs, _⟩ := h
  ⟨stage, hs⟩

theorem Traced.agreed (h : Traced s) (hdue : s.decoderRecovery.state = .needsCodecData) :
    Agreed s := by
  obtain ⟨stage, hs⟩ := h
  refine ⟨stage, hs, ?_⟩
  rw [hdue]
  exact agrees_due stage

theorem TracedAt.note {o : Observation} {next : Stage} (h : TracedAt stage s)
    (hl : t.log = s.log ++ [o]) (hc : t.avCodec = s.avCodec) (hstep : stage.step o = some next)
    (hhalted : next = .halted ↔ stage = .halted) : TracedAt next t := by
  refine ⟨?_, ?_⟩
  · rw [hl]
    exact stageOf_note h.1 hstep
  · rw [hc, h.2, ne_eq, ne_eq, hhalted]

theorem TracedAt.keep (h : TracedAt stage s) (hl : t.log = s.log) (hc : t.avCodec = s.avCodec) :
    TracedAt stage t := by
  refine ⟨?_, ?_⟩
  · rw [hl]
    exact h.1
  · rw [hc]
    exact h.2

/-- What the sections under `decoder_queue_mutex_` do: the pump may push, but the rest of
the decoder stays as it is. -/
structure Fed (s t : ReceiverSession) : Prop where
  runtime : runtime t = runtime s
  mutex : t.lifecycleMutex = s.lifecycleMutex
  codec : t.avCodec = s.avCodec
  agreed : Agreed s → Agreed t

theorem Fed.refl (s : ReceiverSession) : Fed s s := ⟨rfl, rfl, rfl, id⟩

theorem Fed.trans (h : Fed s t) (h' : Fed t u) : Fed s u where
  runtime := h'.runtime.trans h.runtime
  mutex := h'.mutex.trans h.mutex
  codec := h'.codec.trans h.codec
  agreed hs := h'.agreed (h.agreed hs)

/-- What is set aside here: the queues, counters, texts and the request for a keyframe. -/
theorem Fed.aside (hr : DecoderQueue.runtime t = DecoderQueue.runtime s)
    (hm : t.lifecycleMutex = s.lifecycleMutex) (hc : t.avCodec = s.avCodec) (hl : t.log = s.log)
    (hs : t.decoderRecovery.state = s.decoderRecovery.state) : Fed s t where
  runtime := hr
  mutex := hm
  codec := hc
  agreed := by
    rintro ⟨stage, htraced, hagrees⟩
    refine ⟨stage, htraced.keep hl hc, ?_⟩
    rw [hs]
    exact hagrees

/-- An observation that the stages pass over. -/
theorem Fed.note (o : Observation) (ho : ∀ stage : Stage, stage.step o = some stage)
    (hr : DecoderQueue.runtime t = DecoderQueue.runtime s)
    (hm : t.lifecycleMutex = s.lifecycleMutex) (hc : t.avCodec = s.avCodec)
    (hl : t.log = s.log ++ [o]) (hs : t.decoderRecovery.state = s.decoderRecovery.state) :
    Fed s t where
  runtime := hr
  mutex := hm
  codec := hc
  agreed := by
    rintro ⟨stage, htraced, hagrees⟩
    refine ⟨stage, htraced.note hl hc (ho stage) Iff.rfl, ?_⟩
    rw [hs]
    exact hagrees

/-- An input that is not admitted, or refused: from here on codec data is due. -/
theorem Fed.reopen (o : Observation) (ho : ∀ stage : Stage, stage.step o = some stage.reopen)
    (hr : DecoderQueue.runtime t = DecoderQueue.runtime s)
    (hm : t.lifecycleMutex = s.lifecycleMutex) (hc : t.avCodec = s.avCodec)
    (hl : t.log = s.log ++ [o]) (hs : t.decoderRecovery.state = .needsCodecData) : Fed s t where
  runtime := hr
  mutex := hm
  codec := hc
  agreed := by
    rintro ⟨stage, htraced, -⟩
    have hhalted : stage.reopen = .halted ↔ stage = .halted := by cases stage <;> decide
    refine ⟨stage.reopen, htraced.note hl hc (ho stage) hhalted, ?_⟩
    rw [hs]
    exact agrees_due _

/-- What the recovery state admits, the stage takes; both go on alike. -/
theorem agrees_push {state : DecoderRecoveryState} {kind : DecoderInputKind}
    (h : Agrees stage state) (hrunning : stage ≠ .halted)
    (hallowed : decoderInputAllowed state kind = true) :
    ∃ next, stage.push kind = some next ∧ next ≠ .halted ∧
      Agrees next (advanceDecoderRecovery state kind true) := by
  cases state with
  | needsCodecData =>
    cases kind <;> cases hallowed
    refine ⟨.configured, ?_, by decide, fun _ => rfl, fun h => (by cases h)⟩
    cases stage <;> first | rfl | exact absurd rfl hrunning
  | needsSyncFrame =>
    obtain rfl := h.1 rfl
    cases kind <;> cases hallowed
    exact ⟨.flowing, rfl, by decide, agrees_flowing⟩
  | ready =>
    obtain rfl := h.2 rfl
    cases kind <;> cases hallowed
    · exact ⟨.flowing, rfl, by decide, agrees_flowing⟩
    · exact ⟨.flowing, rfl, by decide, agrees_flowing⟩

section Pump
variable {slot : InputSlot} {slots : List InputSlot} {frame : DecodedInput}
  {queue : List DecodedInput}

/-- A push, successful or not. -/
theorem pushed_fed (hstarted : s.avCodec.started = true)
    (hallowed : s.decoderRecovery.inputAllowed frame.kind = true)
    (hfits : slot.fits frame.bytes.length = true) :
    Fed s { taken s slot slots frame queue with
      decoderRecovery := s.decoderRecovery.onInputSubmitted frame.kind slot.pushes
      log := (taken s slot slots frame queue).log ++ [.pushed slot frame] } where
  runtime := rfl
  mutex := rfl
  codec := rfl
  agreed := by
    rintro ⟨stage, htraced, hagrees⟩
    have hrunning : stage ≠ .halted := htraced.2.mp hstarted
    have hpopped : stage.step (.popped slot frame s.decoderRecovery.state) = some stage := by
      simp [Stage.step, oversized, hfits]
    have htaken : TracedAt stage (taken s slot slots frame queue) :=
      htraced.note rfl rfl hpopped Iff.rfl
    cases hpushes : slot.pushes with
    | true =>
      obtain ⟨next, hnext, hgoes, hagree⟩ := agrees_push hagrees hrunning hallowed
      have hstep : stage.step (.pushed slot frame) = some next := by
        simp [Stage.step, hrunning, hpushes, hnext]
      exact ⟨next, htaken.note rfl rfl hstep (by simp [hgoes, hrunning]), hagree⟩
    | false =>
      have hstep : stage.step (.pushed slot frame) = some .opened := by
        simp [Stage.step, hrunning, hpushes]
      exact ⟨.opened, htaken.note rfl rfl hstep (by simp [hrunning]), agrees_due _⟩

theorem resync_fed (s : ReceiverSession) : Fed s s.resync := .aside rfl rfl rfl rfl rfl

/-- One turn of the pump, with the taking of the slot and the input. -/
theorem pumpTurn_fed (hstarted : s.avCodec.started = true) :
    Fed s (pumpTurn (taken s slot slots frame queue) slot frame).2 := by
  unfold pumpTurn
  split
  · rename_i hno
    refine .note (.popped slot frame s.decoderRecovery.state) (fun stage => ?_) rfl rfl rfl rfl rfl
    have hnot : decoderInputAllowed s.decoderRecovery.state frame.kind = false := by
      simpa [DecoderRecoveryCoordinator.inputAllowed, taken] using hno
    simp [Stage.step, oversized, hnot]
  · rename_i hallowed
    have hallowed' : decoderInputAllowed s.decoderRecovery.state frame.kind = true := by
      simpa [DecoderRecoveryCoordinator.inputAllowed, taken] using hallowed
    split
    · rename_i hlarge
      refine Fed.trans ?_ (resync_fed _)
      refine .reopen (.popped slot frame s.decoderRecovery.state) (fun stage => ?_)
        rfl rfl rfl rfl rfl
      have hsmall : slot.fits frame.bytes.length = false := by simpa using hlarge
      simp [Stage.step, oversized, hallowed', hsmall]
    · rename_i hfits
      have hfit : slot.fits frame.bytes.length = true := by simpa using hfits
      have hpush : Fed s { taken s slot slots frame queue with
          decoderRecovery := s.decoderRecovery.onInputSubmitted frame.kind slot.pushes
          log := (taken s slot slots frame queue).log ++ [.pushed slot frame] } :=
        pushed_fed hstarted hallowed' hfit
      dsimp only
      split
      · exact hpush
      · exact hpush.trans (resync_fed _)

theorem pumpTurn_slots : (pumpTurn s slot frame).2.inputSlots = s.inputSlots := by
  unfold pumpTurn
  split
  · rfl
  · split
    · rfl
    · dsimp only
      split <;> rfl

end Pump

theorem pumpLoop_fed (decoder : Nat) (slots : List InputSlot)
    (hstarted : slots ≠ [] → s.avCodec.started = true) : Fed s (pumpLoop decoder slots s) := by
  cases slots with
  | nil => exact .refl s
  | cons slot slots =>
    refine pumpLoop_keeps (G := fun s t => s.avCodec.started = true → Fed s t) (fun s _ => .refl s)
      (fun h h' hs => (h hs).trans (h' ?_)) (fun _ hs => pumpTurn_fed hs) decoder (slot :: slots) s
      (hstarted (by simp))
    rw [(h hs).codec]
    exact hs

/-- The pump only takes slots from the front. -/
theorem pumpLoop_slots (decoder : Nat) (slots : List InputSlot) (h : s.inputSlots = slots) :
    (pumpLoop decoder slots s).inputSlots <:+ slots := by
  induction slots generalizing s with
  | nil => simp [pumpLoop, h]
  | cons slot slots ih =>
    rcases pumpLoop_cons decoder slot slots s with hsame | ⟨frame, queue, -, hturn⟩
    · rw [hsame]
      exact h ▸ List.suffix_rfl
    · have hslots : (pumpTurn (taken s slot slots frame queue) slot frame).2.inputSlots = slots :=
        pumpTurn_slots
      rw [hturn]
      split
      · exact (ih hslots).trans (List.suffix_cons _ _)
      · rw [hslots]
        exact List.suffix_cons _ _

theorem pumpTurn_queue : (pumpTurn s slot frame).2.decodeQueue <:+ s.decodeQueue := by
  unfold pumpTurn
  split
  · exact List.suffix_rfl
  · split
    · exact List.nil_suffix
    · dsimp only
      split
      · exact List.suffix_rfl
      · exact List.nil_suffix

/-- It only takes inputs from the front, or all of them. -/
theorem pumpLoop_queue (decoder : Nat) (slots : List InputSlot) :
    (pumpLoop decoder slots s).decodeQueue <:+ s.decodeQueue :=
  pumpLoop_keeps (G := fun s t => t.decodeQueue <:+ s.decodeQueue) (fun _ => List.suffix_rfl)
    (fun h h' => h'.trans h)
    (fun hq => hq ▸ (pumpTurn_queue.trans (List.suffix_cons _ _))) decoder slots s

/-- Without an input there is nothing to pump. -/
theorem pumpLoop_empty (decoder : Nat) (slots : List InputSlot) (h : s.decodeQueue = []) :
    pumpLoop decoder slots s = s := by
  cases slots with
  | nil => rfl
  | cons slot slots =>
    unfold pumpLoop
    rw [h]

/-- Codec data is due. -/
def DueData (s : ReceiverSession) : Prop := s.decoderRecovery.state = .needsCodecData

/-- A section of `HandleVideo`. -/
structure Feeding (s t : ReceiverSession) : Prop extends Fed s t where
  closed : s.callbacksAllowed = false → Traced s → Traced t
  slots : t.inputSlots <:+ s.inputSlots
  due : s.inputSlots = [] → DueData s → DueData t

/-- What a section of `HandleVideo` sets aside. -/
theorem Feeding.aside (hr : DecoderQueue.runtime t = DecoderQueue.runtime s)
    (hm : t.lifecycleMutex = s.lifecycleMutex) (hc : t.avCodec = s.avCodec) (hl : t.log = s.log)
    (hs : t.decoderRecovery.state = s.decoderRecovery.state) (hi : t.inputSlots = s.inputSlots) :
    Feeding s t where
  toFed := .aside hr hm hc hl hs
  closed := by
    rintro - ⟨stage, htraced⟩
    exact ⟨stage, htraced.keep hl hc⟩
  slots := hi ▸ List.suffix_rfl
  due _ hdue := hs.trans hdue

theorem Feeding.note (o : Observation) (ho : ∀ stage : Stage, stage.step o = some stage)
    (s : ReceiverSession) : Feeding s (s.note o) where
  toFed := .note o ho rfl rfl rfl rfl rfl
  closed := by
    rintro - ⟨stage, htraced⟩
    exact ⟨stage, htraced.note rfl rfl (ho stage) Iff.rfl⟩
  slots := List.suffix_rfl
  due _ hdue := hdue

theorem Feeding.trans (h : Feeding s t) (h' : Feeding t u) : Feeding s u where
  toFed := h.toFed.trans h'.toFed
  closed hs ht := by
    have hgate : t.callbacksAllowed = false := by
      rw [callbacksAllowed, show t.decoderCallbackGate = s.decoderCallbackGate from
        congrArg Runtime.gate h.runtime]
      exact hs
    exact h'.closed hgate (h.closed hs ht)
  slots := h'.slots.trans h.slots
  due hs hdue := h'.due (List.suffix_nil.mp (hs ▸ h.slots)) (h.due hs hdue)

/-- The pump on a session to whose queue something was added while the gate is open. -/
theorem pump_feeding {decoder : Nat} (h : Fed s t) (hi : t.inputSlots = s.inputSlots)
    (hgate : s.callbacksAllowed = true) (hd : t.decoderRecovery.state = s.decoderRecovery.state)
    (hstarted : s.inputSlots ≠ [] → s.avCodec.started = true) :
    Feeding s (pumpDecoderLocked decoder t) where
  toFed := h.trans (pumpLoop_fed decoder _ fun hslots => by
    rw [h.codec]
    exact hstarted (hi ▸ hslots))
  closed hclosed := by
    rw [hgate] at hclosed
    cases hclosed
  slots := hi ▸ pumpLoop_slots decoder t.inputSlots rfl
  due hnone hdue := by
    rw [pumpDecoderLocked, hi, hnone]
    exact hd.trans hdue

theorem submitFrameLocked_feeding (frame : DecodedInput)
    (hstarted : s.inputSlots ≠ [] → s.avCodec.started = true) :
    Feeding s (submitFrameLocked frame s) := by
  unfold submitFrameLocked
  split
  · exact .aside rfl rfl rfl rfl rfl rfl
  split
  · exact .aside rfl rfl rfl rfl rfl rfl
  · rename_i hopen
    have hgate : s.callbacksAllowed = true := by
      simp only [Bool.or_eq_true, Bool.not_eq_true', not_or, Bool.not_eq_false] at hopen
      exact hopen.1
    by_cases hroom : s.decodeQueue.length < 3
    · simp only [DecoderRecoveryCoordinator.admitQueued, evaluateDecodeQueueAdmission, if_pos hroom]
      exact pump_feeding (.aside rfl rfl rfl rfl rfl) rfl hgate rfl hstarted
    · simp only [DecoderRecoveryCoordinator.admitQueued, evaluateDecodeQueueAdmission, if_neg hroom]
      refine ⟨.reopen .refused (fun _ => rfl) rfl rfl rfl rfl rfl, fun hclosed => ?_,
        List.suffix_rfl, fun _ _ => rfl⟩
      rw [hgate] at hclosed
      cases hclosed

theorem submitRecoveryLocked_feeding (codecData syncFrame : DecodedInput)
    (hstarted : s.inputSlots ≠ [] → s.avCodec.started = true) :
    Feeding s (submitRecoveryLocked codecData syncFrame s).2 := by
  have hnote : Feeding s (s.note (.recovering codecData.arrival s.decoderRecovery.state)) :=
    .note _ (fun _ => rfl) s
  unfold submitRecoveryLocked
  dsimp only
  split
  · exact hnote.trans (.aside rfl rfl rfl rfl rfl rfl)
  split
  · exact hnote.trans (.aside rfl rfl rfl rfl rfl rfl)
  · rename_i hopen
    have hgate : s.callbacksAllowed = true := by
      simp only [Bool.or_eq_true, Bool.not_eq_true', not_or, Bool.not_eq_false] at hopen
      exact hopen.1.1.1.1.1
    exact pump_feeding (hnote.toFed.trans (.aside rfl rfl rfl rfl rfl)) rfl hgate rfl hstarted

/-- The locked section of `DecoderNeedInput`. -/
def needInputLocked (decoder : Nat) (slot : InputSlot) (s : ReceiverSession) : ReceiverSession :=
  if !s.callbacksAllowed || s.decoder != some decoder then s
  else admitSlot decoder slot s

/-- A slot that is admitted while the codec is started. -/
theorem admitSlot_fed (decoder : Nat) (slot : InputSlot) (hstarted : s.avCodec.started = true) :
    Fed s (admitSlot decoder slot s) := by
  have hadmitted : Fed s { s with
      inputSlots := s.inputSlots ++ [slot], log := s.log ++ [.admitted slot] } :=
    .note (.admitted slot) (fun _ => rfl) rfl rfl rfl rfl rfl
  exact hadmitted.trans (pumpLoop_fed decoder _ fun _ => hstarted)

/-- With an empty queue nothing is pushed, whatever the recovery state. -/
theorem admitSlot_empty (decoder : Nat) (slot : InputSlot) (hqueue : s.decodeQueue = [])
    (h : Traced s) :
    Traced (admitSlot decoder slot s) ∧ (admitSlot decoder slot s).decodeQueue = [] := by
  have hpump : admitSlot decoder slot s = { s with
      inputSlots := s.inputSlots ++ [slot], log := s.log ++ [.admitted slot] } :=
    pumpLoop_empty decoder _ hqueue
  obtain ⟨stage, htraced⟩ := h
  rw [hpump]
  exact ⟨⟨stage, htraced.note rfl rfl rfl Iff.rfl⟩, hqueue⟩

end HarmonyScreen.Proofs.DecoderQueue
