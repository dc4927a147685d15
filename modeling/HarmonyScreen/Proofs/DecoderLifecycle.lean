import HarmonyScreen.Proofs.DecoderDiscipline

namespace HarmonyScreen.Proofs.DecoderLifecycle
open Lib Program Receiver ReceiverSession DecoderSystem Protocol DecoderTrace DecoderQueue
  DecoderDiscipline

variable {M : Bool} {s t : ReceiverSession} {o : LifecycleThread} {r r' : Runtime} {k k' : Known}

theorem outline_modify {f : ReceiverSession → ReceiverSession} (hk : k.Fits o r)
    (hk' : k'.Fits o r')
    (h : ∀ s, Sane s → Holds o r k s → Owned s (f s) ∧ Holds o r' k' (f s)) :
    (discipline M).Outline (ofThread o) (Holds o r k) (modify f) (fun _ => Holds o r' k') :=
  .weaken (outline_owned (A := fun _ => True) (T := fun _ => r') (K := fun _ => k') hk
    (fun _ => hk') fun _ s hs hp _ => ⟨trivial, h s hs hp⟩) (fun _ _ h => h) fun _ _ _ h => h.2

/-- What a read answers when the runtime determines it. -/
theorem outline_load {f : α → Session β} {Q : β → ReceiverSession → Prop}
    {read : ReceiverSession → α} {x : α} (hk : k.Fits o r) (hread : ∀ s, runtime s = r → read s = x)
    (hf : (discipline M).Outline (ofThread o) (Holds o r k) (f x) Q) :
    (discipline M).Outline (ofThread o) (Holds o r k) (load read >>= f) Q := by
  refine .bind (outline_owned (A := fun a => a = x) (T := fun _ => r) (K := fun _ => k) hk
    (fun _ => hk) fun _ s hs hp _ => ⟨hread s hp.runtime, .refl hs, hp⟩) fun a => .when ?_
  rintro rfl
  exact hf

/-- Sections with the gate closed. -/
theorem owned_closed (htraced : Traced t) (hgate : t.decoderCallbackGate ≠ .running)
    (hslots : t.inputSlots ≠ [] → t.avCodec.started = true)
    (hqueue : t.decodeQueue <:+ s.decodeQueue) (hcallbacks : t.avCodec.callbacks =
      s.avCodec.callbacks) : Owned s t := by
  have hclosed : t.callbacksAllowed ≠ true := by
    simpa [callbacksAllowed, decoderCallbacksAllowed] using hgate
  exact ⟨⟨htraced, fun h => absurd h hclosed, hslots, fun h => absurd h hclosed⟩, hqueue,
    fun n => by rw [hcallbacks]⟩

theorem setGate_closed {g : DecoderLifecycleState} (hg : g ≠ .running) (hk : k.Fits o r) :
    (discipline M).Outline (ofThread o) (Holds o r k) (setGate g)
      (fun _ => Holds o { r with gate := g } k) := by
  refine outline_modify hk (hk.gate hg) fun s hs hp => ⟨?_, ?_⟩
  · exact owned_closed hs.traced hg hs.slots List.suffix_rfl rfl
  · exact { hp with runtime := congrArg (fun r => { r with gate := g }) hp.runtime }

/-- The gate opens before the codec is started: nothing can be pushed that the log does not
allow, since codec data is due or the queue is empty. -/
theorem setGate_running (hk : k.Fits o r) (hcallbacks : k.callbacks = true)
    (hsafe : k.due = true ∨ k.queue = true) :
    (discipline M).Outline (ofThread o) (Holds o r k) (setGate .running)
      (fun _ => Holds o { r with gate := .running } k) := by
  have hstopped : r.codec.started = false := hk.callbacks hcallbacks
  refine outline_modify hk ⟨fun _ => .inr (.inr hstopped), hk.due, hk.callbacks, hk.queue⟩
    fun s hs hp => ⟨?_, ?_⟩
  · refine ⟨⟨hs.traced, fun _ => ?_, hs.slots, fun _ hc => absurd (hp.callbacks hcallbacks) hc⟩,
      List.suffix_rfl, fun _ => Iff.rfl⟩
    rcases hsafe with hdue | hqueue
    · exact .inl (hs.traced.agreed (hp.due hdue))
    · exact .inr ⟨hk.queue hqueue ▸ hp.mutex, hp.queue hqueue⟩
  · exact { hp with runtime := congrArg (fun r => { r with gate := .running }) hp.runtime }

theorem clearDecoderQueues_outline (hk : k.Fits o r) (hg : r.gate ≠ .running) :
    (discipline M).Outline (ofThread o) (Holds o r k) clearDecoderQueues
      (fun _ => Holds o r { k with slots := true, queue := o == .network }) := by
  refine outline_modify hk ⟨fun _ => .inl hg, fun _ => rfl, hk.callbacks, fun h => by simpa using h⟩
    fun s hs hp => ⟨?_, ?_⟩
  · obtain ⟨stage, htraced⟩ := hs.traced
    exact owned_closed ⟨stage, htraced.note rfl rfl rfl Iff.rfl⟩ (hp.gate ▸ hg)
      (fun h => absurd rfl h) List.nil_suffix rfl
  · have hfed : Fed s { s with inputSlots := [], decodeQueue := [], log := s.log ++ [.cleared] } :=
      .note .cleared (fun _ => rfl) rfl rfl rfl rfl rfl
    exact { hp with
      slots := fun _ => rfl
      queue := fun _ => rfl
      agreed := fun ha => hfed.agreed (hp.agreed ha) }

/-- The codec is asked to stop; a push cannot come any more. -/
theorem haltCodec_outline (hk : k.Fits o r) (hg : r.gate ≠ .running) (hslots : k.slots = true) :
    (discipline M).Outline (ofThread o) (Holds o r k) haltCodec
      (fun _ => Holds o { r with codec := { r.codec with started := false } }
        { k with agreed := false }) := by
  refine outline_modify hk ⟨fun _ => .inl hg, hk.due, fun _ => rfl, hk.queue⟩
    fun s hs hp => ⟨?_, ?_⟩
  · obtain ⟨stage, htraced⟩ := hs.traced
    refine owned_closed ⟨.halted, stageOf_note htraced.1 rfl, by simp⟩ (hp.gate ▸ hg)
      (fun h => absurd (hp.slots hslots) h) List.suffix_rfl rfl
  · exact { hp with
      runtime := congrArg (fun r => { r with codec := { r.codec with started := false } }) hp.runtime
      agreed := fun h => by cases h }

/-- The callbacks of a codec that is not started return and do not come back. -/
theorem callbacksReturned_outline {v : External → α} {A : α → Prop} (hk : k.Fits o r)
    (hstopped : r.codec.started = false) (hv : ∀ e, Offered M e → A (v e)) :
    (discipline M).Outline (ofThread o) (Holds o r k)
      (.atomic callbacksReturned (fun _ s => s) (fun e _ => .ret (v e)))
      (fun a s => A a ∧ Holds o r { k with callbacks := true } s) := by
  have hk' : Known.Fits o r { k with callbacks := true } :=
    ⟨hk.quiet, hk.due, fun _ => hstopped, hk.queue⟩
  refine .atomic (Holds.stable hk) fun e s hi hp he hready => ⟨hi, fun j _ => (discipline M).refl j s,
    fun t ht hit => ⟨hv e he, Holds.stable hk' s t ?_ ht hit⟩⟩
  exact { hp with callbacks := fun _ => by simpa [callbacksReturned] using hready }

/-- Knowledge about a codec that was halted. -/
theorem halted_fits (hk : k.Fits o r) (hg : r.gate ≠ .running) :
    Known.Fits o { r with codec := { r.codec with started := false } } { k with agreed := false } :=
  ⟨fun _ => .inl hg, hk.due, fun _ => rfl, hk.queue⟩

theorem stopCodec_outline (hk : k.Fits o r) (hg : r.gate ≠ .running) (hslots : k.slots = true) :
    (discipline M).Outline (ofThread o) (Holds o r k) stopCodec
      (fun _ => Holds o { r with codec := { r.codec with started := false } }
        { k with agreed := false, callbacks := true }) :=
  .bind (haltCodec_outline hk hg hslots) fun _ =>
    .weaken (callbacksReturned_outline (v := fun _ => ()) (A := fun _ => True) (halted_fits hk hg)
      rfl fun _ _ => trivial) (fun _ _ h => h) fun _ _ _ h => h.2

theorem flushCodec_outline (hk : k.Fits o r) (hg : r.gate ≠ .running) (hslots : k.slots = true) :
    (discipline M).Outline (ofThread o) (Holds o r k) flushCodec
      (fun status s => (M = true → status = 0) ∧
        Holds o { r with codec := { r.codec with started := false } }
          { k with agreed := false, callbacks := true } s) :=
  .bind (haltCodec_outline hk hg hslots) fun _ =>
    callbacksReturned_outline (halted_fits hk hg) rfl fun _ he hm => (he hm).1

/-- The codec is destroyed, once its callbacks have returned. -/
theorem destroyCodec_outline (hk : k.Fits o r) (hg : r.gate ≠ .running)
    (hslots : k.slots = true) (hcallbacks : k.callbacks = true) :
    (discipline M).Outline (ofThread o) (Holds o r k) destroyCodec
      (fun _ => Holds o { r with codec := {} } { k with agreed := false }) := by
  refine outline_modify hk ⟨fun _ => .inl hg, hk.due, fun _ => rfl, hk.queue⟩
    fun s hs hp => ⟨?_, ?_⟩
  · obtain ⟨stage, htraced⟩ := hs.traced
    exact owned_closed ⟨.halted, stageOf_note htraced.1 rfl, by simp⟩ (hp.gate ▸ hg)
      (fun h => absurd (hp.slots hslots) h) List.suffix_rfl (hp.callbacks hcallbacks).symm
  · exact { hp with
      runtime := congrArg (fun r => { r with codec := {} }) hp.runtime
      callbacks := fun _ => rfl
      agreed := fun h => by cases h }

/-- What a new codec or one of its settings changes. -/
structure Prepares (s t : ReceiverSession) : Prop where
  gate : t.decoderCallbackGate = s.decoderCallbackGate
  mutex : t.lifecycleMutex = s.lifecycleMutex
  started : t.avCodec.started = s.avCodec.started
  callbacks : t.avCodec.callbacks = s.avCodec.callbacks
  slots : t.inputSlots = s.inputSlots
  queue : t.decodeQueue = s.decodeQueue
  recovery : t.decoderRecovery.state = s.decoderRecovery.state
  log : t.log = s.log

theorem Prepares.refl (s : ReceiverSession) : Prepares s s := ⟨rfl, rfl, rfl, rfl, rfl, rfl, rfl, rfl⟩

theorem Prepares.traced (h : Prepares s t) {stage : Stage} (hs : TracedAt stage s) :
    TracedAt stage t :=
  ⟨h.log ▸ hs.1, h.started ▸ hs.2⟩

theorem Prepares.owned (h : Prepares s t) (hs : Sane s) (hp : Holds o r k s)
    (hg : r.gate ≠ .running) : Owned s t := by
  obtain ⟨stage, htraced⟩ := hs.traced
  exact owned_closed ⟨stage, h.traced htraced⟩ (h.gate ▸ hp.gate ▸ hg)
    (by rw [h.slots, h.started]; exact hs.slots) (h.queue ▸ List.suffix_rfl) h.callbacks

theorem Prepares.holds (h : Prepares s t) (hp : Holds o r k s) (hruntime : runtime t = r') :
    Holds o r' k t where
  mutex := h.mutex.trans hp.mutex
  runtime := hruntime
  slots hk := h.slots.trans (hp.slots hk)
  callbacks hk := h.callbacks.trans (hp.callbacks hk)
  due hk := h.recovery.trans (hp.due hk)
  queue hk := h.queue.trans (hp.queue hk)
  agreed hk := by
    obtain ⟨stage, htraced, hagrees⟩ := hp.agreed hk
    exact ⟨stage, h.traced htraced, h.recovery ▸ hagrees⟩

theorem modify_prepares {f : ReceiverSession → ReceiverSession} (hk : k.Fits o r)
    (hk' : k.Fits o r') (hg : r.gate ≠ .running) (hf : ∀ s, Prepares s (f s))
    (hruntime : ∀ s, runtime s = r → runtime (f s) = r') :
    (discipline M).Outline (ofThread o) (Holds o r k) (modify f) (fun _ => Holds o r' k) :=
  outline_modify hk hk' fun s hs hp =>
    ⟨(hf s).owned hs hp hg, (hf s).holds hp (hruntime s hp.runtime)⟩

theorem setDecoder_outline (decoder : Option Nat) (hk : k.Fits o r) (hg : r.gate ≠ .running) :
    (discipline M).Outline (ofThread o) (Holds o r k)
      (modify fun s => { s with decoder := decoder })
      (fun _ => Holds o { r with decoder := decoder } k) :=
  modify_prepares hk ⟨fun _ => .inl hg, hk.due, hk.callbacks, hk.queue⟩ hg
    (fun _ => ⟨rfl, rfl, rfl, rfl, rfl, rfl, rfl, rfl⟩)
    fun _ h => congrArg (fun r => { r with decoder := decoder }) h

/-- A call of the codec that fails in no run in which every call succeeds. -/
theorem codecStep_outline {effect : ReceiverSession → ReceiverSession}
    (hk : k.Fits o r) (hk' : k'.Fits o r')
    (h : ∀ s, Sane s → Holds o r k s → Owned s (effect s) ∧ Holds o r' k' (effect s)) :
    (discipline M).Outline (ofThread o) (Holds o r k) (codecStep effect)
      (fun status s => status = 0 ∧ Holds o r' k' s ∨
        status ≠ 0 ∧ M = false ∧ Holds o r k s) := by
  refine .weaken (outline_owned (A := fun status => M = true → status = 0)
    (T := fun status => if status = 0 then r' else r)
    (K := fun status => if status = 0 then k' else k) hk ?_ ?_) (fun _ _ h => h) ?_
  · intro status
    by_cases hzero : status = 0
    · simpa only [if_pos hzero] using hk'
    · simpa only [if_neg hzero] using hk
  · intro e s hs hp he
    refine ⟨fun hm => (he hm).1, ?_⟩
    by_cases hzero : e.codecStatus = 0
    · simpa only [if_pos hzero] using h s hs hp
    · simpa only [if_neg hzero] using ⟨Owned.refl hs, hp⟩
  · rintro status s - ⟨hm, hq⟩
    by_cases hzero : status = 0
    · rw [if_pos hzero, if_pos hzero] at hq
      exact .inl ⟨hzero, hq⟩
    · rw [if_neg hzero, if_neg hzero] at hq
      exact .inr ⟨hzero, Bool.eq_false_iff.mpr fun h => hzero (hm h), hq⟩

/-- The codec starts: the log goes on from there, with codec data due. -/
theorem startCodec_outline (hk : k.Fits o r) (hsafe : k.due = true ∨ k.queue = true) :
    (discipline M).Outline (ofThread o) (Holds o r k) startCodec
      (fun status s =>
        status = 0 ∧ Holds o { r with codec := { r.codec with started := true } }
          { agreed := k.due, queue := k.queue } s ∨
        status ≠ 0 ∧ M = false ∧ Holds o r k s) := by
  refine codecStep_outline hk ⟨fun h => (by cases h), fun h => (by cases h),
    fun h => (by cases h), hk.queue⟩ fun s hs hp => ?_
  obtain ⟨stage, htraced⟩ := hs.traced
  let t : ReceiverSession :=
    { s with avCodec := { s.avCodec with started := true }, log := s.log ++ [.started] }
  have hopened : TracedAt .opened t := ⟨stageOf_note htraced.1 rfl, by simp [t]⟩
  have hagreed : k.due = true → Agreed t := fun hd => Traced.agreed ⟨_, hopened⟩ (hp.due hd)
  refine ⟨⟨⟨⟨_, hopened⟩, fun _ => ?_, fun _ => rfl, fun _ _ => rfl⟩, List.suffix_rfl,
    fun _ => Iff.rfl⟩, ?_⟩
  · exact hsafe.imp hagreed fun hq => ⟨hk.queue hq ▸ hp.mutex, hp.queue hq⟩
  · exact ⟨hp.mutex,
      congrArg (fun r => { r with codec := { r.codec with started := true } }) hp.runtime,
      fun h => (by cases h), fun h => (by cases h), fun h => (by cases h), hp.queue, hagreed⟩

/-- From here on codec data is due. -/
theorem requireCodecData_outline (hk : k.Fits o r) :
    (discipline M).Outline (ofThread o) (Holds o r k) requireCodecData
      (fun _ => Holds o r { k with due := k.slots, agreed := true }) := by
  refine outline_modify hk ⟨hk.quiet, fun h => h, hk.callbacks, hk.queue⟩ fun s hs hp => ?_
  obtain ⟨stage, htraced⟩ := hs.traced
  have hagreed : Agreed { s with decoderRecovery := s.decoderRecovery.requireCodecData } :=
    ⟨stage, htraced, agrees_due _⟩
  exact ⟨⟨⟨⟨stage, htraced⟩, fun _ => .inl hagreed, hs.slots, hs.calling⟩, List.suffix_rfl,
    fun _ => Iff.rfl⟩, { hp with due := fun _ => rfl, agreed := fun _ => hagreed }⟩

theorem initializationFailed_outline (connected : Bool) (operation : String) (errorCode : Int)
    (hk : k.Fits o r) : (discipline M).Outline (ofThread o) (Holds o r k)
      (initializationFailed connected operation errorCode) (fun _ => Holds o r k) :=
  outline_beside ((every_critical _).mpr fun _ _ => ⟨rfl, rfl, rfl, rfl, rfl, rfl, fun _ => id⟩)
    (Holds.stable hk) fun _ _ hb h => hb.holds h

/-- A codec that is not published yet. -/
def preparing (codec : AvCodec) (contract : MediaContract) (lifecycle : ReceiverLifecycleState) :
    Runtime :=
  ⟨.starting, none, contract, lifecycle, codec⟩

/-- What the calls before the start make of the codec. -/
inductive Readies (contract : MediaContract) (lifecycle : ReceiverLifecycleState) :
    List (String × (ReceiverSession → ReceiverSession)) → AvCodec → AvCodec → Prop where
  | done (codec : AvCodec) : Readies contract lifecycle [] codec codec
  | call {codec next last : AvCodec} (name : String) (prepares : ∀ s, Prepares s (effect s))
      (sets : ∀ s, runtime s = preparing codec contract lifecycle →
        runtime (effect s) = preparing next contract lifecycle)
      (stopped : next.started = false) (rest : Readies contract lifecycle operations next last) :
      Readies contract lifecycle ((name, effect) :: operations) codec last

variable {contract : MediaContract} {lifecycle : ReceiverLifecycleState} {codec codec' : AvCodec}

theorem preparing_fits (h : codec.started = false) :
    Known.idle.Fits o (preparing codec contract lifecycle) :=
  .idle (.inl (by simp [preparing])) h

theorem absent_fits : Known.idle.Fits o (absent contract lifecycle) := .idle (.inr (.inl rfl)) rfl

/-- The codec is given up. -/
theorem abandon_outline (hk : k.Fits o r) (hg : r.gate ≠ .running)
    (hr : r.decoder = none) (hs : k.slots = true) (hc : k.callbacks = true) (hd : k.due = true)
    {Q : Bool → ReceiverSession → Prop}
    (hq : ∀ s, Holds o (absent r.contract r.lifecycle) .idle s → Q false s) :
    (discipline M).Outline (ofThread o) (Holds o r k) (do
      destroyCodec
      setGate .stopped
      return false) Q := by
  have hgone : ({ r with codec := {} } : Runtime).decoder = none := hr
  have hk' : Known.Fits o { r with codec := {} } { k with agreed := false } :=
    ⟨fun _ => .inl hg, hk.due, fun _ => rfl, hk.queue⟩
  refine .bind (destroyCodec_outline hk hg hs hc) fun _ => ?_
  refine .bind (setGate_closed (by decide) hk') fun _ => ?_
  refine .ret false (Holds.stable (hk'.gate (by decide))) fun s _ hp => hq s ?_
  rw [show absent r.contract r.lifecycle = { r with gate := .stopped, codec := {} } from
    by rw [absent, ← hr]]
  exact hp.idle hs hc hd

theorem prepareDecoder_outline (connected : Bool)
    {operations : List (String × (ReceiverSession → ReceiverSession))}
    (h : Readies contract lifecycle operations codec codec') (hstopped : codec.started = false) :
    (discipline M).Outline (ofThread o) (Holds o (preparing codec contract lifecycle) .idle)
      (prepareDecoder connected operations)
      (fun ok s => ok = true ∧ Holds o (preparing codec' contract lifecycle) .idle s ∨
        ok = false ∧ M = false ∧ Holds o (absent contract lifecycle) .idle s) := by
  induction h with
  | done => exact .ret true (Holds.stable (preparing_fits hstopped)) fun s _ hp => .inl ⟨rfl, hp⟩
  | call name prepares sets hnext _ ih =>
    rw [prepareDecoder]
    refine .bind (codecStep_outline (preparing_fits hstopped) (preparing_fits hnext)
      fun s hs hp => ⟨(prepares s).owned hs hp (by simp [preparing]),
        (prepares s).holds hp (sets s hp.runtime)⟩) fun status => ?_
    refine .either (.when fun hzero => ?_) (.when fun hzero => .when fun hm => ?_)
    · rw [if_neg (by simpa using hzero)]
      exact ih hnext
    · rw [if_pos hzero]
      refine .bind (initializationFailed_outline _ _ _ (preparing_fits hstopped)) fun _ => ?_
      exact abandon_outline (preparing_fits hstopped) (by simp [preparing]) rfl rfl rfl rfl
        fun s hp => .inr ⟨rfl, hm, hp⟩

end HarmonyScreen.Proofs.DecoderLifecycle
