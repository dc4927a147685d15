import HarmonyScreen.Proofs.DecoderQueue

namespace HarmonyScreen.Proofs.DecoderDiscipline
open Lib Program Receiver ReceiverSession DecoderSystem Protocol DecoderTrace DecoderQueue

variable {M : Bool} {s t u : ReceiverSession} {o : LifecycleThread} {r : Runtime}

/-- No codec. -/
def absent (contract : MediaContract) (lifecycle : ReceiverLifecycleState) : Runtime :=
  ⟨.stopped, none, contract, lifecycle, {}⟩

/-- A codec that runs, with the contract and on the surface. -/
def present (decoder : Nat) (contract : MediaContract) (lifecycle : ReceiverLifecycleState) :
    Runtime :=
  ⟨.running, some decoder, contract, lifecycle,
    ⟨decoder, some contract, some lifecycle.surface, true, []⟩⟩

inductive Settled : Runtime → Prop where
  | absent (contract : MediaContract) (lifecycle : ReceiverLifecycleState) :
      Settled (absent contract lifecycle)
  | present (decoder : Nat) (contract : MediaContract) (lifecycle : ReceiverLifecycleState)
      (runs : lifecycle.decoderShouldRun = true) : Settled (present decoder contract lifecycle)

/-- What holds at any time. While the network thread starts a flushed codec again the
recovery state may be ahead, but there is nothing to push. -/
structure Sane (s : ReceiverSession) : Prop where
  traced : Traced s
  agreed : s.callbacksAllowed = true →
    Agreed s ∨ s.lifecycleMutex = some .network ∧ s.decodeQueue = []
  slots : s.inputSlots ≠ [] → s.avCodec.started = true
  calling : s.callbacksAllowed = true → s.avCodec.callbacks ≠ [] → s.avCodec.started = true

/-- What holds while nobody is inside a lifecycle operation. -/
structure Free (M : Bool) (s : ReceiverSession) : Prop where
  settled : Settled (runtime s)
  idle : s.decoder = none → DueData s ∧ s.avCodec.callbacks = []
  complete : M = true → isValidMediaContract s.decoderMediaContract = true ∧
    (s.lifecycleState.decoderShouldRun = true → s.decoder.isSome = true)

/-- The invariant; `M` stands for the runs that begin with a valid contract and in which
every call of the codec succeeds. -/
structure Invariant (M : Bool) (s : ReceiverSession) : Prop where
  sane : Sane s
  free : s.lifecycleMutex = none → Free M s

/-- Without a codec none is started, and there is no slot. -/
theorem Free.stopped (h : Free M s) (hnone : s.decoder = none) : s.avCodec.started = false := by
  have hsettled := h.settled
  generalize hr : runtime s = r at hsettled
  have hdecoder : s.decoder = r.decoder := congrArg Runtime.decoder hr
  cases hsettled with
  | absent contract lifecycle => exact congrArg (fun r => r.codec.started) hr
  | present decoder contract lifecycle runs =>
    rw [hnone] at hdecoder
    cases hdecoder

theorem Free.slots (h : Free M s) (hs : Sane s) (hnone : s.decoder = none) : s.inputSlots = [] := by
  by_contra hne
  have hstarted := hs.slots hne
  rw [h.stopped hnone] at hstarted
  cases hstarted

theorem Free.keep (h : Free M s) (hr : runtime t = runtime s)
    (hidle : s.decoder = none → DueData s → s.avCodec.callbacks = [] →
      DueData t ∧ t.avCodec.callbacks = []) : Free M t := by
  have hdecoder : t.decoder = s.decoder := congrArg Runtime.decoder hr
  have hlifecycle : t.lifecycleState = s.lifecycleState := congrArg Runtime.lifecycle hr
  have hcontract : t.decoderMediaContract = s.decoderMediaContract :=
    congrArg Runtime.contract hr
  refine ⟨hr ▸ h.settled, fun hnone => ?_, by rw [hdecoder, hlifecycle, hcontract]; exact h.complete⟩
  rw [hdecoder] at hnone
  exact hidle hnone (h.idle hnone).1 (h.idle hnone).2

/-- No input is admitted or pushed. -/
def Quiet (r : Runtime) : Prop := r.gate ≠ .running ∨ r.decoder = none ∨ r.codec.started = false

/-- What a thread relies on that may hold the lifecycle lock. -/
structure OwnerRely (o : LifecycleThread) (s t : ReceiverSession) : Prop where
  held : t.lifecycleMutex = some o ↔ s.lifecycleMutex = some o
  runtime : s.lifecycleMutex = some o → DecoderQueue.runtime t = DecoderQueue.runtime s
  idle : s.lifecycleMutex = some o → Quiet (DecoderQueue.runtime s) → s.inputSlots = [] →
    t.inputSlots = [] ∧ (DueData s → DueData t)
  callbacks : s.lifecycleMutex = some o → s.avCodec.started = false → s.avCodec.callbacks = [] →
    t.avCodec.callbacks = []
  agreed : s.lifecycleMutex = some o → Agreed s → Agreed t
  queue : o = .network → t.decodeQueue <:+ s.decodeQueue

theorem OwnerRely.refl (o : LifecycleThread) (s : ReceiverSession) : OwnerRely o s s :=
  ⟨Iff.rfl, fun _ => rfl, fun _ _ h => ⟨h, id⟩, fun _ _ h => h, fun _ => id,
    fun _ => List.suffix_rfl⟩

theorem OwnerRely.trans (h : OwnerRely o s t) (h' : OwnerRely o t u) : OwnerRely o s u where
  held := h'.held.trans h.held
  runtime hs := (h'.runtime (h.held.mpr hs)).trans (h.runtime hs)
  idle hs hq hi :=
    have hm := h.idle hs hq hi
    have hn := h'.idle (h.held.mpr hs) (h.runtime hs ▸ hq) hm.1
    ⟨hn.1, fun hd => hn.2 (hm.2 hd)⟩
  callbacks hs hstarted hc := by
    have hruntime := h.runtime hs
    have hsame : t.avCodec.started = s.avCodec.started :=
      congrArg (fun r => r.codec.started) hruntime
    exact h'.callbacks (h.held.mpr hs) (hsame.trans hstarted) (h.callbacks hs hstarted hc)
  agreed hs ha := h'.agreed (h.held.mpr hs) (h.agreed hs ha)
  queue ho := (h'.queue ho).trans (h.queue ho)

/-- The thread that is this user of the lifecycle lock. -/
def ofThread : LifecycleThread → DecoderThread
  | .network => .network
  | .surface => .surface

def relies : DecoderThread → ReceiverSession → ReceiverSession → Prop
  | .network => OwnerRely .network
  | .surface => OwnerRely .surface
  | .codec n => fun s t => n ∈ t.avCodec.callbacks ↔ n ∈ s.avCodec.callbacks

theorem relies_ofThread : relies (ofThread o) = OwnerRely o := by
  cases o <;> rfl

def Offered (M : Bool) (e : External) : Prop := M = true → Succeeds e

/-- The discipline of the decoder's threads. -/
def discipline (M : Bool) : Discipline DecoderThread ReceiverSession External where
  invariant := Invariant M
  offers _ _ := Offered M
  rely := relies
  guarantee i s t := ∀ j, j ≠ i → relies j s t
  refl j s := by
    cases j with
    | network => exact .refl _ s
    | surface => exact .refl _ s
    | codec n => exact Iff.rfl
  trans j _ _ _ h h' := by
    cases j with
    | network => exact OwnerRely.trans h h'
    | surface => exact OwnerRely.trans h h'
    | codec n => exact Iff.trans h' h
  compatible hij _ h := h _ (Ne.symm hij)

/-- What the owner of the lock may know besides the runtime. -/
structure Known where
  slots : Bool := false
  callbacks : Bool := false
  due : Bool := false
  queue : Bool := false
  agreed : Bool := false

/-- What is known without a codec. -/
def Known.idle : Known := { slots := true, callbacks := true, due := true }

/-- What is known of a codec that runs. -/
def Known.running : Known := { agreed := true }

/-- The lock is held and the runtime is this; and what else is known. -/
structure Holds (o : LifecycleThread) (r : Runtime) (k : Known) (s : ReceiverSession) : Prop where
  mutex : s.lifecycleMutex = some o
  runtime : DecoderQueue.runtime s = r
  slots : k.slots = true → s.inputSlots = []
  callbacks : k.callbacks = true → s.avCodec.callbacks = []
  due : k.due = true → DueData s
  queue : k.queue = true → s.decodeQueue = []
  agreed : k.agreed = true → Agreed s

/-- The others cannot take the knowledge away. -/
structure Known.Fits (o : LifecycleThread) (r : Runtime) (k : Known) : Prop where
  quiet : k.slots = true → Quiet r
  due : k.due = true → k.slots = true
  callbacks : k.callbacks = true → r.codec.started = false
  queue : k.queue = true → o = .network

theorem Holds.gate {k : Known} (h : Holds o r k s) : s.decoderCallbackGate = r.gate :=
  congrArg Runtime.gate h.runtime

theorem Holds.started {k : Known} (h : Holds o r k s) : s.avCodec.started = r.codec.started :=
  congrArg (fun r => r.codec.started) h.runtime

/-- Knowledge that a closed gate leaves standing. -/
theorem Known.Fits.gate {k : Known} {g : DecoderLifecycleState} (hk : k.Fits o r) (hg : g ≠ .running) :
    k.Fits o { r with gate := g } :=
  ⟨fun _ => .inl hg, hk.due, hk.callbacks, hk.queue⟩

theorem Holds.idle {k : Known} (h : Holds o r k s) (hs : k.slots = true)
    (hc : k.callbacks = true) (hd : k.due = true) : Holds o r .idle s :=
  ⟨h.mutex, h.runtime, fun _ => h.slots hs, fun _ => h.callbacks hc, fun _ => h.due hd,
    fun hq => (by cases hq), fun ha => (by cases ha)⟩

theorem Holds.running {k : Known} (h : Holds o r k s) (ha : k.agreed = true) :
    Holds o r .running s :=
  ⟨h.mutex, h.runtime, fun hs => (by cases hs), fun hc => (by cases hc), fun hd => (by cases hd),
    fun hq => (by cases hq), fun _ => h.agreed ha⟩

theorem Known.Fits.idle (hq : Quiet r) (hs : r.codec.started = false) : Known.idle.Fits o r :=
  ⟨fun _ => hq, fun _ => rfl, fun _ => hs, fun h => (by cases h)⟩

theorem Known.Fits.running : Known.running.Fits o r :=
  ⟨fun h => (by cases h), fun h => (by cases h), fun h => (by cases h), fun h => (by cases h)⟩

theorem Holds.stable {k : Known} (hk : k.Fits o r) :
    (discipline M).Stable (ofThread o) (Holds o r k) := by
  intro s t h hr _
  have hrely : OwnerRely o s t := relies_ofThread ▸ hr
  have hidle : k.slots = true → t.inputSlots = [] ∧ (DueData s → DueData t) := fun hs =>
    hrely.idle h.mutex (h.runtime ▸ hk.quiet hs) (h.slots hs)
  refine ⟨hrely.held.mpr h.mutex, (hrely.runtime h.mutex).trans h.runtime,
    fun hs => (hidle hs).1, fun hc => ?_, fun hd => (hidle (hk.due hd)).2 (h.due hd),
    fun hq => ?_, fun ha => hrely.agreed h.mutex (h.agreed ha)⟩
  · have hstarted : s.avCodec.started = r.codec.started :=
      congrArg (fun r => r.codec.started) h.runtime
    exact hrely.callbacks h.mutex (hstarted.trans (hk.callbacks hc)) (h.callbacks hc)
  · have hsuffix := hrely.queue (hk.queue hq)
    rw [h.queue hq] at hsuffix
    exact List.suffix_nil.mp hsuffix

/-- What a section of the lock's owner has to respect. -/
structure Owned (s t : ReceiverSession) : Prop where
  sane : Sane t
  queue : t.decodeQueue <:+ s.decodeQueue
  callbacks : ∀ n, n ∈ t.avCodec.callbacks ↔ n ∈ s.avCodec.callbacks

theorem Owned.refl (hs : Sane s) : Owned s s := ⟨hs, List.suffix_rfl, fun _ => Iff.rfl⟩

theorem OwnerRely.other {o' : LifecycleThread} (hs : s.lifecycleMutex ≠ some o')
    (ht : t.lifecycleMutex ≠ some o') (hqueue : t.decodeQueue <:+ s.decodeQueue) :
    OwnerRely o' s t :=
  ⟨⟨fun h => absurd h ht, fun h => absurd h hs⟩, fun h => absurd h hs, fun h => absurd h hs,
    fun h => absurd h hs, fun h => absurd h hs, fun _ => hqueue⟩

/-- What the others may rely on when the lock is taken, used or given back. -/
theorem guarantee_owned (hs : ∀ o', o' ≠ o → s.lifecycleMutex ≠ some o')
    (ht : ∀ o', o' ≠ o → t.lifecycleMutex ≠ some o') (hqueue : t.decodeQueue <:+ s.decodeQueue)
    (hcallbacks : ∀ n, n ∈ t.avCodec.callbacks ↔ n ∈ s.avCodec.callbacks) :
    (discipline M).guarantee (ofThread o) s t := by
  intro j hj
  cases j with
  | network =>
    have hother : LifecycleThread.network ≠ o := fun h => hj (by rw [← h]; rfl)
    exact OwnerRely.other (hs _ hother) (ht _ hother) hqueue
  | surface =>
    have hother : LifecycleThread.surface ≠ o := fun h => hj (by rw [← h]; rfl)
    exact OwnerRely.other (hs _ hother) (ht _ hother) hqueue
  | codec n => exact hcallbacks n

theorem held_other {o' : LifecycleThread} (h : s.lifecycleMutex = some o) (ho : o' ≠ o) :
    s.lifecycleMutex ≠ some o' := by
  rw [h]
  exact fun heq => ho (Option.some.inj heq).symm

theorem Owned.keeps (h : Owned s t) (hs : s.lifecycleMutex = some o)
    (ht : t.lifecycleMutex = some o) :
    Invariant M t ∧ (discipline M).guarantee (ofThread o) s t :=
  ⟨⟨h.sane, fun hnone => (by rw [ht] at hnone; cases hnone)⟩,
    guarantee_owned (fun _ ho => held_other hs ho) (fun _ ho => held_other ht ho) h.queue
      h.callbacks⟩

/-- The outline of one section of the owner, with what its answer says. -/
theorem outline_owned {f : External → ReceiverSession → α × ReceiverSession} {k : Known}
    {A : α → Prop} {T : α → Runtime} {K : α → Known} (hk : k.Fits o r)
    (hk' : ∀ a, (K a).Fits o (T a))
    (h : ∀ e s, Sane s → Holds o r k s → Offered M e → A (f e s).1 ∧
      Owned s (f e s).2 ∧ Holds o (T (f e s).1) (K (f e s).1) (f e s).2) :
    (discipline M).Outline (ofThread o) (Holds o r k) (critical f)
      (fun a s => A a ∧ Holds o (T a) (K a) s) := by
  refine .critical (Holds.stable hk)
    (fun a s t ha hr hi => ⟨ha.1, Holds.stable (hk' a) s t ha.2 hr hi⟩) fun e s hi hp he => ?_
  obtain ⟨ha, howned, hq⟩ := h e s hi.sane hp he
  obtain ⟨hkeep, hgo⟩ := howned.keeps hp.mutex hq.mutex
  exact ⟨hkeep, hgo, ha, hq⟩

/-- What none of the decoder's threads looks at here. -/
structure Beside (s t : ReceiverSession) : Prop where
  runtime : DecoderQueue.runtime t = DecoderQueue.runtime s
  mutex : t.lifecycleMutex = s.lifecycleMutex
  codec : t.avCodec = s.avCodec
  slots : t.inputSlots = s.inputSlots
  queue : t.decodeQueue = s.decodeQueue
  recovery : t.decoderRecovery.state = s.decoderRecovery.state
  stage : ∀ stage, stageOf s.log = some stage → stageOf t.log = some stage

theorem Beside.refl (s : ReceiverSession) : Beside s s :=
  ⟨rfl, rfl, rfl, rfl, rfl, rfl, fun _ => id⟩

theorem Beside.traced {stage : Stage} (h : Beside s t) (hs : TracedAt stage s) :
    TracedAt stage t := by
  refine ⟨h.stage stage hs.1, ?_⟩
  rw [h.codec]
  exact hs.2

theorem Beside.agreed (h : Beside s t) (ha : Agreed s) : Agreed t := by
  obtain ⟨stage, htraced, hagrees⟩ := ha
  refine ⟨stage, h.traced htraced, ?_⟩
  rw [h.recovery]
  exact hagrees

theorem Beside.gate (h : Beside s t) : t.callbacksAllowed = s.callbacksAllowed := by
  rw [callbacksAllowed, callbacksAllowed, show t.decoderCallbackGate = s.decoderCallbackGate from
    congrArg Runtime.gate h.runtime]

theorem Beside.sane (h : Beside s t) (hs : Sane s) : Sane t where
  traced := by
    obtain ⟨stage, htraced⟩ := hs.traced
    exact ⟨stage, h.traced htraced⟩
  agreed := by
    rw [h.gate, h.mutex, h.queue]
    exact fun hgate => (hs.agreed hgate).imp_left h.agreed
  slots := by
    rw [h.slots, h.codec]
    exact hs.slots
  calling := by
    rw [h.gate, h.codec]
    exact hs.calling

theorem Beside.invariant (h : Beside s t) (hs : Invariant M s) : Invariant M t where
  sane := h.sane hs.sane
  free := by
    intro hnone
    rw [h.mutex] at hnone
    obtain ⟨hsettled, hidle, hcomplete⟩ := hs.free hnone
    have hdecoder : t.decoder = s.decoder := congrArg Runtime.decoder h.runtime
    have hlifecycle : t.lifecycleState = s.lifecycleState := congrArg Runtime.lifecycle h.runtime
    have hcontract : t.decoderMediaContract = s.decoderMediaContract :=
      congrArg Runtime.contract h.runtime
    refine ⟨h.runtime ▸ hsettled, fun hd => ?_,
      by rw [hdecoder, hlifecycle, hcontract]; exact hcomplete⟩
    have hi := hidle (hdecoder ▸ hd)
    exact ⟨h.recovery.trans hi.1, by rw [h.codec]; exact hi.2⟩

theorem Beside.relies (h : Beside s t) (j : DecoderThread) : relies j s t := by
  have howner (o : LifecycleThread) : OwnerRely o s t :=
    ⟨by rw [h.mutex], fun _ => h.runtime,
      fun _ _ hi => ⟨h.slots.trans hi, fun hd => h.recovery.trans hd⟩,
      fun _ _ hc => by rw [h.codec]; exact hc, fun _ => h.agreed,
      fun _ => ⟨[], h.queue⟩⟩
  cases j with
  | network => exact howner _
  | surface => exact howner _
  | codec n => exact (by rw [h.codec] : n ∈ t.avCodec.callbacks ↔ n ∈ s.avCodec.callbacks)

theorem Beside.holds {k : Known} (h : Beside s t) (hs : Holds o r k s) : Holds o r k t :=
  ⟨h.mutex.trans hs.mutex, h.runtime.trans hs.runtime, fun hk => h.slots.trans (hs.slots hk),
    fun hk => by rw [h.codec]; exact hs.callbacks hk, fun hk => h.recovery.trans (hs.due hk),
    fun hk => h.queue.trans (hs.queue hk), fun hk => h.agreed (hs.agreed hk)⟩

/-- A program beside the decoder keeps every stable assertion that its sections keep. -/
theorem outline_beside {i : DecoderThread} {P : ReceiverSession → Prop} {p : Session α}
    (hp : p.Every Beside) (stable : (discipline M).Stable i P)
    (hkeep : ∀ s t, Beside s t → P s → P t) : (discipline M).Outline i P p (fun _ => P) := by
  intro s hi hs
  induction p generalizing s with
  | ret a => exact fun t ht hit => stable s t hs ht hit
  | atomic ready act next ih =>
    intro t ht hit hready e _
    obtain ⟨hbeside, hnext⟩ := hp t e hready
    have hinv := hbeside.invariant hit
    exact ⟨hinv, fun j _ => hbeside.relies j,
      ih e t hnext _ hinv (hkeep _ _ hbeside (stable s t hs ht hit))⟩

end HarmonyScreen.Proofs.DecoderDiscipline
