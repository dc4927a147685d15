import HarmonyScreen.Proofs.DecoderLifecycle

namespace HarmonyScreen.Proofs.DecoderOperations
open Lib Program Receiver ReceiverSession DecoderSystem Protocol DecoderTrace DecoderQueue
  DecoderDiscipline DecoderLifecycle

variable {M : Bool} {s t : ReceiverSession} {o : LifecycleThread} {r r' : Runtime} {k k' : Known}
  {contract : MediaContract} {lifecycle : ReceiverLifecycleState}

/-- A read that only goes into the texts. -/
theorem outline_connected {f : Bool → Session β} {Q : β → ReceiverSession → Prop} (hk : k.Fits o r)
    (hf : ∀ connected, (discipline M).Outline (ofThread o) (Holds o r k) (f connected) Q) :
    (discipline M).Outline (ofThread o) (Holds o r k) (load (·.connected) >>= f) Q :=
  .bind (outline_beside ((every_critical _).mpr fun s _ => .refl s) (Holds.stable hk)
    fun _ _ hb h => hb.holds h) hf

/-- What `CreateDecoderLocked` leaves. -/
def Created (M : Bool) (o : LifecycleThread) (contract : MediaContract)
    (lifecycle : ReceiverLifecycleState) (ok : Bool) (s : ReceiverSession) : Prop :=
  (ok = true ∧ lifecycle.decoderShouldRun = true ∧
    ∃ decoder, Holds o (present decoder contract lifecycle) .running s) ∨
  (ok = false ∧ (M = true → isValidMediaContract contract = true →
      lifecycle.decoderShouldRun = false) ∧
    Holds o (absent contract lifecycle) .idle s)

/-- A codec that is published and started. -/
theorem publish_outline (connected : Bool) (decoder : Nat)
    (hruns : lifecycle.decoderShouldRun = true) :
    (discipline M).Outline (ofThread o)
      (Holds o (preparing ⟨decoder, some contract, some lifecycle.surface, false, []⟩ contract
        lifecycle) .idle)
      (do
        modify fun s => { s with decoder := some decoder }
        setGate .running
        let start ← startCodec
        if start ≠ 0 then
          initializationFailed connected "Start" start
          setGate .stopping
          clearDecoderQueues
          modify fun s => { s with decoder := none }
          destroyCodec
          setGate .stopped
          return false
        else
          requireCodecData
          return true)
      (Created M o contract lifecycle) := by
  have hk (g : DecoderLifecycleState) (d : Option Nat) : Known.idle.Fits o
      ⟨g, d, contract, lifecycle, ⟨decoder, some contract, some lifecycle.surface, false, []⟩⟩ :=
    .idle (.inr (.inr rfl)) rfl
  refine .bind (setDecoder_outline _ (hk _ _) (by simp [preparing])) fun _ => ?_
  refine .bind (setGate_running (hk _ _) rfl (.inl rfl)) fun _ => ?_
  refine .bind (startCodec_outline (hk _ _) (.inl rfl)) fun start => ?_
  refine .either (.when fun hzero => ?_) (.when fun hzero => .when fun hm => ?_)
  · rw [if_neg (by simpa using hzero)]
    refine .bind (requireCodecData_outline ⟨fun h => (by cases h), fun h => (by cases h),
      fun h => (by cases h), fun h => (by cases h)⟩) fun _ => ?_
    exact .ret true (Holds.stable .running) fun s _ hp => .inl ⟨rfl, hruns, decoder, hp⟩
  · rw [if_pos hzero]
    refine .bind (initializationFailed_outline _ _ _ (hk _ _)) fun _ => ?_
    refine .bind (setGate_closed (by decide) (hk _ _)) fun _ => ?_
    refine .bind (clearDecoderQueues_outline (hk _ _) (by simp)) fun _ => ?_
    have hk' (g : DecoderLifecycleState) (d : Option Nat) : Known.Fits o
        ⟨g, d, contract, lifecycle, ⟨decoder, some contract, some lifecycle.surface, false, []⟩⟩
        { Known.idle with slots := true, queue := o == .network } :=
      ⟨(hk g d).quiet, fun _ => rfl, fun _ => rfl, fun h => by simpa using h⟩
    refine .bind (setDecoder_outline _ (hk' _ _) (by simp)) fun _ => ?_
    exact abandon_outline (hk' _ _) (by simp) rfl rfl rfl rfl
      fun s hp => .inr ⟨rfl, fun h => by simp [hm] at h, hp⟩

/-- The calls that prepare a new codec set its contract and bind it to the registered surface. -/
theorem readies_calls (decoder : Nat) :
    Readies contract lifecycle
      [("RegisterCallback", id), ("CreateVideoFormat", id),
        ("Configure", configureCodec contract), ("SetSurface", bindCodec), ("Prepare", id)]
      { address := decoder } ⟨decoder, some contract, some lifecycle.surface, false, []⟩ := by
  refine .call _ .refl (fun _ h => h) rfl (.call _ .refl (fun _ h => h) rfl ?_)
  have hconfigure (s : ReceiverSession)
      (h : runtime s = preparing { address := decoder } contract lifecycle) :
      runtime (configureCodec contract s) =
        preparing ⟨decoder, some contract, none, false, []⟩ contract lifecycle :=
    congrArg (fun r => { r with codec := { r.codec with contract := some contract } }) h
  refine .call _ (fun _ => ⟨rfl, rfl, rfl, rfl, rfl, rfl, rfl, rfl⟩) hconfigure rfl ?_
  refine .call _ (fun _ => ⟨rfl, rfl, rfl, rfl, rfl, rfl, rfl, rfl⟩) (fun s h => ?_) rfl
    (.call _ .refl (fun _ h => h) rfl (.done _))
  exact congrArg
    (fun r => { r with codec := { r.codec with surface := some r.lifecycle.surface } }) h

theorem createDecoderLocked_outline :
    (discipline M).Outline (ofThread o) (Holds o (absent contract lifecycle) .idle)
      createDecoderLocked (Created M o contract lifecycle) := by
  unfold createDecoderLocked
  refine outline_connected absent_fits fun connected => ?_
  refine outline_load (x := lifecycle.decoderShouldRun) absent_fits
    (fun s h => by rw [show s.lifecycleState = lifecycle from congrArg Runtime.lifecycle h]) ?_
  cases hruns : lifecycle.decoderShouldRun with
  | false =>
    refine .bind (initializationFailed_outline _ _ _ absent_fits) fun _ => ?_
    exact .ret false (Holds.stable absent_fits) fun s _ hp => .inr ⟨rfl, fun _ _ => hruns, hp⟩
  | true =>
    refine outline_load (x := contract) absent_fits
      (fun s h => congrArg Runtime.contract h) ?_
    cases hvalid : isValidMediaContract contract with
    | false =>
      refine .bind (setGate_closed (by decide) absent_fits) fun _ => ?_
      exact .ret false (Holds.stable absent_fits) fun s _ hp =>
        .inr ⟨rfl, fun _ h => by simp [hvalid] at h, hp⟩
    | true =>
      have hfits (created : Option Nat) : Known.idle.Fits o
          (preparing (created.elim {} fun address => { address := address }) contract lifecycle) :=
        preparing_fits (by cases created <;> rfl)
      refine .bind (setGate_closed (by decide) absent_fits) fun _ => ?_
      refine .bind (outline_owned (A := fun created => M = true → created.isSome = true)
        (T := fun created => preparing
          (created.elim {} fun address => { address := address }) contract lifecycle)
        (K := fun _ => .idle) (hfits none) hfits fun e s hs hp he => ⟨fun hm => (he hm).2, ?_⟩)
        fun created => .when fun hm => ?_
      · cases haddress : e.codecAddress with
        | none => exact ⟨.refl hs, hp⟩
        | some address =>
          have hprepares : Prepares s { s with avCodec := { ({} : AvCodec) with address := address } } :=
            ⟨rfl, rfl, hp.started.symm, (hp.callbacks rfl).symm, rfl, rfl, rfl, rfl⟩
          exact ⟨hprepares.owned hs hp (by simp), hprepares.holds hp
            (congrArg (fun r => { r with codec := { ({} : AvCodec) with address := address } })
              hp.runtime)⟩
      cases created with
      | none =>
        refine .bind (initializationFailed_outline _ _ _ (hfits none)) fun _ => ?_
        refine .bind (setGate_closed (by decide) (hfits none)) fun _ => ?_
        exact .ret false (Holds.stable absent_fits) fun s _ hp =>
          .inr ⟨rfl, fun h => by simpa using hm h, hp⟩
      | some decoder =>
        refine .bind (prepareDecoder_outline connected (readies_calls decoder) rfl) fun ok => ?_
        refine .either (.when ?_) (.when ?_)
        · rintro rfl
          exact publish_outline connected decoder hruns
        · rintro rfl
          refine .when fun hfails => ?_
          exact .ret false (Holds.stable absent_fits) fun s _ hp =>
            .inr ⟨rfl, fun h => by simp [hfails] at h, hp⟩

/-- However far the codec has come, it is gone afterwards. -/
theorem destroyDecoderLocked_outline (hk : k.Fits o r)
    (hnone : r.decoder = none → r.codec = {} ∧ k.callbacks = true) :
    (discipline M).Outline (ofThread o) (Holds o r k) destroyDecoderLocked
      (fun _ => Holds o (absent r.contract r.lifecycle) .idle) := by
  have hopen (g : DecoderLifecycleState) (hg : g ≠ .running) (d : Option Nat) :
      Known.Fits o ⟨g, d, r.contract, r.lifecycle, r.codec⟩
        { k with slots := true, queue := o == .network } :=
    ⟨fun _ => .inl hg, fun _ => rfl, hk.callbacks, fun h => by simpa using h⟩
  unfold destroyDecoderLocked
  refine .bind (setGate_closed (by decide) hk) fun _ => ?_
  refine .bind (clearDecoderQueues_outline (hk.gate (by decide)) (by simp)) fun _ => ?_
  refine .bind (outline_owned (A := fun decoder => decoder = r.decoder)
    (T := fun _ => ⟨.stopping, none, r.contract, r.lifecycle, r.codec⟩)
    (K := fun _ => { k with slots := true, queue := o == .network })
    (hopen _ (by decide) _) (fun _ => hopen _ (by decide) _) fun e s hs hp _ => ⟨?_, ?_⟩)
    fun decoder => .when ?_
  · exact congrArg Runtime.decoder hp.runtime
  · have hprepares : Prepares s { s with decoder := none } :=
      ⟨rfl, rfl, rfl, rfl, rfl, rfl, rfl, rfl⟩
    exact ⟨hprepares.owned hs hp (by simp),
      hprepares.holds hp (congrArg (fun r => { r with decoder := none }) hp.runtime)⟩
  rintro rfl
  -- The gate is closed and the codec given back; what is left is to say that codec data is due.
  have hrest {k : Known} (hk : k.Fits o ⟨.stopping, none, r.contract, r.lifecycle, {}⟩)
      (hs : k.slots = true) (hc : k.callbacks = true) :
      (discipline M).Outline (ofThread o)
        (Holds o ⟨.stopping, none, r.contract, r.lifecycle, {}⟩ k)
        (setGate .stopped >>= fun _ => requireCodecData)
        (fun _ => Holds o (absent r.contract r.lifecycle) .idle) :=
    .bind (setGate_closed (by decide) hk) fun _ =>
      .weaken (requireCodecData_outline (hk.gate (by decide))) (fun _ _ h => h)
        fun _ _ _ hp => hp.idle hs hc hs
  cases hdecoder : r.decoder with
  | none =>
    obtain ⟨hcodec, hcallbacks⟩ := hnone hdecoder
    rw [hcodec] at hopen ⊢
    exact hrest (hopen _ (by decide) _) rfl hcallbacks
  | some decoder =>
    simp only [Option.isSome_some, if_true]
    have hhalted : Known.Fits o ⟨.stopping, none, r.contract, r.lifecycle,
        { r.codec with started := false }⟩
        { k with slots := true, queue := o == .network, agreed := false, callbacks := true } :=
      ⟨fun _ => .inl (by simp), fun _ => rfl, fun _ => rfl, fun h => by simpa using h⟩
    refine .bind (stopCodec_outline (hopen _ (by decide) _) (by simp) rfl) fun _ => ?_
    refine .bind (destroyCodec_outline hhalted (by simp) rfl rfl) fun _ => ?_
    exact hrest ⟨fun _ => .inl (by simp), fun _ => rfl, fun _ => rfl, hhalted.queue⟩ rfl rfl

/-- The lock is held and no operation is under way. `C` says that a codec is there
whenever it should run. -/
def Inside (C : Prop) (o : LifecycleThread) (k : Known) (s : ReceiverSession) : Prop :=
  ∃ contract lifecycle, (C → isValidMediaContract contract = true) ∧
    ((C → lifecycle.decoderShouldRun = false) ∧ Holds o (absent contract lifecycle) .idle s ∨
      lifecycle.decoderShouldRun = true ∧
        ∃ decoder, Holds o (present decoder contract lifecycle) k s)

/-- The thread does not hold the lock. -/
def Outside (o : LifecycleThread) (s : ReceiverSession) : Prop := s.lifecycleMutex ≠ some o

variable {C : Prop}

theorem Inside.stable (hk : ∀ r, k.Fits o r) :
    (discipline M).Stable (ofThread o) (Inside C o k) := by
  rintro s t ⟨contract, lifecycle, hvalid, ⟨hruns, hp⟩ | ⟨hruns, decoder, hp⟩⟩ hr hi
  · exact ⟨contract, lifecycle, hvalid, .inl ⟨hruns, Holds.stable absent_fits s t hp hr hi⟩⟩
  · exact ⟨contract, lifecycle, hvalid, .inr ⟨hruns, decoder, Holds.stable (hk _) s t hp hr hi⟩⟩

theorem Outside.stable : (discipline M).Stable (ofThread o) (Outside o) := by
  intro s t h hr _ ht
  have hrely : OwnerRely o s t := relies_ofThread ▸ hr
  exact h (hrely.held.mp ht)

theorem Created.inside {ok : Bool} (h : Created M o contract lifecycle ok s)
    (hvalid : C → isValidMediaContract contract = true) (hC : C → M = true ∨ ok = true) :
    Inside C o .running s := by
  refine ⟨contract, lifecycle, hvalid, ?_⟩
  rcases h with ⟨rfl, hruns, hp⟩ | ⟨rfl, hruns, hp⟩
  · exact .inr ⟨hruns, hp⟩
  · refine .inl ⟨fun hc => ?_, hp⟩
    rcases hC hc with hm | hok
    · exact hruns hm (hvalid hc)
    · cases hok

theorem Inside.mono {C' : Prop} (h : Inside C o k s) (hc : C' → C) : Inside C' o k s := by
  obtain ⟨contract, lifecycle, hvalid, ⟨hruns, hp⟩ | ⟨hruns, hp⟩⟩ := h
  · exact ⟨contract, lifecycle, hvalid ∘ hc, .inl ⟨hruns ∘ hc, hp⟩⟩
  · exact ⟨contract, lifecycle, hvalid ∘ hc, .inr ⟨hruns, hp⟩⟩

/-- Who is inside finds either no codec or one that runs. -/
theorem lockLifecycle_outline : (discipline M).Outline (ofThread o) (Outside o)
    (lockLifecycle o) (fun _ => Inside (M = true) o .running) := by
  refine .atomic Outside.stable fun e s hi hp he hready => ?_
  have hnone : s.lifecycleMutex = none := by simpa using hready
  obtain ⟨hsettled, hidle, hcomplete⟩ := hi.free hnone
  have hagreed : s.callbacksAllowed = true → Agreed s := fun hgate =>
    (hi.sane.agreed hgate).resolve_right fun h => by rw [hnone] at h; cases h.1
  have howned : Owned s { s with lifecycleMutex := some o } :=
    ⟨⟨hi.sane.traced, fun hgate => .inl (hagreed hgate), hi.sane.slots, hi.sane.calling⟩,
      List.suffix_rfl, fun _ => Iff.rfl⟩
  have hinside : Inside (M = true) o .running { s with lifecycleMutex := some o } := by
    generalize hr : runtime s = r at hsettled
    have hdecoder : s.decoder = r.decoder := congrArg Runtime.decoder hr
    have hlifecycle : s.lifecycleState = r.lifecycle := congrArg Runtime.lifecycle hr
    have hcontract : s.decoderMediaContract = r.contract := congrArg Runtime.contract hr
    rw [hdecoder, hlifecycle, hcontract] at hcomplete
    cases hsettled with
    | absent contract lifecycle =>
      obtain ⟨hdue, hcallbacks⟩ := hidle hdecoder
      have hslots := (hi.free hnone).slots hi.sane hdecoder
      refine ⟨contract, lifecycle, fun hm => (hcomplete hm).1, .inl ⟨fun hm => ?_, rfl, hr,
        fun _ => hslots, fun _ => hcallbacks, fun _ => hdue, fun h => (by cases h),
        fun h => (by cases h)⟩⟩
      by_contra hruns
      have hshould : lifecycle.decoderShouldRun = true := by simpa using hruns
      have hsome := (hcomplete hm).2 hshould
      cases hsome
    | present decoder contract lifecycle runs =>
      have hgate : s.callbacksAllowed = true := by
        rw [callbacksAllowed, show s.decoderCallbackGate = .running from congrArg Runtime.gate hr]
        rfl
      exact ⟨contract, lifecycle, fun hm => (hcomplete hm).1, .inr ⟨runs, decoder, rfl, hr,
        fun h => (by cases h), fun h => (by cases h), fun h => (by cases h), fun h => (by cases h),
        fun _ => hagreed hgate⟩⟩
  refine ⟨⟨howned.sane, fun h => (by cases h)⟩, guarantee_owned (fun _ _ h => ?_)
    (fun o' ho h => ho (Option.some.inj h).symm) List.suffix_rfl (fun _ => Iff.rfl),
    fun t ht hit => Inside.stable (fun _ => .running) _ t hinside ht hit⟩
  rw [hnone] at h
  cases h

/-- What the lock's owner leaves behind when it gives the lock back. -/
theorem Inside.free (hs : Sane s) (h : Inside C o .running s) (hc : M = true → C) :
    Invariant M { s with lifecycleMutex := none } := by
  obtain ⟨contract, lifecycle, hvalid, ⟨hruns, hp⟩ | ⟨hruns, decoder, hp⟩⟩ := h
  · have hclosed : s.callbacksAllowed = false := by
      rw [callbacksAllowed, hp.gate]
      rfl
    have hcontract : s.decoderMediaContract = contract := congrArg Runtime.contract hp.runtime
    have hlifecycle : s.lifecycleState = lifecycle := congrArg Runtime.lifecycle hp.runtime
    refine ⟨⟨hs.traced, fun hgate => ?_, hs.slots, hs.calling⟩, fun _ => ⟨?_, fun _ => ?_, ?_⟩⟩
    · have hfalse : false = true := hclosed.symm.trans hgate
      cases hfalse
    · have hsettled : Settled (absent contract lifecycle) := .absent _ _
      exact hp.runtime ▸ hsettled
    · exact ⟨hp.due rfl, hp.callbacks rfl⟩
    · intro hm
      refine ⟨hcontract ▸ hvalid (hc hm), fun hshould => ?_⟩
      have hsame : s.lifecycleState.decoderShouldRun = true := hshould
      rw [hlifecycle, hruns (hc hm)] at hsame
      cases hsame
  · have hdecoder : s.decoder = some decoder := congrArg Runtime.decoder hp.runtime
    have hcontract : s.decoderMediaContract = contract := congrArg Runtime.contract hp.runtime
    refine ⟨⟨hs.traced, fun _ => .inl (hp.agreed rfl), hs.slots, hs.calling⟩,
      fun _ => ⟨?_, fun hnone => ?_, fun hm => ⟨hcontract ▸ hvalid (hc hm), fun _ => ?_⟩⟩⟩
    · have hsettled : Settled (present decoder contract lifecycle) := .present _ _ _ hruns
      exact hp.runtime ▸ hsettled
    · have hsame : s.decoder = none := hnone
      rw [hdecoder] at hsame
      cases hsame
    · have hsame : s.decoder.isSome = true := by rw [hdecoder]; rfl
      exact hsame

theorem Inside.mutex (h : Inside C o k s) : s.lifecycleMutex = some o := by
  obtain ⟨_, _, _, ⟨_, hp⟩ | ⟨_, _, hp⟩⟩ := h
  · exact hp.mutex
  · exact hp.mutex

theorem unlockLifecycle_outline : (discipline M).Outline (ofThread o)
    (Inside (M = true) o .running) unlockLifecycle (fun _ => Outside o) := by
  refine .critical (Inside.stable fun _ => .running) (fun _ => Outside.stable)
    fun _ s hi hp _ => ⟨hp.free hi.sane id, ?_, fun h => by cases h⟩
  exact guarantee_owned (fun _ ho => held_other hp.mutex ho) (fun _ _ h => by cases h)
    List.suffix_rfl fun _ => Iff.rfl

/-- What is there after a codec was created where one should run; `b` is the answer where
none should. -/
def Recreated (M : Bool) (o : LifecycleThread) (b : Bool) (contract : MediaContract)
    (lifecycle : ReceiverLifecycleState) (ok : Bool) (s : ReceiverSession) : Prop :=
  (lifecycle.decoderShouldRun = true ∧ Created M o contract lifecycle ok s) ∨
  (lifecycle.decoderShouldRun = false ∧ ok = b ∧ Holds o (absent contract lifecycle) .idle s)

theorem recreate_outline (b : Bool) : (discipline M).Outline (ofThread o)
    (Holds o (absent contract lifecycle) .idle)
    (do
      let shouldRun ← load (·.lifecycleState.decoderShouldRun)
      if shouldRun then createDecoderLocked else return b)
    (Recreated M o b contract lifecycle) := by
  refine outline_load (x := lifecycle.decoderShouldRun) absent_fits
    (fun s h => by rw [show s.lifecycleState = lifecycle from congrArg Runtime.lifecycle h]) ?_
  cases hruns : lifecycle.decoderShouldRun with
  | false => exact .ret b (Holds.stable absent_fits) fun s _ hp => .inr ⟨hruns, rfl, hp⟩
  | true =>
    exact createDecoderLocked_outline.weaken (fun _ _ h => h) fun _ _ _ h => .inl ⟨hruns, h⟩

theorem Recreated.inside {b ok : Bool} (h : Recreated M o b contract lifecycle ok s)
    (hvalid : C → isValidMediaContract contract = true) (hC : C → M = true ∨ ok = true) :
    Inside C o .running s := by
  rcases h with ⟨_, h⟩ | ⟨hruns, rfl, hp⟩
  · exact h.inside hvalid hC
  · exact ⟨contract, lifecycle, hvalid, .inl ⟨fun _ => hruns, hp⟩⟩

/-- A codec is not created only where a call fails. -/
theorem Recreated.fails (h : Recreated M o true contract lifecycle false s)
    (hvalid : isValidMediaContract contract = true) :
    M = false ∧ Holds o (absent contract lifecycle) .idle s := by
  rcases h with ⟨hruns, ⟨hok, _⟩ | ⟨_, hfails, hp⟩⟩ | ⟨_, hok, _⟩
  · cases hok
  · refine ⟨Bool.eq_false_iff.mpr fun hm => ?_, hp⟩
    rw [hfails hm hvalid] at hruns
    cases hruns
  · cases hok

theorem requireCodecData_inside (hk : ∀ r, k.Fits o r) :
    (discipline M).Outline (ofThread o) (Inside C o k) requireCodecData
      (fun _ => Inside C o .running) := by
  refine .any fun contract => .any fun lifecycle => .when fun hvalid => .either ?_ ?_
  · refine .when fun hruns => .weaken (requireCodecData_outline absent_fits) (fun _ _ h => h)
      fun _ s _ hp => ⟨contract, lifecycle, hvalid, .inl ⟨hruns, hp.idle rfl rfl rfl⟩⟩
  · refine .when fun hruns => .any fun decoder => .weaken (requireCodecData_outline (hk _))
      (fun _ _ h => h) fun _ s _ hp => ⟨contract, lifecycle, hvalid, .inr ⟨hruns, decoder, ?_⟩⟩
    exact hp.running rfl

/-- What remains of an operation when the lock was given back. -/
theorem outline_outside {p : Session α} (hp : p.Every Beside) :
    (discipline M).Outline (ofThread o) (Outside o) p (fun _ => Outside o) :=
  outline_beside hp Outside.stable fun _ _ hb h => by
    rw [Outside, hb.mutex]
    exact h

theorem countResync_beside (prepared : Bool) : (countResync prepared).Every Beside :=
  (every_critical _).mpr fun _ _ =>
    ⟨rfl, rfl, rfl, rfl, rfl, rfl, fun _ h => stageOf_note h rfl⟩

theorem requestKeyframe_beside : requestKeyframe.Every Beside :=
  (every_critical _).mpr fun _ _ => ⟨rfl, rfl, rfl, rfl, rfl, rfl, fun _ => id⟩

/-- The codec is flushed and, with the queue empty and the gate open, started again. -/
theorem restart_outline (decoder : Nat) :
    (discipline M).Outline (ofThread .network)
      (Holds .network ⟨.flushing, some decoder, contract, lifecycle,
        ⟨decoder, some contract, some lifecycle.surface, true, []⟩⟩
        { slots := true, queue := true, agreed := true })
      (do
        let flushed ← flushCodec
        let restarted ← if flushed = 0 then restartDecoder else pure false
        if evaluateFlushRecovery (flushed == 0) restarted = .resume then
          return true
        else
          destroyDecoderLocked
          let shouldRun ← load (·.lifecycleState.decoderShouldRun)
          if shouldRun then createDecoderLocked else return false)
      (fun ok s => Recreated M .network false contract lifecycle ok s ∨
        Holds .network (present decoder contract lifecycle) { queue := true } s) := by
  have hfits (g : DecoderLifecycleState) : Known.Fits .network ⟨g, some decoder, contract, lifecycle,
      ⟨decoder, some contract, some lifecycle.surface, false, []⟩⟩
      { slots := true, queue := true, callbacks := true } :=
    ⟨fun _ => .inr (.inr rfl), fun _ => rfl, fun _ => rfl, fun _ => rfl⟩
  -- A codec that was halted and could not be started again is replaced.
  have hrebuild (g : DecoderLifecycleState) := (destroyDecoderLocked_outline (M := M) (hfits g)
    fun h => by cases h).bind fun _ => recreate_outline false
  refine .bind (flushCodec_outline ⟨fun _ => .inl (by simp), fun _ => rfl, fun h => (by cases h),
    fun _ => rfl⟩ (by simp) rfl) fun flushed => .when fun _ => ?_
  by_cases hflushed : flushed = 0
  · subst hflushed
    simp only [if_true, restartDecoder]
    refine .bind (Q := fun restarted s =>
      restarted = true ∧ Holds .network (present decoder contract lifecycle) { queue := true } s ∨
      restarted = false ∧ Holds .network ⟨.running, some decoder, contract, lifecycle,
        ⟨decoder, some contract, some lifecycle.surface, false, []⟩⟩
        { slots := true, queue := true, callbacks := true } s) ?_ fun restarted => ?_
    · refine .bind (setGate_running (hfits _) rfl (.inr rfl)) fun _ => ?_
      refine .bind (startCodec_outline (hfits _) (.inr rfl)) fun status => ?_
      refine .either (.when ?_) (.when fun hstatus => .when fun _ => ?_)
      · rintro rfl
        exact .ret true (Holds.stable ⟨fun h => (by cases h), fun h => (by cases h),
          fun h => (by cases h), fun _ => rfl⟩) fun s _ hp => .inl ⟨rfl, hp⟩
      · exact .ret _ (Holds.stable (hfits _)) fun s _ hp => .inr ⟨by simpa using hstatus, hp⟩
    · refine .either (.when ?_) (.when ?_)
      · rintro rfl
        exact .ret true (Holds.stable ⟨fun h => (by cases h), fun h => (by cases h),
          fun h => (by cases h), fun _ => rfl⟩) fun s _ hp => .inr hp
      · rintro rfl
        exact (hrebuild _).weaken (fun _ _ h => h) fun _ _ _ h => .inl h
  · rw [if_neg hflushed]
    have hrebuilds : evaluateFlushRecovery (flushed == 0) false ≠ .resume := by
      simp [evaluateFlushRecovery]
    simp only [pure_eq, ret_bind, if_neg hrebuilds]
    exact (hrebuild _).weaken (fun _ _ h => h) fun _ _ _ h => .inl h

end HarmonyScreen.Proofs.DecoderOperations
