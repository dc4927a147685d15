import HarmonyScreen.Proofs.DecoderOperations

namespace HarmonyScreen.Proofs.DecoderEntries
open Lib Program Receiver ReceiverSession DecoderSystem Protocol DecoderTrace DecoderQueue
  DecoderDiscipline DecoderLifecycle DecoderOperations

variable {M : Bool} {s t : ReceiverSession} {o : LifecycleThread}
  {contract : MediaContract} {lifecycle : ReceiverLifecycleState}

/-- What is known when a flushed codec was started again. -/
def emptied : Known := { queue := true }

theorem emptied_fits (r : Runtime) : emptied.Fits .network r :=
  ⟨fun h => (by cases h), fun h => (by cases h), fun h => (by cases h), fun _ => rfl⟩

theorem flushDecoderLocked_outline : (discipline M).Outline (ofThread .network)
    (Inside (M = true) .network .running) flushDecoderLocked
    (fun _ s => Inside (M = true) .network .running s ∨
      Inside (M = true) .network emptied s) := by
  unfold flushDecoderLocked
  refine .any fun contract => .any fun lifecycle => .when fun hvalid => .either ?_ ?_
  · refine .when fun _ => ?_
    refine outline_load (x := none) absent_fits
      (fun s h => congrArg Runtime.decoder h) ?_
    have hgate (g : DecoderLifecycleState) :
        Known.idle.Fits .network ⟨g, none, contract, lifecycle, {}⟩ := .idle (.inr (.inl rfl)) rfl
    refine .bind (setGate_closed (by decide) absent_fits) fun _ => ?_
    refine .bind (clearDecoderQueues_outline (hgate _) (by simp)) fun _ => ?_
    refine .bind (setGate_closed (by decide) ⟨fun _ => .inr (.inl rfl), fun _ => rfl,
      fun _ => rfl, fun _ => rfl⟩) fun _ => ?_
    exact (recreate_outline true).weaken (fun _ _ hp => hp.idle rfl rfl rfl)
      fun _ _ _ h => .inl (h.inside hvalid .inl)
  · refine .when fun hruns => .any fun decoder => ?_
    refine outline_load (x := some decoder) .running (fun s h => congrArg Runtime.decoder h) ?_
    refine .bind (setGate_closed (by decide) .running) fun _ => ?_
    refine .bind (clearDecoderQueues_outline (Known.Fits.running) (by simp)) fun _ => ?_
    refine (restart_outline decoder).weaken (fun _ _ h => h) fun _ _ _ h => h.imp
      (fun h => h.inside hvalid .inl) fun hp => ⟨contract, lifecycle, hvalid, .inr ⟨hruns, decoder, hp⟩⟩

theorem flushDecoder_outline : (discipline M).Outline (ofThread .network) (Outside .network)
    flushDecoder (fun _ => Outside .network) := by
  unfold flushDecoder
  refine .bind lockLifecycle_outline fun _ => ?_
  refine .bind flushDecoderLocked_outline fun recovered => ?_
  refine .bind (.either (requireCodecData_inside fun _ => .running)
    (requireCodecData_inside emptied_fits)) fun _ => ?_
  refine .bind unlockLifecycle_outline fun _ => ?_
  refine .bind (outline_outside (countResync_beside _)) fun _ => ?_
  refine .bind (outline_outside requestKeyframe_beside) fun _ => ?_
  exact .ret recovered Outside.stable fun _ _ h => h

/-- What `ReconfigureDecoder` does under the lifecycle lock. -/
def reconfigureLocked (contract : MediaContract) : Session Bool := do
  lockLifecycle .network
  let previous ← load (·.decoderMediaContract)
  destroyDecoderLocked
  modify fun s => { s with decoderMediaContract := contract }
  let shouldRun ← load (·.lifecycleState.decoderShouldRun)
  let prepared ← if shouldRun then createDecoderLocked else pure true
  if !prepared then modify fun s => { s with decoderMediaContract := previous }
  requireCodecData
  return prepared

theorem reconfigureDecoder_eq (h : isValidMediaContract contract = true) :
    reconfigureDecoder contract = (do
      let prepared ← reconfigureLocked contract
      unlockLifecycle
      countResync prepared
      requestKeyframe
      return prepared) := by
  unfold reconfigureDecoder reconfigureLocked
  rw [if_neg (by simp [h])]
  simp only [Program.bind_assoc]
  congr 1; funext _
  congr 1; funext previous
  congr 1; funext _
  congr 1; funext _
  congr 1; funext shouldRun
  cases shouldRun with
  | false => simp [Program.bind_assoc]
  | true =>
    simp only [if_true, Program.bind_assoc]
    congr 1; funext prepared
    cases prepared <;> simp [Program.bind_assoc]

theorem setContract_outline (contract' : MediaContract) :
    (discipline M).Outline (ofThread o) (Holds o (absent contract lifecycle) .idle)
      (modify fun s => { s with decoderMediaContract := contract' })
      (fun _ => Holds o (absent contract' lifecycle) .idle) :=
  modify_prepares absent_fits absent_fits (by simp [absent])
    (fun _ => ⟨rfl, rfl, rfl, rfl, rfl, rfl, rfl, rfl⟩)
    fun _ h => congrArg (fun r => { r with contract := contract' }) h

/-- The codec is gone; one is created for the new contract, or the old one is put back. -/
theorem renew_outline (previous current : MediaContract)
    (hvalid : isValidMediaContract contract = true) :
    (discipline M).Outline (ofThread .network) (Holds .network (absent current lifecycle) .idle)
      (do
        modify fun s => { s with decoderMediaContract := contract }
        let shouldRun ← load (·.lifecycleState.decoderShouldRun)
        let prepared ← if shouldRun then createDecoderLocked else pure true
        if !prepared then modify fun s => { s with decoderMediaContract := previous }
        requireCodecData
        return prepared)
      (fun prepared => Inside (M = true ∨ prepared = true) .network .running) := by
  have hrest (prepared : Bool) : (discipline M).Outline (ofThread .network)
      (Inside (M = true ∨ prepared = true) .network .running)
      (requireCodecData >>= fun _ => .ret prepared)
      (fun prepared => Inside (M = true ∨ prepared = true) .network .running) :=
    .bind (requireCodecData_inside fun _ => .running) fun _ =>
      .ret prepared (Inside.stable fun _ => .running) fun _ _ h => h
  have hprepared (prepared : Bool) : (discipline M).Outline (ofThread .network)
      (Recreated M .network true contract lifecycle prepared)
      (do
        if !prepared then modify fun s => { s with decoderMediaContract := previous }
        requireCodecData
        return prepared)
      (fun prepared => Inside (M = true ∨ prepared = true) .network .running) := by
    cases prepared with
    | true => exact (hrest true).weaken (fun _ _ h => h.inside (fun _ => hvalid) id) fun _ _ _ h => h
    | false =>
      refine .weaken (.when fun hm => .bind (setContract_outline previous) fun _ =>
        (hrest false).weaken (fun s _ hp => ?_) fun _ _ _ h => h)
        (fun _ _ h => h.fails hvalid) fun _ _ _ h => h
      have hno : ¬ (M = true ∨ false = true) := by simp [hm]
      exact ⟨previous, lifecycle, fun h => absurd h hno, .inl ⟨fun h => absurd h hno, hp⟩⟩
  refine .bind (setContract_outline contract) fun _ => ?_
  have hrecreated : (discipline M).Outline (ofThread .network)
      (Holds .network (absent contract lifecycle) .idle) _
      (Recreated M .network true contract lifecycle) := recreate_outline true
  have hcreated := hrecreated.bind hprepared
  rw [Program.bind_assoc] at hcreated
  convert hcreated using 2
  funext shouldRun
  cases shouldRun <;> rfl

/-- Where the reconfiguration succeeds a codec is there whenever it should run. -/
theorem reconfigureLocked_outline (hvalid : isValidMediaContract contract = true) :
    (discipline M).Outline (ofThread .network) (Outside .network) (reconfigureLocked contract)
      (fun prepared => Inside (M = true ∨ prepared = true) .network .running) := by
  unfold reconfigureLocked
  refine .bind lockLifecycle_outline fun _ => ?_
  refine .any fun current => .any fun lifecycle => .when fun _ => .either ?_ ?_
  · refine .when fun _ => ?_
    refine outline_load (x := current) absent_fits (fun s h => congrArg Runtime.contract h) ?_
    refine .bind (destroyDecoderLocked_outline absent_fits fun _ => ⟨rfl, rfl⟩) fun _ => ?_
    exact renew_outline current current hvalid
  · refine .when fun _ => .any fun decoder => ?_
    refine outline_load (x := current) .running (fun s h => congrArg Runtime.contract h) ?_
    refine .bind (destroyDecoderLocked_outline .running fun h => by cases h) fun _ => ?_
    exact renew_outline current current hvalid

theorem reconfigureDecoder_outline (contract : MediaContract) :
    (discipline M).Outline (ofThread .network) (Outside .network) (reconfigureDecoder contract)
      (fun _ => Outside .network) := by
  by_cases hvalid : isValidMediaContract contract = true
  · rw [reconfigureDecoder_eq hvalid]
    refine .bind (reconfigureLocked_outline hvalid) fun prepared => ?_
    refine .bind (unlockLifecycle_outline.weaken (fun _ _ h => h.mono .inl) fun _ _ _ h => h)
      fun _ => ?_
    refine .bind (outline_outside (countResync_beside _)) fun _ => ?_
    refine .bind (outline_outside requestKeyframe_beside) fun _ => ?_
    exact .ret prepared Outside.stable fun _ _ h => h
  · have hnote : (modify fun s => s.note (.prepared false)).Every Beside :=
      (every_critical _).mpr fun _ _ =>
        ⟨rfl, rfl, rfl, rfl, rfl, rfl, fun _ h => stageOf_note h rfl⟩
    unfold reconfigureDecoder
    rw [if_pos (by simpa using hvalid)]
    refine .bind (outline_outside hnote) fun _ => ?_
    exact .ret false Outside.stable fun _ _ h => h

/-- A callback is refused and changes nothing, or the decoder is reconciled with the new
state; a codec that stays keeps its surface. -/
theorem decide_cases (event : LifecycleEvent) (l : ReceiverLifecycleState)
    (decoder : DecoderRuntimeSnapshot) :
    event.decide l decoder = ({}, l) ∨ ∃ changed l',
      event.decide l decoder = (l'.reconcile true changed decoder, l') ∧
        (changed = false → l'.surface = l.surface) := by
  cases event with
  | surfaceCreated component surface =>
    simp only [LifecycleEvent.decide, ReceiverLifecycleState.surfaceCreated]
    split
    · exact .inl rfl
    · refine .inr ⟨_, _, rfl, fun h => ?_⟩
      simp only [Bool.or_eq_false_iff, bne_eq_false_iff_eq] at h
      exact h.2
  | surfaceChanged component surface =>
    simp only [LifecycleEvent.decide, ReceiverLifecycleState.surfaceChanged]
    split
    · exact .inl rfl
    · refine .inr ⟨_, _, rfl, fun h => ?_⟩
      simp only [Bool.or_eq_false_iff, bne_eq_false_iff_eq] at h
      exact h.2
  | surfaceDestroyed component surface =>
    simp only [LifecycleEvent.decide, ReceiverLifecycleState.surfaceDestroyed]
    split
    · exact .inl rfl
    · exact .inr ⟨_, _, rfl, fun h => by cases h⟩
  | foreground => exact .inr ⟨_, _, rfl, fun _ => rfl⟩
  | background => exact .inr ⟨_, _, rfl, fun _ => rfl⟩

/-- Reconciling without a codec. -/
theorem reconcile_absent (changed : Bool)
    (hvalid : M = true → isValidMediaContract contract = true) :
    (discipline M).Outline (ofThread o) (Holds o (absent contract lifecycle) .idle)
      (applyLifecycleDecisionLocked (lifecycle.reconcile true changed ⟨.stopped, false⟩))
      (fun _ => Inside (M = true) o .running) := by
  have hdecision : lifecycle.reconcile true changed ⟨.stopped, false⟩ =
      ⟨true, false, lifecycle.decoderShouldRun⟩ := by simp [ReceiverLifecycleState.reconcile]
  rw [hdecision]
  by_cases hruns : lifecycle.decoderShouldRun = true
  · rw [hruns]
    exact createDecoderLocked_outline.weaken (fun _ _ h => h) fun _ _ _ h => h.inside hvalid .inl
  · have hstays : lifecycle.decoderShouldRun = false := by simpa using hruns
    rw [hstays]
    exact .ret false (Holds.stable absent_fits) fun s _ hp =>
      ⟨contract, lifecycle, hvalid, .inl ⟨fun _ => hstays, hp⟩⟩

/-- Reconciling with a codec that runs: it stays, is given up, or is replaced. -/
theorem reconcile_present (changed : Bool) (decoder : Nat) {l' : ReceiverLifecycleState}
    (hvalid : M = true → isValidMediaContract contract = true)
    (hsurface : changed = false → l'.surface = lifecycle.surface) :
    (discipline M).Outline (ofThread o)
      (Holds o { present decoder contract lifecycle with lifecycle := l' } .running)
      (applyLifecycleDecisionLocked (l'.reconcile true changed ⟨.running, true⟩))
      (fun _ => Inside (M = true) o .running) := by
  have hdestroyed := destroyDecoderLocked_outline (M := M) (o := o)
    (r := { present decoder contract lifecycle with lifecycle := l' }) .running fun h => by cases h
  have hdecision : l'.reconcile true changed ⟨.running, true⟩ =
      ⟨true, !l'.decoderShouldRun || changed, l'.decoderShouldRun && changed⟩ := by
    simp [ReceiverLifecycleState.reconcile]
  rw [hdecision]
  by_cases hruns : l'.decoderShouldRun = true
  · rw [hruns]
    cases changed with
    | false =>
      refine .ret false (Holds.stable .running) fun s _ hp =>
        ⟨contract, l', hvalid, .inr ⟨hruns, decoder, ?_⟩⟩
      rw [present, hsurface rfl]
      exact hp
    | true =>
      refine .bind hdestroyed fun _ => ?_
      exact createDecoderLocked_outline.weaken (fun _ _ h => h) fun _ _ _ h => h.inside hvalid .inl
  · have hstops : l'.decoderShouldRun = false := by simpa using hruns
    rw [hstops]
    refine .bind hdestroyed fun _ => ?_
    exact .ret false (Holds.stable absent_fits) fun s _ hp =>
      ⟨contract, l', hvalid, .inl ⟨fun _ => hstops, hp⟩⟩

/-- The section that asks for the decision, and what comes of it. -/
theorem decision_outline (event : LifecycleEvent) :
    (discipline M).Outline (ofThread o) (Inside (M = true) o .running)
      (do
        let decision ← Program.critical fun _ s =>
          let (decision, lifecycleState) :=
            event.decide s.lifecycleState ⟨s.decoderCallbackGate, s.decoder.isSome⟩
          (decision, { s with lifecycleState := lifecycleState })
        applyLifecycleDecisionLocked decision)
      (fun _ => Inside (M = true) o .running) := by
  have hsection {r : Runtime} {k : Known} (hk : ∀ l, k.Fits o { r with lifecycle := l }) :
      (discipline M).Outline (ofThread o) (Holds o r k)
        (Program.critical fun _ s =>
          let (decision, lifecycleState) :=
            event.decide s.lifecycleState ⟨s.decoderCallbackGate, s.decoder.isSome⟩
          (decision, { s with lifecycleState := lifecycleState }))
        (fun decision s =>
          decision = (event.decide r.lifecycle ⟨r.gate, r.decoder.isSome⟩).1 ∧
            Holds o { r with lifecycle :=
              (event.decide r.lifecycle ⟨r.gate, r.decoder.isSome⟩).2 } k s) := by
    refine outline_owned (hk r.lifecycle) (fun _ => hk _) fun _ s hs hp _ => ?_
    obtain rfl := hp.runtime
    exact ⟨rfl, ⟨⟨hs.traced, hs.agreed, hs.slots, hs.calling⟩, List.suffix_rfl, fun _ => Iff.rfl⟩,
      { hp with runtime := rfl }⟩
  refine .any fun contract => .any fun lifecycle => .when fun hvalid => .either ?_ ?_
  · refine .when fun hruns => .bind (hsection fun _ => absent_fits) fun decision => .when ?_
    rintro rfl
    rcases decide_cases event lifecycle ⟨.stopped, false⟩ with heq | ⟨changed, l', heq, -⟩
    · simp only [absent, Option.isSome_none, heq]
      exact .ret false (Holds.stable absent_fits) fun s _ hp =>
        ⟨contract, lifecycle, hvalid, .inl ⟨hruns, hp⟩⟩
    · simp only [absent, Option.isSome_none, heq]
      exact reconcile_absent changed hvalid
  · refine .when fun hruns => .any fun decoder =>
      .bind (hsection fun _ => .running) fun decision => .when ?_
    rintro rfl
    rcases decide_cases event lifecycle ⟨.running, true⟩ with heq | ⟨changed, l', heq, hsurface⟩
    · simp only [present, Option.isSome_some, heq]
      exact .ret false (Holds.stable .running) fun s _ hp =>
        ⟨contract, lifecycle, hvalid, .inr ⟨hruns, decoder, hp⟩⟩
    · simp only [present, Option.isSome_some, heq]
      exact reconcile_present changed decoder hvalid hsurface

theorem onLifecycleEvent_outline (event : LifecycleEvent) :
    (discipline M).Outline (ofThread .surface) (Outside .surface) (onLifecycleEvent event)
      (fun _ => Outside .surface) := by
  unfold onLifecycleEvent
  refine .bind lockLifecycle_outline fun _ => ?_
  rw [← Program.bind_assoc]
  refine .bind (decision_outline event) fun decoderStarted => ?_
  refine .bind unlockLifecycle_outline fun _ => ?_
  have hkeyframe : (discipline M).Outline (ofThread .surface) (Outside .surface)
      (if decoderStarted then requestKeyframe else .ret ()) (fun _ => Outside .surface) := by
    split
    · exact outline_outside requestKeyframe_beside
    · exact .ret () Outside.stable fun _ _ h => h
  cases event with
  | surfaceDestroyed | background => exact .ret () Outside.stable fun _ _ h => h
  | surfaceCreated | surfaceChanged | foreground => exact hkeyframe

end HarmonyScreen.Proofs.DecoderEntries
