import HarmonyScreen.Lib.Rely
import HarmonyScreen.Proofs.DecodeChain
import HarmonyScreen.Proofs.InputGrammar

namespace HarmonyScreen.Proofs.DependencyChain
open Lib Program Receiver ReceiverSession Effects Protocol DecodeChain

variable {decoder epoch : Nat} {pending : List Nat} {s t u : ReceiverSession}
  {log : List Observation}

/-- The threads that feed a decoder: video messages in order, slots from any callback thread. -/
def feed : DecoderThread → DecoderJob → Session Unit
  | .network, .video data => handleVideo data
  | .codec n, .needInput decoder slot => needInputCallback n decoder slot
  | _, _ => .ret ()

def offered (s : ReceiverSession) (_ : DecoderThread) (job : DecoderJob) : Prop :=
  ∀ data, job = .video data → WellFormed s.activeSourceEpoch data

/-- Between the sections of one thread another one may pump. -/
structure Rely (s t : ReceiverSession) : Prop where
  setting : setting t = setting s
  received : received t.log = received s.log
  grows : s.log <+: t.log
  linked : ∀ pending, Fair t.log → Linked pending s → Linked pending t ∧ Forward s t

theorem Rely.refl (s : ReceiverSession) : Rely s s where
  setting := rfl
  received := rfl
  grows := List.prefix_rfl
  linked _ _ h := ⟨h, .refl s⟩

theorem Rely.trans (h : Rely s t) (h' : Rely t u) : Rely s u where
  setting := h'.setting.trans h.setting
  received := h'.received.trans h.received
  grows := h.grows.trans h'.grows
  linked pending hfair hs := by
    obtain ⟨ht, hst⟩ := h.linked pending (hfair.earlier h'.grows) hs
    obtain ⟨hu, htu⟩ := h'.linked pending hfair ht
    exact ⟨hu, hst.trans htu⟩

theorem Rely.frames (h : Rely s t) : t.receivedFrames = s.receivedFrames :=
  congrArg (·.2.2.2) h.setting

def Fed (s : ReceiverSession) : Prop := Fair s.log → NoHole s.log

/-- The decoder runs, and as long as the run is fair, this holds. -/
def whileFair (decoder epoch : Nat) (fact : ReceiverSession → Prop)
    (keep : ∀ {s t}, Rely s t → Fair t.log → fact s → fact t)
    (safe : ∀ {s}, fact s → NoHole s.log) : Assertion Rely Fed where
  holds s := Running decoder epoch s ∧ (Fair s.log → fact s)
  stable h r := ⟨h.1.keep r.setting, fun hfair => keep r hfair (h.2 (hfair.earlier r.grows))⟩
  safe h hfair := safe (h.2 hfair)

/-- No message is being handled. -/
def waiting (decoder epoch : Nat) : Assertion Rely Fed :=
  whileFair decoder epoch (Linked []) (fun r hfair h => (r.linked [] hfair h).1) (·.history)

/-- The message has its number. -/
def numbered (decoder epoch arrival : Nat) : Assertion Rely Fed :=
  whileFair decoder epoch
    (fun s => Linked [] s ∧ (∀ b ∈ received s.log, b < arrival) ∧ arrival ≤ s.receivedFrames)
    (fun r hfair h => ⟨(r.linked [] hfair h.1).1, r.received ▸ h.2.1, r.frames ▸ h.2.2⟩)
    (·.1.history)

/-- The message was received, and the recovery state had come this far. -/
def handling (decoder epoch arrival : Nat) (state : DecoderRecoveryState) : Assertion Rely Fed :=
  whileFair decoder epoch (fun s => Linked [arrival] s ∧ AtLeast state s)
    (fun r hfair h =>
      have hlinked := r.linked [arrival] hfair h.1
      ⟨hlinked.1, hlinked.2 state h.2⟩)
    (·.1.history)

/-- An ordinary frame that comes before the sync frame is not waited for. -/
def observed (decoder epoch arrival : Nat) (keyframe : Bool) (state : DecoderRecoveryState) :
    Assertion Rely Fed :=
  if keyframe = false ∧ state ≠ .ready then waiting decoder epoch
  else handling decoder epoch arrival state

theorem aside_waiting {p : Session α} (hp : p.Every fun s t =>
    t.log = s.log ∧ t.decodeQueue = s.decodeQueue ∧
      t.decoderRecovery.state = s.decoderRecovery.state ∧ s.receivedFrames ≤ t.receivedFrames ∧
      t.decoderCallbackGate = s.decoderCallbackGate ∧ t.decoder = s.decoder ∧
      t.activeSourceEpoch = s.activeSourceEpoch) :
    Triple (waiting decoder epoch) p (fun _ => waiting decoder epoch) := by
  apply Triple.every hp
  rintro s t ⟨hr, hs⟩ ⟨hl, hq, hstate, hf, hgate, hcurrent, hepoch⟩
  refine ⟨⟨hgate.trans hr.gate, hcurrent.trans hr.current, hepoch.trans hr.epoch⟩, fun hfair => ?_⟩
  exact (hs (hl ▸ hfair)).same hl hq hstate hf

theorem drop_waiting :
    Triple (waiting decoder epoch) (modify drop) (fun _ => waiting decoder epoch) :=
  aside_waiting (modify_every fun _ => ⟨rfl, rfl, rfl, le_refl _, rfl, rfl, rfl⟩)

theorem requestKeyframe_waiting :
    Triple (waiting decoder epoch) requestKeyframe (fun _ => waiting decoder epoch) :=
  aside_waiting (modify_every fun _ => ⟨rfl, rfl, rfl, le_refl _, rfl, rfl, rfl⟩)

theorem countFrame_numbers (length : Nat) :
    Triple (waiting decoder epoch) (countFrame length) (numbered decoder epoch) := by
  apply Triple.critical
  intro e s hs
  obtain ⟨hr, hlinked⟩ := hs
  refine ⟨⟨hr.gate, hr.current, hr.epoch⟩, fun hfair => ?_⟩
  have h := hlinked hfair
  refine ⟨h.same rfl rfl rfl (Nat.le_succ _), fun b hb => ?_, le_refl _⟩
  have hle := h.counted b hb
  dsimp only at hb ⊢
  omega

theorem observeRecovery_observes (arrival : Nat) (keyframe : Bool) :
    Triple (numbered decoder epoch arrival) (observeRecovery arrival keyframe)
      (observed decoder epoch arrival keyframe) := by
  apply Triple.critical
  intro e s hs
  obtain ⟨hr, hfact⟩ := hs
  have hlinked (hfair : Fair (s.log ++ [.arrived arrival keyframe s.decoderRecovery.state
      (s.decodeQueue.any (·.kind == .syncFrame))])) :
      Linked [arrival] (s.note (.arrived arrival keyframe s.decoderRecovery.state
        (s.decodeQueue.any (·.kind == .syncFrame)))) := by
    obtain ⟨h, hlt, hle⟩ := hfact (hfair.earlier (List.prefix_append _ _))
    exact h.receive hlt hle
  rw [observed]
  split
  · rename_i hearly
    obtain ⟨rfl, hready⟩ := hearly
    refine ⟨⟨hr.gate, hr.current, hr.epoch⟩, fun hfair => ?_⟩
    have h := hlinked hfair
    have hmem := hfair.timely _ (List.mem_append_right _ List.mem_cons_self)
    have hnone : s.decodeQueue.any (·.kind == .syncFrame) = false := by
      simpa [timely, hready] using hmem
    obtain ⟨hstate, hempty⟩ := h.queued.early hready hnone
    exact h.idle hempty hstate h.history rfl rfl
  · refine ⟨⟨hr.gate, hr.current, hr.epoch⟩, fun hfair => ⟨hlinked hfair, ?_⟩⟩
    exact .of_state rfl

theorem submitFrame_waiting {frame : DecodedInput} {arrival : Nat} {state : DecoderRecoveryState}
    (ha : frame.arrival = arrival)
    (hk : frame.kind = .syncFrame ∧ state ≠ .needsCodecData ∨ frame.kind = .frame ∧ state = .ready) :
    Triple (handling decoder epoch arrival state) (submitFrame frame)
      (fun _ => waiting decoder epoch) := by
  subst ha
  apply Triple.critical
  intro e s hs
  obtain ⟨hr, hfact⟩ := hs
  have hfeeds := submitFrameLocked_feeds frame s
  obtain ⟨os, hlog, -⟩ := hfeeds.log
  refine ⟨hr.keep (submitFrameLocked_setting frame s), fun hfair => ?_⟩
  obtain ⟨hlinked, hstate⟩ := hfact (hfair.earlier ⟨os, hlog.symm⟩)
  have hinput : frame.kind ≠ .codecData := by
    rcases hk with h | h <;> simp [h.1]
  exact submitFrameLocked_linked hr hlinked (hstate.allows hk) hinput hfair

/-- A keyframe whose recovery state is codec data has come is submitted, or the run is not fair. -/
theorem submitRecovery_waiting {codecData syncFrame : DecodedInput} {arrival : Nat}
    (ha : syncFrame.arrival = arrival) (hconfig : codecData.kind = .codecData)
    (hsync : syncFrame.kind = .syncFrame)
    (hdata : codecData.bytes ≠ []) (hframe : syncFrame.bytes ≠ []) :
    Triple (handling decoder epoch arrival .needsCodecData)
      (submitRecovery codecData syncFrame) (fun _ => waiting decoder epoch) := by
  subst ha
  apply Triple.critical
  intro e s hs
  obtain ⟨hr, hfact⟩ := hs
  refine ⟨hr.keep (submitRecoveryLocked_setting codecData syncFrame s), fun hfair => ?_⟩
  have hgrows := log_submitRecoveryLocked codecData syncFrame s
  have hdue : s.decoderRecovery.state = .needsCodecData := by
    have hmem := hgrows.subset (List.mem_append_right _ List.mem_cons_self)
    simpa [timely] using hfair.timely _ hmem
  have hearlier : Fair s.log := hfair.earlier ((List.prefix_append _ _).trans hgrows)
  exact submitRecoveryLocked_linked hr (hfact hearlier).1 hdue hconfig hsync hdata hframe hfair

theorem handleVideo_waiting {data : Bytes} (h : WellFormed epoch data) :
    Triple (waiting decoder epoch) (handleVideo data) (fun _ => waiting decoder epoch) := by
  obtain ⟨header, hheader, hepoch, hkeyframe⟩ := h
  have hload : Triple (waiting decoder epoch) (load (·.activeSourceEpoch))
      (fun active => (waiting decoder epoch).when (active = epoch)) :=
    .critical fun _ s hs => ⟨hs.1.epoch, hs⟩
  unfold handleVideo
  refine .bind .refl hload fun active => .when fun hactive => ?_
  rw [hheader]
  dsimp only
  rw [if_neg (by simp [hepoch, hactive])]
  refine .bind .refl (countFrame_numbers _) fun arrival => ?_
  have hrunning : Triple (numbered decoder epoch arrival)
      (load fun s => s.callbacksAllowed && s.decoder.isSome)
      (fun running => (numbered decoder epoch arrival).when (running = true)) :=
    .critical fun _ s hs => ⟨by simp [hs.1.allowed, hs.1.current], hs⟩
  refine .bind .refl hrunning fun running => .when fun hgo => ?_
  rw [hgo, if_neg (by simp)]
  refine .bind .refl (observeRecovery_observes arrival _) fun state => ?_
  by_cases hkey : header.flags &&& kKeyframe ≠ 0
  · obtain ⟨units, hunits, hpayload⟩ := hkeyframe hkey
    obtain ⟨hcomplete, hdata, hframe⟩ := recovery_parts hunits
    rw [hpayload]
    have hobserved : observed decoder epoch arrival (decide (header.flags &&& kKeyframe ≠ 0)) state =
        handling decoder epoch arrival state := by
      rw [observed, if_neg (by simp [hkey])]
    rw [hobserved]
    cases state with
    | needsCodecData =>
      rw [if_pos rfl, if_neg (by simp [hkey, hcomplete])]
      refine .bind .refl (submitRecovery_waiting rfl rfl rfl hdata hframe) fun submitted => ?_
      split
      · exact .ret _ fun _ hs => hs
      · exact requestKeyframe_waiting
    | needsSyncFrame =>
      rw [if_neg (by decide), if_neg (by simp [hkey])]
      exact submitFrame_waiting rfl (.inl ⟨by simp [hkey], by decide⟩)
    | ready =>
      rw [if_neg (by decide), if_neg (by simp [hkey])]
      exact submitFrame_waiting rfl (.inl ⟨by simp [hkey], by decide⟩)
  · cases state with
    | needsCodecData =>
      rw [observed, if_pos ⟨by simp [hkey], by decide⟩, if_pos rfl, if_pos (.inl (by simp [hkey]))]
      exact .bind .refl drop_waiting fun _ => requestKeyframe_waiting
    | needsSyncFrame =>
      rw [observed, if_pos ⟨by simp [hkey], by decide⟩, if_neg (by decide),
        if_pos ⟨rfl, by simp [hkey]⟩]
      exact .bind .refl drop_waiting fun _ => requestKeyframe_waiting
    | ready =>
      rw [observed, if_neg (by simp), if_neg (by decide), if_neg (by simp)]
      exact submitFrame_waiting rfl (.inr ⟨by simp [hkey], rfl⟩)

theorem received_pumped (h : Pumped s t) : received t.log = received s.log := by
  obtain ⟨os, hlog, hos⟩ := h.log
  have hnone : received os = [] := by
    apply List.filterMap_eq_nil_iff.mpr
    intro o ho
    cases hos o ho with
    | popped => rfl
    | pushed => rfl
  rw [hlog, received_append, hnone, List.append_nil]

/-- A slot that comes in between is admitted and pumped. -/
theorem admitSlot_rely (decoder : Nat) (slot : InputSlot) (s : ReceiverSession) :
    Rely s (admitSlot decoder slot s) := by
  have hreceived : received (s.log ++ [.admitted slot]) = received s.log := by
    simp [received, receivedArrival]
  constructor
  · exact pumpLoop_setting _ _ _
  · exact (received_pumped (pumpDecoderLocked_pumped _ _)).trans hreceived
  · refine List.IsPrefix.trans ?_ (log_pumpLoop _ _ _)
    exact List.prefix_append _ _
  · intro pending hfair h
    refine pumpLoop_linked decoder _ ?_ hfair
    exact h.note rfl rfl (fun _ => rfl) (fun _ => trivial) rfl rfl rfl

/-- A section that does not concern the queue. -/
theorem Rely.aside (hs : DecodeChain.setting t = DecodeChain.setting s) (hl : t.log = s.log)
    (hq : t.decodeQueue = s.decodeQueue)
    (hstate : t.decoderRecovery.state = s.decoderRecovery.state) : Rely s t where
  setting := hs
  received := congrArg _ hl
  grows := hl ▸ List.prefix_rfl
  linked pending hfair h := by
    have hframes : t.receivedFrames = s.receivedFrames := congrArg (·.2.2.2) hs
    refine ⟨h.same hl hq hstate hframes.ge, fun state hat => ?_⟩
    cases state with
    | needsCodecData => trivial
    | needsSyncFrame => exact fun hdue => hat (hstate.symm.trans hdue)
    | ready => exact hstate.trans hat

theorem decoderNeedInput_rely (decoder : Nat) (slot : InputSlot) :
    (decoderNeedInput decoder slot).Every Rely := by
  unfold decoderNeedInput
  refine (load_every _ Rely.refl).bind fun allowed => ?_
  split
  · exact every_ret _
  · refine modify_every fun s => ?_
    split
    · exact .refl s
    · exact admitSlot_rely decoder slot s

theorem needInputCallback_rely (caller decoder : Nat) (slot : InputSlot) :
    (needInputCallback caller decoder slot).Every Rely := by
  unfold needInputCallback
  have hreturn : (modify fun s => { s with avCodec := { s.avCodec with
      callbacks := s.avCodec.callbacks.filter (· != caller) } }).Every Rely :=
    modify_every fun _ => .aside rfl rfl rfl rfl
  intro s e _
  exact ⟨.aside rfl rfl rfl rfl, (decoderNeedInput_rely decoder slot).bind fun _ => hreturn⟩

theorem feed_rely (i : DecoderThread) (job : DecoderJob) (hi : i ≠ .network) :
    (feed i job).Every Rely := by
  unfold feed
  split
  · exact absurd rfl hi
  · exact needInputCallback_rely _ _ _
  · exact every_ret _

theorem waiting_of_begins (h : Begins decoder epoch s) :
    (waiting decoder epoch).holds s := by
  refine ⟨h.toRunning, fun _ => ⟨?_, ?_, ?_, List.nil_suffix, ?_⟩⟩
  · rw [h.log]
    exact .nil
  · rw [h.log]
    exact .nil
  · rw [h.log]
    intro a ha
    cases ha
  · rw [h.due]
    exact .inl h.queue

/-- While a decoder that was just started is fed, with slots large enough and pushes that
succeed, no ordinary frame is pushed behind a dropped one if nothing came too early. -/
theorem no_hole_of_timely (hs : Begins decoder epoch s)
    {c : Config DecoderThread ReceiverSession External}
    (hc : Config.Reaches feed offered (Config.idle s) c) (hroomy : Roomy c.state.log)
    (htimely : Timely c.state.log) : NoHole c.state.log := by
  have hstable : ∀ t u, (waiting decoder epoch).holds t → Rely t u →
      (waiting decoder epoch).holds u := fun _ _ => (waiting decoder epoch).stable
  have hsafe : ∀ t, (waiting decoder epoch).holds t → Fed t := fun _ => (waiting decoder epoch).safe
  have hfed : Fed c.state := by
    refine Config.Reaches.safe (m := .network) Rely.refl (fun h h' => h.trans h') hstable hsafe
      (fun t job ht ok => ?_) feed_rely (waiting_of_begins hs) hc
    cases job with
    | video data =>
      have hwell : WellFormed epoch data := ht.1.epoch ▸ ok data rfl
      exact handleVideo_waiting hwell t ht
    | _ => exact fun u hu => ⟨hsafe u (hstable t u ht hu), hstable t u ht hu⟩
  exact hfed ⟨hroomy, htimely⟩

instance (log : List Observation) : Decidable (Roomy log) :=
  inferInstanceAs (Decidable (∀ o ∈ log, _))

instance (log : List Observation) : Decidable (Timely log) :=
  inferInstanceAs (Decidable (∀ o ∈ log, _))

instance (earlier : List Observation) (arrival : Nat) : Decidable (Whole earlier arrival) :=
  match h : chain earlier with
  | none => isFalse fun ⟨_, _, hchain, _⟩ => by simp [hchain] at h
  | some (sync, since) =>
    decidable_of_iff (since ++ [arrival] = (received earlier).filter fun a => sync < a ∧ a ≤ arrival)
      ⟨fun hwhole => ⟨sync, since, h, hwhole⟩, fun ⟨_, _, hchain, hwhole⟩ => by
        cases h.symm.trans hchain
        exact hwhole⟩

instance (earlier : List Observation) (o : Observation) : Decidable (Allowed earlier o) := by
  cases o <;> unfold Allowed <;> infer_instance

instance (log : List Observation) : Decidable (NoHole log) :=
  inferInstanceAs (Decidable (History Allowed log))

/-- A decoder that was just started. -/
def started : ReceiverSession where
  decoderCallbackGate := .running
  decoder := some 7
  activeSourceEpoch := 1
  avCodec := { address := 7, started := true }

theorem started_begins : Begins 7 1 started := ⟨⟨rfl, rfl, rfl⟩, rfl, rfl, rfl⟩

/-- The sample messages, and any slots. -/
def sampled (s : ReceiverSession) (_ : DecoderThread) : DecoderJob → Bool
  | .video data => s.activeSourceEpoch == 1 &&
      (data == InputGrammar.keyframeMessage || data == InputGrammar.frameMessage)
  | _ => true

theorem keyframeMessage_wellFormed : WellFormed 1 InputGrammar.keyframeMessage := by
  refine ⟨⟨1, 1, 1, 15, 0⟩, by decide, rfl, fun _ => ?_⟩
  refine ⟨[⟨false, 0x67, [1], by decide, by decide⟩, ⟨false, 0x68, [1], by decide, by decide⟩,
    ⟨false, 0x65, [1], by decide, by decide⟩], by decide, by decide⟩

theorem frameMessage_wellFormed : WellFormed 1 InputGrammar.frameMessage := by
  refine ⟨⟨1, 2, 0, 5, 0⟩, by decide, rfl, fun hkey => ?_⟩
  exact absurd rfl hkey

theorem sampled_offered (s : ReceiverSession) (i : DecoderThread) (job : DecoderJob)
    (h : sampled s i job = true) : offered s i job := by
  rintro data rfl
  simp only [sampled, Bool.and_eq_true, Bool.or_eq_true, beq_iff_eq] at h
  obtain ⟨hepoch, rfl | rfl⟩ := h
  · rw [hepoch]
    exact keyframeMessage_wellFormed
  · rw [hepoch]
    exact frameMessage_wellFormed

/-- Three slots of a hundred bytes. -/
def threeSlots : List (Move DecoderThread External DecoderJob) :=
  InputGrammar.runJob (.codec 0) (.needInput 7 ⟨0, 100, true, true⟩) ++
    InputGrammar.runJob (.codec 1) (.needInput 7 ⟨1, 100, true, true⟩) ++
    InputGrammar.runJob (.codec 2) (.needInput 7 ⟨2, 100, true, true⟩)

theorem sampled_run {moves : List (Move DecoderThread External DecoderJob)}
    {P : ReceiverSession → Bool}
    (h : (Config.follow feed (fun s i job => sampled s i job = true) (fun _ _ _ => True) moves
      (Config.idle started)).any (fun c => P c.state) = true) :
    ∃ c, Config.Reaches feed offered (Config.idle started) c ∧ P c.state = true := by
  obtain ⟨c, hc, hend⟩ := (Option.any_eq_true _ _).mp h
  have hreach := Config.ReachesOffered.follow .refl moves hc
  exact ⟨c, (hreach.weaken sampled_offered fun _ _ _ ok => ok).reaches, hend⟩

/-- The slots, a keyframe and a frame. -/
theorem frame_follows_keyframe : ∃ c, Config.Reaches feed offered (Config.idle started) c ∧
    DecoderTrace.pushedKinds c.state.log = [.codecData, .syncFrame, .frame] ∧
      NoHole c.state.log := by
  have hrun : (Config.follow feed (fun s i job => sampled s i job = true) (fun _ _ _ => True)
      (threeSlots ++ InputGrammar.runJob .network (.video InputGrammar.keyframeMessage) ++
        InputGrammar.runJob .network (.video InputGrammar.frameMessage))
      (Config.idle started)).any (fun c =>
        DecoderTrace.pushedKinds c.state.log = [.codecData, .syncFrame, .frame] ∧
          Roomy c.state.log ∧ Timely c.state.log) = true := by
    decide +kernel
  obtain ⟨c, hc, hend⟩ := sampled_run (P := fun s =>
        DecoderTrace.pushedKinds s.log = [.codecData, .syncFrame, .frame] ∧
          Roomy s.log ∧ Timely s.log) hrun
  obtain ⟨hpushed, hroomy, htimely⟩ := of_decide_eq_true hend
  exact ⟨c, hc, hpushed, no_hole_of_timely started_begins hc hroomy htimely⟩

/-- A keyframe, a frame that is dropped while the sync frame waits, the slots, and the next
frame: it is pushed. -/
theorem frame_dropped_before_sync : ∃ c, Config.Reaches feed offered (Config.idle started) c ∧
    Roomy c.state.log ∧ ¬ NoHole c.state.log := by
  have hrun : (Config.follow feed (fun s i job => sampled s i job = true) (fun _ _ _ => True)
      (InputGrammar.runJob .network (.video InputGrammar.keyframeMessage) ++
        InputGrammar.runJob .network (.video InputGrammar.frameMessage) ++ threeSlots ++
        InputGrammar.runJob .network (.video InputGrammar.frameMessage))
      (Config.idle started)).any (fun c => Roomy c.state.log ∧ ¬ NoHole c.state.log) = true := by
    decide +kernel
  obtain ⟨c, hc, hend⟩ := sampled_run (P := fun s => Roomy s.log ∧ ¬ NoHole s.log) hrun
  exact ⟨c, hc, of_decide_eq_true hend⟩

end HarmonyScreen.Proofs.DependencyChain
