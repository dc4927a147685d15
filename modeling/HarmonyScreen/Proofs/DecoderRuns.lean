import HarmonyScreen.Proofs.DecoderEntries

namespace HarmonyScreen.Proofs.DecoderRuns
open Lib Program Receiver ReceiverSession DecoderSystem Effects Protocol DecoderTrace DecoderQueue
  DecoderDiscipline DecoderOperations DecoderEntries

variable {M : Bool} {s t : ReceiverSession} {o : LifecycleThread}

/-- A section of `HandleVideo`, in a state in which a slot is there only while the codec is
started. -/
def Feeds (s t : ReceiverSession) : Prop := Sane s → Feeding s t

theorem Feeds.refl (s : ReceiverSession) : Feeds s s := fun _ => .aside rfl rfl rfl rfl rfl rfl

theorem handleVideo_feeds (data : Bytes) : (handleVideo data).Every Feeds := by
  have hdrop : (modify drop).Every Feeds :=
    modify_every fun _ _ => .aside rfl rfl rfl rfl rfl rfl
  have hkeyframe : requestKeyframe.Every Feeds :=
    modify_every fun _ _ => .aside rfl rfl rfl rfl rfl rfl
  have hrequest : (modify drop >>= fun _ => requestKeyframe).Every Feeds :=
    hdrop.bind fun _ => hkeyframe
  refine (load_every _ Feeds.refl).bind fun epoch => ?_
  dsimp only
  split
  · exact hdrop
  split
  · exact hdrop
  refine Every.bind ((every_critical _).mpr fun _ _ _ => .aside rfl rfl rfl rfl rfl rfl)
    fun arrival => (load_every _ Feeds.refl).bind fun running => ?_
  split
  · exact hdrop
  refine Every.bind ((every_critical _).mpr fun s _ _ => .note _ (fun _ => rfl) s) fun state => ?_
  split
  · split
    · exact hrequest
    · refine Every.bind ((every_critical _).mpr fun s _ hs =>
        submitRecoveryLocked_feeding _ _ hs.slots) fun submitted => ?_
      split
      · exact every_ret _
      · exact hkeyframe
  · split
    · exact hrequest
    · exact modify_every fun s hs => submitFrameLocked_feeding _ hs.slots

theorem Feeding.gate (h : Feeding s t) : t.callbacksAllowed = s.callbacksAllowed := by
  rw [callbacksAllowed, callbacksAllowed, show t.decoderCallbackGate = s.decoderCallbackGate from
    congrArg Runtime.gate h.runtime]

theorem Feeding.sane (h : Feeding s t) (hs : Sane s) (hout : Outside .network s) : Sane t where
  traced := by
    cases hgate : s.callbacksAllowed with
    | false => exact h.closed hgate hs.traced
    | true =>
      rcases hs.agreed hgate with hagreed | ⟨hmutex, -⟩
      · exact (h.agreed hagreed).traced
      · exact absurd hmutex hout
  agreed hgate := by
    rw [Feeding.gate h] at hgate
    rcases hs.agreed hgate with hagreed | ⟨hmutex, -⟩
    · exact .inl (h.agreed hagreed)
    · exact absurd hmutex hout
  slots hne := by
    rw [h.codec]
    refine hs.slots fun hnone => hne ?_
    have hslots := h.slots
    rw [hnone] at hslots
    exact List.suffix_nil.mp hslots
  calling hgate hne := by
    rw [Feeding.gate h] at hgate
    rw [h.codec] at hne ⊢
    exact hs.calling hgate hne

theorem Feeding.invariant (h : Feeding s t) (hs : Invariant M s) (hout : Outside .network s) :
    Invariant M t := by
  refine ⟨Feeding.sane h hs.sane hout, fun hnone => ?_⟩
  have hfree := hs.free (h.mutex ▸ hnone)
  exact hfree.keep h.runtime fun hd hdue hc =>
    ⟨h.due (hfree.slots hs.sane hd) hdue, by rw [h.codec]; exact hc⟩

theorem Feeding.guarantee (h : Feeding s t) : (discipline M).guarantee .network s t := by
  intro j hj
  cases j with
  | network => exact absurd rfl hj
  | surface =>
    refine ⟨by rw [h.mutex], fun _ => h.runtime, fun _ _ hslots => ⟨?_, h.due hslots⟩,
      fun _ _ hc => by rw [h.codec]; exact hc, fun _ => h.agreed, fun ho => by cases ho⟩
    have hsuffix := h.slots
    rw [hslots] at hsuffix
    exact List.suffix_nil.mp hsuffix
  | codec n => exact (by rw [h.codec] : n ∈ t.avCodec.callbacks ↔ n ∈ s.avCodec.callbacks)

/-- A message may be handled at any time between the operations of the network thread. -/
theorem outline_feeds {p : Session α} (hp : p.Every Feeds) :
    (discipline M).Outline .network (Outside .network) p (fun _ => Outside .network) := by
  have hstable : (discipline M).Stable .network (Outside .network) := Outside.stable (o := .network)
  intro s hi hs
  induction p generalizing s with
  | ret a => exact fun t ht hit => hstable s t hs ht hit
  | atomic ready act next ih =>
    intro t ht hit hready e _
    have hout := hstable s t hs ht hit
    obtain ⟨hfeeds, hnext⟩ := hp t e hready
    have hfeeding := hfeeds hit.sane
    have hinv := Feeding.invariant hfeeding hit hout
    exact ⟨hinv, Feeding.guarantee hfeeding, ih e t hnext _ hinv (by
      rw [Outside, hfeeding.mutex]
      exact hout)⟩

section Callers
variable {n decoder : Nat} {slot : InputSlot} {callers : List Nat}

/-- Only the callers of the codec's callbacks change. -/
def calledBy (callers : List Nat) (s : ReceiverSession) : ReceiverSession :=
  { s with avCodec := { s.avCodec with callbacks := callers } }

theorem calledBy_agreed (h : Agreed s) : Agreed (calledBy callers s) :=
  let ⟨stage, htraced, hagrees⟩ := h
  ⟨stage, htraced, hagrees⟩

theorem calledBy_invariant (hs : Invariant M s)
    (hcalls : callers ≠ [] → s.avCodec.started = true ∨ s.avCodec.callbacks ≠ []) :
    Invariant M (calledBy callers s) := by
  obtain ⟨stage, htraced⟩ := hs.sane.traced
  refine ⟨⟨⟨stage, htraced⟩, fun hgate => (hs.sane.agreed hgate).imp_left calledBy_agreed,
    hs.sane.slots, fun hgate hne => ?_⟩, fun hnone => (hs.free hnone).keep rfl fun hd hdue hc => ?_⟩
  · rcases hcalls hne with hstarted | hcallers
    · exact hstarted
    · exact hs.sane.calling hgate hcallers
  · refine ⟨hdue, ?_⟩
    by_contra hne
    rcases hcalls hne with hstarted | hcallers
    · rw [(hs.free hnone).stopped hd] at hstarted
      cases hstarted
    · exact hcallers hc

theorem calledBy_guarantee (hcallers : ∀ m, m ≠ n → (m ∈ callers ↔ m ∈ s.avCodec.callbacks))
    (hcalls : callers ≠ [] → s.avCodec.started = true ∨ s.avCodec.callbacks ≠ []) :
    (discipline M).guarantee (.codec n) s (calledBy callers s) := by
  have howner (o : LifecycleThread) : OwnerRely o s (calledBy callers s) := by
    refine ⟨Iff.rfl, fun _ => rfl, fun _ _ h => ⟨h, id⟩, fun _ hstopped hc => ?_,
      fun _ => calledBy_agreed, fun _ => List.suffix_rfl⟩
    by_contra hne
    rcases hcalls hne with hstarted | hcallers
    · rw [hstopped] at hstarted
      cases hstarted
    · exact hcallers hc
  intro j hj
  cases j with
  | network => exact howner _
  | surface => exact howner _
  | codec m => exact hcallers m fun h => hj (congrArg _ h)

/-- A slot that is admitted from inside a callback: the codec is started while the gate is open. -/
theorem needInput_keeps (hs : Invariant M s) (hn : n ∈ s.avCodec.callbacks) :
    Invariant M (needInputLocked decoder slot s) ∧
      (discipline M).guarantee (.codec n) s (needInputLocked decoder slot s) ∧
      (needInputLocked decoder slot s).avCodec = s.avCodec := by
  unfold needInputLocked
  split
  · exact ⟨hs, fun j _ => (discipline M).refl j s, rfl⟩
  rename_i hopen
  simp only [Bool.or_eq_true, Bool.not_eq_true', bne_iff_ne, not_or, not_not, Bool.not_eq_false]
    at hopen
  obtain ⟨hgate, hdecoder⟩ := hopen
  have hstarted := hs.sane.calling hgate (List.ne_nil_of_mem hn)
  have hfed := admitSlot_fed decoder slot hstarted
  have hgate' : s.decoderCallbackGate = .running := by
    simpa [callbacksAllowed, decoderCallbacksAllowed] using hgate
  have hrunning : ¬ Quiet (runtime s) := by
    rintro (h | h | h)
    · exact h hgate'
    · have hnone : s.decoder = none := h
      rw [hdecoder] at hnone
      cases hnone
    · have hstopped : s.avCodec.started = false := h
      rw [hstarted] at hstopped
      cases hstopped
  have hsame : (admitSlot decoder slot s).avCodec.started = true := by
    rw [hfed.codec]
    exact hstarted
  have howner (o : LifecycleThread) : OwnerRely o s (admitSlot decoder slot s) :=
    ⟨by rw [hfed.mutex], fun _ => hfed.runtime, fun _ hq => absurd hq hrunning,
      fun _ _ hc => by rw [hfed.codec]; exact hc, fun _ => hfed.agreed,
      fun _ => pumpLoop_queue decoder _⟩
  refine ⟨⟨⟨?_, fun _ => ?_, fun _ => hsame, fun _ _ => hsame⟩, fun hnone => ?_⟩, fun j hj => ?_,
    hfed.codec⟩
  · rcases hs.sane.agreed hgate with hagreed | ⟨-, hqueue⟩
    · exact (hfed.agreed hagreed).traced
    · exact (admitSlot_empty decoder slot hqueue hs.sane.traced).1
  · rw [hfed.mutex]
    exact (hs.sane.agreed hgate).imp hfed.agreed fun h =>
      ⟨h.1, (admitSlot_empty decoder slot h.2 hs.sane.traced).2⟩
  · refine (hs.free (hfed.mutex ▸ hnone)).keep hfed.runtime fun hd => ?_
    rw [hdecoder] at hd
    cases hd
  · cases j with
    | network => exact howner _
    | surface => exact howner _
    | codec m =>
      exact (by rw [hfed.codec] :
        m ∈ (admitSlot decoder slot s).avCodec.callbacks ↔ m ∈ s.avCodec.callbacks)

/-- The caller is not inside a callback. -/
def Returned (n : Nat) (s : ReceiverSession) : Prop := n ∉ s.avCodec.callbacks

theorem Returned.stable : (discipline M).Stable (.codec n) (Returned n) :=
  fun _ _ h hr _ hmem => h (hr.mp hmem)

theorem calling_stable : (discipline M).Stable (.codec n) fun s => n ∈ s.avCodec.callbacks :=
  fun _ _ h hr _ => hr.mpr h

theorem decoderNeedInput_outline :
    (discipline M).Outline (.codec n) (fun s => n ∈ s.avCodec.callbacks)
      (decoderNeedInput decoder slot) (fun _ s => n ∈ s.avCodec.callbacks) := by
  unfold decoderNeedInput
  refine .bind (.critical calling_stable (fun _ => calling_stable)
    fun _ s hi hn _ => ⟨hi, fun j _ => (discipline M).refl j s, hn⟩) fun allowed => ?_
  split
  · exact .ret () calling_stable fun _ _ h => h
  · refine .critical calling_stable (fun _ => calling_stable) fun _ s hi hn _ => ?_
    have hkeeps : Invariant M (needInputLocked decoder slot s) ∧
        (discipline M).guarantee (.codec n) s (needInputLocked decoder slot s) ∧
        (needInputLocked decoder slot s).avCodec = s.avCodec := needInput_keeps hi hn
    obtain ⟨hinv, hgo, hcodec⟩ := hkeeps
    exact ⟨hinv, hgo, hcodec ▸ hn⟩

theorem needInputCallback_outline :
    (discipline M).Outline (.codec n) (Returned n) (needInputCallback n decoder slot)
      (fun _ => Returned n) := by
  unfold needInputCallback
  refine .bind (Q := fun _ s => n ∈ s.avCodec.callbacks) (.atomic Returned.stable
    fun _ s hi hout _ hready => ?_) fun _ => .bind decoderNeedInput_outline fun _ =>
      .critical calling_stable (fun _ => Returned.stable) fun _ s hi hn _ => ?_
  · have hstarted : s.avCodec.started = true := by
      simp only [Bool.and_eq_true] at hready
      exact hready.1
    have hinv : Invariant M (calledBy (n :: s.avCodec.callbacks) s) :=
      calledBy_invariant hi fun _ => .inl hstarted
    refine ⟨hinv,
      calledBy_guarantee (fun m hm => by simp [hm]) fun _ => .inl hstarted,
      fun t ht _ => calling_stable (M := M) _ t List.mem_cons_self ht ‹_›⟩
  · have hcalls : s.avCodec.callbacks.filter (· != n) ≠ [] →
        s.avCodec.started = true ∨ s.avCodec.callbacks ≠ [] := fun _ =>
      .inr (List.ne_nil_of_mem hn)
    exact ⟨calledBy_invariant hi hcalls, calledBy_guarantee (fun m hm => by simp [hm]) hcalls,
      fun hmem => by simp at hmem⟩

end Callers

/-- A thread between two jobs: it does not hold the lock and is not inside a callback. -/
def AtRest : DecoderThread → ReceiverSession → Prop
  | .network => Outside .network
  | .surface => Outside .surface
  | .codec n => Returned n

theorem AtRest.stable (i : DecoderThread) : (discipline M).Stable i (AtRest i) := by
  cases i with
  | network => exact Outside.stable (o := .network)
  | surface => exact Outside.stable (o := .surface)
  | codec n => exact Returned.stable

/-- Every job keeps the discipline. -/
theorem spawn_outline (i : DecoderThread) (job : DecoderJob) :
    (discipline M).Outline i (AtRest i) (DecoderSystem.spawn i job) (fun _ => AtRest i) := by
  have hidle (i : DecoderThread) :
      (discipline M).Outline i (AtRest i) (.ret ()) (fun _ => AtRest i) :=
    .ret () (AtRest.stable i) fun _ _ h => h
  cases i with
  | network =>
    cases job with
    | activate epoch =>
      exact outline_outside ((every_critical _).mpr fun _ _ =>
        ⟨rfl, rfl, rfl, rfl, rfl, rfl, fun _ => id⟩)
    | video data => exact outline_feeds (handleVideo_feeds data)
    | flush => exact flushDecoder_outline.bind fun _ => hidle .network
    | reconfigure contract => exact (reconfigureDecoder_outline contract).bind fun _ => hidle .network
    | lifecycle event => exact hidle .network
    | needInput decoder slot => exact hidle .network
  | surface =>
    cases job with
    | lifecycle event => exact onLifecycleEvent_outline event
    | activate | video | flush | reconfigure | needInput => exact hidle .surface
  | codec n =>
    cases job with
    | needInput decoder slot => exact needInputCallback_outline
    | activate | video | flush | reconfigure | lifecycle => exact hidle (.codec n)

/-- The run lemma: from a state in which nobody is inside an operation, whatever the order
of the sections. -/
theorem reached_kept {c : Config DecoderThread ReceiverSession External}
    (hs : Invariant M s) (hrest : ∀ i, AtRest i s)
    (hc : Config.ReachesOffered DecoderSystem.spawn (fun _ _ _ => True) (fun _ _ => Offered M)
      (Config.idle s) c) : Config.Kept (discipline M) AtRest c :=
  hc.kept hs AtRest.stable hrest fun i job _ hi hr _ => spawn_outline i job _ hi hr

theorem initial_invariant : Invariant false {} where
  sane := ⟨⟨.halted, rfl, by simp⟩, fun h => (by cases h), fun h => absurd rfl h,
    fun h => (by cases h)⟩
  free _ := ⟨.absent {} {}, fun _ => ⟨rfl, rfl⟩, fun h => by cases h⟩

theorem reachable_kept {c : Config DecoderThread ReceiverSession External}
    (h : DecoderSystem.Reachable c) :
    Config.Kept (discipline false) AtRest c := by
  refine reached_kept initial_invariant (fun i => ?_)
    ((Config.Reaches.offered h).weaken (fun _ _ _ h => h) fun _ _ e _ => ?_)
  · cases i with
    | network | surface => exact fun h => by cases h
    | codec n => exact List.not_mem_nil
  · exact fun hm => by cases hm

end HarmonyScreen.Proofs.DecoderRuns
