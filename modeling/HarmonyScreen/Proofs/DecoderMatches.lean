import HarmonyScreen.Proofs.InputGrammar

namespace HarmonyScreen.Proofs.DecoderMatches
open Lib Program Receiver ReceiverSession DecoderSystem Protocol DecoderQueue DecoderDiscipline
  DecoderOperations DecoderEntries DecoderRuns

variable {M : Bool} {s t u : ReceiverSession}

/-- A decoder exists only in the foreground with a surface, configured with the current
contract, bound to the registered surface and with the gate open; else the gate is closed. -/
def Matches (s : ReceiverSession) : Prop :=
  (s.decoder = none → s.decoderCallbackGate = .stopped) ∧
  ∀ decoder, s.decoder = some decoder →
    s.lifecycleState.foreground = true ∧ s.lifecycleState.surface ≠ 0 ∧
    s.avCodec.address = decoder ∧ s.avCodec.contract = some s.decoderMediaContract ∧
    s.avCodec.surface = some s.lifecycleState.surface ∧ s.decoderCallbackGate = .running

theorem shouldRun_iff (l : ReceiverLifecycleState) :
    l.decoderShouldRun = true ↔ l.foreground = true ∧ l.surface ≠ 0 := by
  simp [ReceiverLifecycleState.decoderShouldRun]

theorem Settled.matches (h : Settled (runtime s)) : Matches s := by
  generalize hr : runtime s = r at h
  have hgate : s.decoderCallbackGate = r.gate := congrArg Runtime.gate hr
  have hdecoder : s.decoder = r.decoder := congrArg Runtime.decoder hr
  cases h with
  | absent contract lifecycle =>
    refine ⟨fun _ => hgate, fun decoder hsome => ?_⟩
    rw [hdecoder] at hsome
    cases hsome
  | present decoder contract lifecycle runs =>
    have hlifecycle : s.lifecycleState = lifecycle := congrArg Runtime.lifecycle hr
    have hcontract : s.decoderMediaContract = contract := congrArg Runtime.contract hr
    have haddress : s.avCodec.address = decoder := congrArg (fun r => r.codec.address) hr
    have hconfigured : s.avCodec.contract = some contract := congrArg (fun r => r.codec.contract) hr
    have hbound : s.avCodec.surface = some lifecycle.surface :=
      congrArg (fun r => r.codec.surface) hr
    obtain ⟨hforeground, hsurface⟩ := (shouldRun_iff lifecycle).mp runs
    refine ⟨fun hnone => ?_, fun d hsome => ?_⟩
    · rw [hdecoder] at hnone
      cases hnone
    · rw [hdecoder] at hsome
      cases hsome
      rw [hlifecycle, hcontract]
      exact ⟨hforeground, hsurface, haddress, hconfigured, hbound, hgate⟩

/-- A callback with a zero id, a change from another component while one is registered, or the
destruction of a component or window that is not the registered one. -/
def Stale (event : LifecycleEvent) (l : ReceiverLifecycleState) : Prop :=
  match event with
  | .surfaceCreated component surface => component = 0 ∨ surface = 0
  | .surfaceChanged component surface =>
    component = 0 ∨ surface = 0 ∨ (l.component ≠ 0 ∧ component ≠ l.component)
  | .surfaceDestroyed component surface =>
    component = 0 ∨ surface = 0 ∨ component ≠ l.component ∨ surface ≠ l.surface
  | .foreground | .background => False

theorem Stale.decide {event : LifecycleEvent} {l : ReceiverLifecycleState} (h : Stale event l)
    (decoder : DecoderRuntimeSnapshot) : event.decide l decoder = ({}, l) := by
  cases event with
  | surfaceCreated component surface =>
    have hzero : component = 0 ∨ surface = 0 := h
    simp [LifecycleEvent.decide, ReceiverLifecycleState.surfaceCreated, hzero]
  | surfaceChanged component surface =>
    have hother : component = 0 ∨ surface = 0 ∨ (l.component ≠ 0 ∧ component ≠ l.component) := h
    simp only [LifecycleEvent.decide, ReceiverLifecycleState.surfaceChanged, if_pos hother]
  | surfaceDestroyed component surface =>
    have hother : l.component = 0 ∨ l.surface = 0 ∨ component ≠ l.component ∨
        surface ≠ l.surface := by
      rcases h with rfl | rfl | h
      · by_cases hnone : l.component = 0
        · exact .inl hnone
        · exact .inr (.inr (.inl (Ne.symm hnone)))
      · by_cases hnone : l.surface = 0
        · exact .inr (.inl hnone)
        · exact .inr (.inr (.inr (Ne.symm hnone)))
      · exact .inr (.inr h)
    simp only [LifecycleEvent.decide, ReceiverLifecycleState.surfaceDestroyed, if_pos hother]
  | foreground | background => cases h

/-- Nothing but the lock. -/
def LockOnly (s t : ReceiverSession) : Prop := ∃ mutex, t = { s with lifecycleMutex := mutex }

/-- The one thread that calls the surface callbacks, while the others do anything that does not
touch what is registered. -/
def registered : Discipline Unit ReceiverSession External where
  invariant _ := True
  offers _ _ _ := True
  rely _ s t := t.lifecycleState = s.lifecycleState
  guarantee _ := LockOnly
  refl _ _ := rfl
  trans _ _ _ _ h h' := Eq.trans h' h
  compatible h := absurd rfl h

theorem stale_outline {event : LifecycleEvent} {l : ReceiverLifecycleState} (h : Stale event l) :
    registered.Outline () (fun s => s.lifecycleState = l) (onLifecycleEvent event)
      (fun _ _ => True) := by
  have hstable : registered.Stable () fun s => s.lifecycleState = l :=
    fun s t hs hr _ => Eq.trans hr hs
  unfold onLifecycleEvent
  refine .bind (Q := fun _ s => s.lifecycleState = l)
    (.atomic hstable fun _ s _ hs _ _ => ⟨trivial, ⟨_, rfl⟩, fun t ht hi =>
      hstable _ t hs ht hi⟩) fun _ => ?_
  refine .bind (Q := fun decision _ => decision = ({} : ReceiverLifecycleDecision))
    (.critical hstable (fun _ _ _ hd _ _ => hd) fun _ s _ hs _ => ?_) fun decision => ?_
  · rw [hs, h.decide]
    subst hs
    exact ⟨trivial, ⟨s.lifecycleMutex, rfl⟩, rfl⟩
  refine .bind (Q := fun decoderStarted _ => decoderStarted = false ∧ True)
    (fun s _ hdecision => ?_) fun decoderStarted => .when ?_
  · subst hdecision
    exact fun _ _ _ => ⟨rfl, trivial⟩
  rintro rfl
  refine .bind (Q := fun _ _ => True) (.critical .true (fun _ => .true)
    fun _ s _ _ _ => ⟨trivial, ⟨none, rfl⟩, trivial⟩) fun _ => ?_
  cases event with
  | _ => exact .ret () .true fun _ _ _ => trivial

/-- Nobody else acts. -/
def alone : Discipline Unit ReceiverSession External where
  invariant _ := True
  offers _ _ _ := True
  rely _ := Eq
  guarantee _ _ _ := True
  refl _ _ := rfl
  trans _ _ _ _ := Eq.trans
  compatible h := absurd rfl h

/-- What `ReconfigureDecoder` does once it has settled the decoder. -/
def released (prepared : Bool) (s : ReceiverSession) : ReceiverSession :=
  { s with
    lifecycleMutex := none
    decoderResyncEvents := s.decoderResyncEvents + 1
    log := s.log ++ [.prepared prepared]
    decoderRecovery := s.decoderRecovery.requestKeyFrame }

theorem released_outline (prepared : Bool) : alone.Outline () (fun s => s = u)
    (do
      unlockLifecycle
      countResync prepared
      requestKeyframe
      return prepared)
    (fun b s => b = prepared ∧ s = released prepared u) := by
  have hstable {P : ReceiverSession → Prop} : alone.Stable () P := fun _ _ h heq _ => heq ▸ h
  have hmodify (f : ReceiverSession → ReceiverSession) (u : ReceiverSession) :
      alone.Outline () (fun s => s = u) (modify f) (fun _ s => s = f u) :=
    .critical hstable (fun _ => hstable) fun _ _ _ h _ => ⟨trivial, trivial, h ▸ rfl⟩
  refine .bind (hmodify _ u) fun _ => .bind (hmodify _ _) fun _ => .bind (hmodify _ _) fun _ => ?_
  exact .ret prepared hstable fun _ _ h => ⟨rfl, h⟩

/-- After a successful `ReconfigureDecoder` a decoder is there whenever one should run. -/
theorem reconfigured {contract : MediaContract} {h : List (Step ReceiverSession External)}
    (hs : Invariant false s) (hrest : ∀ i, AtRest i s)
    (hr : Runs Eq (reconfigureDecoder contract) s h (.ret true) t) :
    Invariant true t ∧ ∀ i, AtRest i t := by
  have hvalid : isValidMediaContract contract = true := by
    by_contra hno
    have hfails : alone.Outline () (fun _ => True) (reconfigureDecoder contract)
        (fun b _ => b = false) := by
      unfold reconfigureDecoder
      rw [if_pos (by simpa using hno)]
      refine .bind (Q := fun _ _ => True) (.critical (fun _ _ _ _ _ => trivial)
        (fun _ _ _ _ _ _ => trivial) fun _ _ _ _ _ => ⟨trivial, trivial, trivial⟩) fun _ => ?_
      exact .ret false (fun _ _ _ _ _ => trivial) fun _ _ _ => rfl
    have hend := ((hfails s trivial trivial).runs (fun _ _ _ heq => ⟨heq, trivial⟩) trivial hr
      fun _ _ => trivial).2.1
    cases hend t rfl trivial
  rw [reconfigureDecoder_eq hvalid] at hr
  rcases hr.of_bind with ⟨p, heq, -⟩ | ⟨prepared, u, h₁, h₂, -, hfirst, hlast⟩
  · cases p with
    | ret a => cases heq
    | atomic => cases heq
  have hlocked := (reconfigureLocked_outline (M := false) hvalid s hs (hrest .network)).runs
    (fun s _ hi heq => ⟨heq ▸ (discipline false).refl _ s, heq ▸ hi⟩) hs hfirst
    fun _ _ hm => by cases hm
  obtain ⟨hu, hinside, hguaranteed⟩ := hlocked
  have htail := (released_outline (u := u) prepared u trivial rfl).runs
    (fun _ _ _ heq => ⟨heq, trivial⟩) trivial hlast fun _ _ => trivial
  obtain ⟨hprepared, hend⟩ := htail.2.1 t rfl trivial
  subst hprepared hend
  have hsettled : Inside (false = true ∨ true = true) .network .running u :=
    hinside u ((discipline false).refl _ u) hu
  have hbeside : Beside { u with lifecycleMutex := none } (released true u) :=
    ⟨rfl, rfl, rfl, rfl, rfl, rfl, fun _ h => DecoderTrace.stageOf_note h rfl⟩
  refine ⟨hbeside.invariant (hsettled.free hu.sane fun _ => .inr rfl), fun i => ?_⟩
  cases i with
  | network | surface => exact fun hmutex => by cases hmutex
  | codec n =>
    have hcallers : relies (.codec n) s u := hfirst.undisturbed ((discipline false).refl (.codec n))
      ((discipline false).trans (.codec n)) fun step hmem =>
        hguaranteed step hmem (.codec n) fun h => by cases h
    exact fun hmem => hrest (.codec n) (hcallers.mp hmem)

variable {c : Config DecoderThread ReceiverSession External}

theorem invariant_matches (h : Invariant M s) (hnone : s.lifecycleMutex = none) :
    Matches s ∧ (M = true → (s.decoder.isSome = true ↔
      s.lifecycleState.foreground = true ∧ s.lifecycleState.surface ≠ 0)) := by
  have hfree := h.free hnone
  have hmatches := Settled.matches hfree.settled
  refine ⟨hmatches, fun hm => ⟨fun hsome => ?_, fun hruns => ?_⟩⟩
  · obtain ⟨decoder, hdecoder⟩ := Option.isSome_iff_exists.mp hsome
    have hd := hmatches.2 decoder hdecoder
    exact ⟨hd.1, hd.2.1⟩
  · exact (hfree.complete hm).2 ((shouldRun_iff _).mpr hruns)

/-- Between the operations the decoder matches the lifecycle state; stale callbacks change
nothing; and when every call succeeds from a successful reconfiguration on, a decoder exists
exactly when the app is in the foreground and a surface is registered. -/
theorem decoder_matches :
    (∀ c, DecoderSystem.Reachable c → c.state.lifecycleMutex = none → Matches c.state) ∧
    (∀ event s h q t, Stale event s.lifecycleState →
      Runs (fun s t => t.lifecycleState = s.lifecycleState) (onLifecycleEvent event) s h q t →
      ∀ step ∈ h, LockOnly step.before step.after) ∧
    (∀ c contract h t, DecoderSystem.Reachable c → (∀ i, (c.threads i).result = some ()) →
      Runs Eq (reconfigureDecoder contract) c.state h (.ret true) t →
      ∀ d, Config.ReachesOffered DecoderSystem.spawn (fun _ _ _ => True) (fun _ _ => Succeeds)
        (Config.idle t) d → d.state.lifecycleMutex = none →
      (d.state.decoder.isSome = true ↔
        d.state.lifecycleState.foreground = true ∧ d.state.lifecycleState.surface ≠ 0)) := by
  refine ⟨fun c hc hnone => ?_, fun event s h q t hstale hr => ?_,
    fun c contract h t hc hidle hr d hd hnone => ?_⟩
  · exact (invariant_matches (reachable_kept hc).1 hnone).1
  · exact ((stale_outline hstale s trivial rfl).runs (fun _ _ _ h => ⟨h, trivial⟩) trivial hr
      fun _ _ => trivial).2.2
  · obtain ⟨hs, hthreads⟩ := reachable_kept hc
    have hrest : ∀ i, AtRest i c.state := fun i => by
      have hmeets := hthreads i
      rw [Program.eq_ret_of_result (hidle i)] at hmeets
      exact hmeets c.state ((discipline false).refl i _) hs
    obtain ⟨ht, hrest⟩ := reconfigured hs hrest hr
    have hkept := reached_kept ht hrest
      (hd.weaken (fun _ _ _ h => h) fun _ _ _ he _ => he)
    exact (invariant_matches hkept.1 hnone).2 rfl

instance (e : External) : Decidable (Succeeds e) := inferInstanceAs (Decidable (_ ∧ _))

/-- The sections of one program, while every call of the codec succeeds. -/
def working : List External := List.replicate 40 { codecAddress := some 7 }

def reconfiguration : List (Step ReceiverSession External) × Session Bool × ReceiverSession :=
  (reconfigureDecoder ⟨1280, 720, 30⟩).play {} working

/-- The decoder that is fed by the codec above matches; the destruction of a surface that was
never registered changes nothing; a surface created after the reconfiguration gets a decoder. -/
theorem created_decoder_matches :
    (∃ c, DecoderSystem.Reachable c ∧ c.state.decoder = some 7 ∧
      c.state.avCodec.contract = some c.state.decoderMediaContract) ∧
    (∀ step ∈ ((onLifecycleEvent (.surfaceDestroyed 8 9)).play {} working).1,
      LockOnly step.before step.after) ∧
    ∃ d : Config DecoderThread ReceiverSession External,
      d.state.lifecycleState.surface = 2 ∧ d.state.decoder.isSome = true := by
  refine ⟨?_, ?_, ?_⟩
  · have hrun : (Config.follow DecoderSystem.spawn (fun _ _ _ => True) (fun _ _ _ => True)
        InputGrammar.feeding (Config.idle {})).any
        (fun c => c.state.decoder = some 7 ∧ c.state.lifecycleMutex = none) = true := by
      decide +kernel
    obtain ⟨c, hc, hd⟩ := (Option.any_eq_true _ _).mp hrun
    obtain ⟨hdecoder, hnone⟩ := of_decide_eq_true hd
    have hreach : DecoderSystem.Reachable c := (Config.ReachesOffered.follow .refl _ hc).reaches
    exact ⟨c, hreach, hdecoder,
      ((decoder_matches.1 c hreach hnone).2 7 hdecoder).2.2.2.1⟩
  · exact decoder_matches.2.1 (.surfaceDestroyed 8 9) {} _ _ _ (by simp [Stale])
      (play_runs _ _ _)
  · have hrun : (Config.follow DecoderSystem.spawn (fun _ _ _ => True) (fun _ _ => Succeeds)
        (InputGrammar.runJob .surface (.lifecycle (.surfaceCreated 1 2)))
        (Config.idle reconfiguration.2.2)).any
        (fun d => d.state.lifecycleMutex = none ∧ d.state.lifecycleState.surface = 2 ∧
          d.state.lifecycleState.foreground = true) = true := by
      decide
    obtain ⟨d, hd, hends⟩ := (Option.any_eq_true _ _).mp hrun
    obtain ⟨hnone, hsurface, hforeground⟩ := of_decide_eq_true hends
    have hreturned : reconfiguration.2.1 = .ret true := eq_ret_of_result (by decide)
    have hruns := play_runs (R := Eq) (reconfigureDecoder ⟨1280, 720, 30⟩) {} working
    rw [show (reconfigureDecoder ⟨1280, 720, 30⟩).play {} working = reconfiguration from rfl,
      hreturned] at hruns
    refine ⟨d, hsurface, ?_⟩
    exact (decoder_matches.2.2 (Config.idle {}) _ _ _ .refl (fun _ => rfl) hruns d
      (Config.ReachesOffered.follow .refl _ hd) hnone).mpr ⟨hforeground, by simp [hsurface]⟩

end HarmonyScreen.Proofs.DecoderMatches
