import HarmonyScreen.Proofs.InputGrammar

namespace HarmonyScreen.Proofs.InputSlots
open Lib Program Receiver ReceiverSession DecoderSystem Effects

variable {s t : ReceiverSession}

/-- What happened since the queues were cleared the last time. A decoder that is destroyed or
flushed, or whose start fails, leaves them cleared. -/
def sinceCleared (log : List Observation) : List Observation :=
  log.foldl (fun since o => if o = .cleared then [] else since ++ [o]) []

def admittedSlot : Observation → Option InputSlot
  | .admitted slot => some slot
  | _ => none

def pushedSlot : Observation → Option InputSlot
  | .pushed slot _ => some slot
  | _ => none

def poppedSlot : Observation → Option InputSlot
  | .popped slot _ _ => some slot
  | _ => none

/-- The input that is taken with a slot may be pushed in this recovery state, and the slot has
room for it. -/
def Usable (slot : InputSlot) (input : DecodedInput) (state : DecoderRecoveryState) : Prop :=
  decoderInputAllowed state input.kind = true ∧ slot.fits input.bytes.length = true

instance (slot : InputSlot) (input : DecodedInput) (state : DecoderRecoveryState) :
    Decidable (Usable slot input state) := inferInstanceAs (Decidable (_ ∧ _))

def usedSlot : Observation → Option InputSlot
  | .popped slot input state => if Usable slot input state then some slot else none
  | _ => none

/-- Each admitted slot is still there or was used in one push. -/
def NoSlotLost (s : ReceiverSession) : Prop :=
  ((sinceCleared s.log).filterMap admittedSlot).Perm
    (s.inputSlots ++ (sinceCleared s.log).filterMap pushedSlot)

/-- Every slot that the pump took was taken with an input that it could push. -/
def TakenUsable (s : ReceiverSession) : Prop :=
  ∀ slot input state, .popped slot input state ∈ sinceCleared s.log → Usable slot input state

@[simp] theorem sinceCleared_nil : sinceCleared [] = [] := rfl

@[simp] theorem sinceCleared_cleared (log : List Observation) :
    sinceCleared (log ++ [.cleared]) = [] := by simp [sinceCleared]

theorem sinceCleared_concat {o : Observation} (log : List Observation) (h : o ≠ .cleared) :
    sinceCleared (log ++ [o]) = sinceCleared log ++ [o] := by simp [sinceCleared, h]

/-- The queue of slots is first in, first out; the pump pushes exactly what it may. -/
structure Accounted (s : ReceiverSession) : Prop where
  slots : (sinceCleared s.log).filterMap admittedSlot =
    (sinceCleared s.log).filterMap poppedSlot ++ s.inputSlots
  used : (sinceCleared s.log).filterMap pushedSlot = (sinceCleared s.log).filterMap usedSlot

theorem Accounted.same (h : Accounted s) (hl : t.log = s.log) (hi : t.inputSlots = s.inputSlots) :
    Accounted t where
  slots := by
    rw [hl, hi]
    exact h.slots
  used := by
    rw [hl]
    exact h.used

/-- An observation that is not about a slot. -/
theorem Accounted.note (h : Accounted s) (o : Observation) (ho : o ≠ .cleared)
    (hadmitted : admittedSlot o = none) (hpopped : poppedSlot o = none)
    (hpushed : pushedSlot o = none) (hused : usedSlot o = none) (hl : t.log = s.log ++ [o])
    (hi : t.inputSlots = s.inputSlots) : Accounted t where
  slots := by simp [hl, hi, sinceCleared_concat _ ho, hadmitted, hpopped, h.slots]
  used := by simp [hl, sinceCleared_concat _ ho, hpushed, hused, h.used]

theorem Accounted.cleared (hl : t.log = s.log ++ [.cleared]) (hi : t.inputSlots = []) :
    Accounted t := ⟨by simp [hl, hi], by simp [hl]⟩

theorem Accounted.aside (h : Accounted s) (ha : Aside s t) : Accounted t :=
  h.same ha.log ha.inputSlots

theorem Accounted.lifecycle (h : Accounted s) (he : LifecycleEffect s t) : Accounted t := by
  rcases he with ha | ha | ⟨o, ho, ha⟩
  · exact h.aside ha
  · exact .cleared ha.log ha.inputSlots
  · cases o with
    | started => exact h.note .started (by simp) rfl rfl rfl rfl ha.log ha.inputSlots
    | halted => exact h.note .halted (by simp) rfl rfl rfl rfl ha.log ha.inputSlots
    | _ => cases ho

theorem Accounted.preparation (h : Accounted s) (he : PreparationEffect s t) : Accounted t := by
  rcases he with he | ⟨prepared, ha⟩
  · exact h.lifecycle he
  · exact h.note (.prepared prepared) (by simp) rfl rfl rfl rfl ha.log ha.inputSlots

section Pump
variable {slot : InputSlot} {slots : List InputSlot} {frame : DecodedInput}
  {queue : List DecodedInput}

/-- The slot is taken with an input that is not pushed. -/
theorem Accounted.lose (h : Accounted s) (hslots : s.inputSlots = slot :: slots)
    (hno : ¬ Usable slot frame s.decoderRecovery.state)
    (hl : t.log = s.log ++ [.popped slot frame s.decoderRecovery.state])
    (hi : t.inputSlots = slots) : Accounted t where
  slots := by
    simp [hl, hi, sinceCleared_concat, admittedSlot, poppedSlot, h.slots, hslots]
  used := by simp [hl, sinceCleared_concat, pushedSlot, usedSlot, hno, h.used]

/-- The slot is taken and its input pushed. -/
theorem Accounted.push (h : Accounted s) (hslots : s.inputSlots = slot :: slots)
    (husable : Usable slot frame s.decoderRecovery.state)
    (hl : t.log = s.log ++ [.popped slot frame s.decoderRecovery.state] ++ [.pushed slot frame])
    (hi : t.inputSlots = slots) : Accounted t := by
  have hsince : sinceCleared t.log = sinceCleared s.log ++
      [.popped slot frame s.decoderRecovery.state] ++ [.pushed slot frame] := by
    rw [hl, sinceCleared_concat _ (by simp), sinceCleared_concat _ (by simp)]
  constructor
  · simp [hsince, hi, List.filterMap_cons, admittedSlot, poppedSlot, h.slots, hslots]
  · simp [hsince, List.filterMap_cons, pushedSlot, usedSlot, husable, h.used]

/-- One turn of the pump, with the taking of the slot and the input. -/
theorem pumpTurn_accounted (h : Accounted s) (hslots : s.inputSlots = slot :: slots) :
    Accounted (pumpTurn { s with
      inputSlots := slots
      decodeQueue := queue
      log := s.log ++ [.popped slot frame s.decoderRecovery.state] } slot frame).2 := by
  unfold pumpTurn
  split
  · rename_i hno
    refine h.lose hslots (fun husable => ?_) rfl rfl
    simp [DecoderRecoveryCoordinator.inputAllowed, husable.1] at hno
  · rename_i hallowed
    split
    · rename_i hlarge
      refine h.lose hslots (fun husable => ?_) rfl rfl
      simp [husable.2] at hlarge
    · rename_i hfits
      have husable : Usable slot frame s.decoderRecovery.state :=
        ⟨by simpa [DecoderRecoveryCoordinator.inputAllowed] using hallowed, by simpa using hfits⟩
      dsimp only
      split
      · exact h.push hslots husable rfl rfl
      · exact h.push hslots husable rfl rfl

theorem pumpLoop_accounted (decoder : Nat) (slots : List InputSlot) (h : Accounted s)
    (hslots : s.inputSlots = slots) : Accounted (pumpLoop decoder slots s) := by
  induction slots generalizing s with
  | nil => exact h
  | cons slot slots ih =>
    unfold pumpLoop
    split
    · exact h
    · rename_i frame queue hq
      split
      · have hturn : Accounted (pumpTurn { s with
            inputSlots := slots
            decodeQueue := queue
            log := s.log ++ [.popped slot frame s.decoderRecovery.state] } slot frame).2 :=
          pumpTurn_accounted h hslots
        have hleft : (pumpTurn { s with
            inputSlots := slots
            decodeQueue := queue
            log := s.log ++ [.popped slot frame s.decoderRecovery.state] } slot frame).2.inputSlots =
              slots := DecoderQueue.pumpTurn_slots
        dsimp only
        split
        · rename_i t ht
          rw [ht] at hturn hleft
          exact ih hturn hleft
        · rename_i t ht
          rw [ht] at hturn
          exact hturn
      · exact h

theorem pumpDecoderLocked_accounted (decoder : Nat) (h : Accounted s) :
    Accounted (pumpDecoderLocked decoder s) := pumpLoop_accounted decoder _ h rfl

end Pump

theorem admitSlot_accounted (decoder : Nat) (slot : InputSlot) (h : Accounted s) :
    Accounted (admitSlot decoder slot s) := by
  apply pumpDecoderLocked_accounted
  constructor
  · simp [sinceCleared_concat, admittedSlot, poppedSlot, h.slots]
  · simp [sinceCleared_concat, h.used]
    rfl

theorem submitFrameLocked_accounted (frame : DecodedInput) (h : Accounted s) :
    Accounted (submitFrameLocked frame s) := by
  unfold submitFrameLocked
  split
  · exact h.same rfl rfl
  split
  · exact h.same rfl rfl
  dsimp only
  split
  · split
    · exact h.note .refused (by simp) rfl rfl rfl rfl rfl rfl
    · exact h.note .refused (by simp) rfl rfl rfl rfl rfl rfl
  · apply pumpDecoderLocked_accounted
    split
    · exact h.same rfl rfl
    · exact h.same rfl rfl

theorem submitRecoveryLocked_accounted (codecData syncFrame : DecodedInput) (h : Accounted s) :
    Accounted (submitRecoveryLocked codecData syncFrame s).2 := by
  have hnote : Accounted (s.note (.recovering codecData.arrival s.decoderRecovery.state)) :=
    h.note _ (by simp) rfl rfl rfl rfl rfl rfl
  unfold submitRecoveryLocked
  dsimp only
  split
  · exact hnote.same rfl rfl
  split
  · exact hnote.same rfl rfl
  · apply pumpDecoderLocked_accounted
    exact hnote.same rfl rfl

/-- A section keeps the account. -/
def Keeps (s t : ReceiverSession) : Prop := Accounted s → Accounted t

theorem keeps_of_lifecycle {p : Session α} (hp : p.Every LifecycleEffect) : p.Every Keeps :=
  hp.mono fun _ _ he h => h.lifecycle he

theorem handleVideo_keeps (data : Bytes) : (handleVideo data).Every Keeps := by
  obtain ⟨body, hbody, hevery⟩ := handleVideo_effect data
  rw [hbody]
  refine (load_every _ fun _ h => h).bind fun epoch => (hevery epoch).mono fun s t he h => ?_
  cases he with
  | aside ha => exact h.aside ha
  | arrived arrival keyframe state waiting =>
    exact h.note _ (by simp) rfl rfl rfl rfl rfl rfl
  | submit frame => exact submitFrameLocked_accounted frame h
  | recover codecData syncFrame => exact submitRecoveryLocked_accounted codecData syncFrame h

theorem decoderNeedInput_keeps (decoder : Nat) (slot : InputSlot) :
    (decoderNeedInput decoder slot).Every Keeps := by
  unfold decoderNeedInput
  refine (load_every _ fun _ h => h).bind fun allowed => ?_
  split
  · exact every_ret _
  · refine modify_every fun s h => ?_
    split
    · exact h
    · exact admitSlot_accounted decoder slot h

theorem needInputCallback_keeps (caller decoder : Nat) (slot : InputSlot) :
    (needInputCallback caller decoder slot).Every Keeps := by
  unfold needInputCallback
  have hreturn : (modify fun s => { s with avCodec := { s.avCodec with
      callbacks := s.avCodec.callbacks.filter (· != caller) } }).Every Keeps :=
    modify_every fun _ h => h.same rfl rfl
  intro s e _
  exact ⟨fun h => h.same rfl rfl, (decoderNeedInput_keeps decoder slot).bind fun _ => hreturn⟩

theorem spawn_keeps (i : DecoderThread) (job : DecoderJob) :
    (DecoderSystem.spawn i job).Every Keeps := by
  unfold DecoderSystem.spawn
  split
  · exact modify_every fun _ h => h.same rfl rfl
  · exact handleVideo_keeps _
  · exact ignored (flushDecoder_effect.mono fun _ _ he h => h.preparation he)
  · exact ignored (reconfigureDecoder_every (fun _ _ he h => h.preparation he)
      (fun _ _ h => h.same rfl rfl) _)
  · exact keeps_of_lifecycle (onLifecycleEvent_effect _)
  · exact needInputCallback_keeps _ _ _
  · exact every_ret _

variable {c : Config DecoderThread ReceiverSession External}

theorem reachable_accounted (hc : DecoderSystem.Reachable c) : Accounted c.state := by
  refine Config.Reaches.safe (m := .network) (R := Keeps) (fun _ h => h)
    (fun h h' hs => h' (h hs)) (fun _ _ hs h => h hs) (fun _ hs => hs)
    (fun s job hs _ => ?_) (fun i job _ => spawn_keeps i job) ⟨rfl, rfl⟩ hc
  exact (spawn_keeps .network job).safe (fun _ _ hs h => h hs) (fun _ _ hs h => h hs) hs

theorem used_sublist (os : List Observation) :
    (os.filterMap usedSlot).Sublist (os.filterMap poppedSlot) := by
  induction os with
  | nil => exact .slnil
  | cons o os ih =>
    cases o with
    | popped slot input state =>
      by_cases husable : Usable slot input state
      · simpa [usedSlot, poppedSlot, husable] using ih
      · simpa [usedSlot, poppedSlot, husable] using ih.cons slot
    | _ => exact ih

/-- If as many were pushed as were taken, each that was taken could be pushed. -/
theorem usable_of_length {os : List Observation}
    (h : (os.filterMap poppedSlot).length = (os.filterMap usedSlot).length) {slot : InputSlot}
    {input : DecodedInput} {state : DecoderRecoveryState}
    (hpopped : .popped slot input state ∈ os) : Usable slot input state := by
  induction os with
  | nil => cases hpopped
  | cons o os ih =>
    have hle := (used_sublist os).length_le
    cases o with
    | popped slot' input' state' =>
      by_cases husable : Usable slot' input' state'
      · have hrest : (os.filterMap poppedSlot).length = (os.filterMap usedSlot).length := by
          simpa [usedSlot, poppedSlot, husable] using h
        rcases List.mem_cons.mp hpopped with heq | hmem
        · cases heq
          exact husable
        · exact ih hrest hmem
      · simp [usedSlot, poppedSlot, husable] at h
        omega
    | _ => exact ih h (by simpa using hpopped)

theorem used_of_usable {os : List Observation}
    (h : ∀ slot input state, .popped slot input state ∈ os → Usable slot input state) :
    os.filterMap usedSlot = os.filterMap poppedSlot := by
  apply List.filterMap_congr
  intro o ho
  cases o with
  | popped slot input state => simp [usedSlot, poppedSlot, h slot input state ho]
  | _ => rfl

/-- In every reachable state no slot is lost exactly if every slot that was taken was taken
with an input that could be pushed. -/
theorem no_slot_lost_iff (hc : DecoderSystem.Reachable c) :
    NoSlotLost c.state ↔ TakenUsable c.state := by
  obtain ⟨hslots, hused⟩ := reachable_accounted hc
  have hlost : NoSlotLost c.state ↔ ((sinceCleared c.state.log).filterMap poppedSlot).Perm
      ((sinceCleared c.state.log).filterMap usedSlot) := by
    rw [NoSlotLost, hslots, hused]
    constructor
    · intro h
      exact (List.perm_append_left_iff _).mp (List.perm_append_comm.trans h)
    · intro h
      exact List.perm_append_comm.trans ((List.perm_append_left_iff _).mpr h)
  rw [hlost]
  constructor
  · intro h slot input state hpopped
    exact usable_of_length h.length_eq hpopped
  · intro h
    rw [used_of_usable h]

instance (s : ReceiverSession) : Decidable (NoSlotLost s) :=
  inferInstanceAs (Decidable (List.Perm _ _))

/-- The three slots of the decoder that is fed are used in three pushes. -/
theorem fed_slots_usable : ∃ c, DecoderSystem.Reachable c ∧
    (sinceCleared c.state.log).filterMap pushedSlot =
      [⟨0, 100, true, true⟩, ⟨1, 100, true, true⟩, ⟨2, 100, true, true⟩] ∧
    TakenUsable c.state := by
  have hrun : (Config.follow DecoderSystem.spawn (fun _ _ _ => True) (fun _ _ _ => True)
      InputGrammar.feeding (Config.idle {})).any
      (fun c => (sinceCleared c.state.log).filterMap pushedSlot =
        [⟨0, 100, true, true⟩, ⟨1, 100, true, true⟩, ⟨2, 100, true, true⟩] ∧
          NoSlotLost c.state) = true := by
    decide +kernel
  obtain ⟨c, hc, hend⟩ := (Option.any_eq_true _ _).mp hrun
  obtain ⟨hpushed, hkept⟩ := of_decide_eq_true hend
  have hreach : DecoderSystem.Reachable c := (Config.ReachesOffered.follow .refl _ hc).reaches
  exact ⟨c, hreach, hpushed, (no_slot_lost_iff hreach).mp hkept⟩

/-- A decoder offers one slot of five bytes; a keyframe arrives whose codec data is larger. -/
def oversizing : List (Move DecoderThread External DecoderJob) :=
  InputGrammar.runJob .surface (.lifecycle (.surfaceCreated 1 2)) ++
    InputGrammar.runJob .network (.reconfigure ⟨1280, 720, 30⟩) ++
    InputGrammar.runJob .network (.activate 1) ++
    InputGrammar.runJob (.codec 0) (.needInput 7 ⟨0, 5, true, true⟩) ++
    InputGrammar.runJob .network (.video InputGrammar.keyframeMessage)

/-- Nobody is inside an operation, and the slot is gone without a push. -/
theorem oversized_input_loses_slot : ∃ c, DecoderSystem.Reachable c ∧
    (c.threads .network).result = some () ∧ (c.threads .surface).result = some () ∧
    (∀ n, n ≤ 1 → (c.threads (.codec n)).result = some ()) ∧
    c.state.lifecycleMutex = none ∧ c.state.decoder = some 7 ∧ ¬ NoSlotLost c.state := by
  have hrun : (Config.follow DecoderSystem.spawn (fun _ _ _ => True) (fun _ _ _ => True)
      oversizing (Config.idle {})).any
      (fun c => (c.threads .network).result = some () ∧ (c.threads .surface).result = some () ∧
        (∀ n, n ≤ 1 → (c.threads (.codec n)).result = some ()) ∧
        c.state.lifecycleMutex = none ∧ c.state.decoder = some 7 ∧ ¬ NoSlotLost c.state) = true := by
    decide +kernel
  obtain ⟨c, hc, hend⟩ := (Option.any_eq_true _ _).mp hrun
  exact ⟨c, (Config.ReachesOffered.follow .refl _ hc).reaches, of_decide_eq_true hend⟩

end HarmonyScreen.Proofs.InputSlots
