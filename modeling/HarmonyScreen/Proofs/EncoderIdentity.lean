import HarmonyScreen.Extension.Offscreen

namespace HarmonyScreen.Proofs.EncoderIdentity
open Lib Attempt Receiver Extension Offscreen DirectProtocol VideoContract

variable {n : Nat} {i : Thread} {s t u : Controller}

/-- The message names the source epoch of its connection, and the encoder of its access unit
was configured for the contract of the connection. -/
def Matching : Event → Prop
  | .sent sourceEpoch mediaContract configured message =>
    (∃ epoch : Nat, epoch < 2 ^ 32 ∧ sourceEpoch = .integer epoch ∧
      (message.drop 8).take 4 = bigEndian 4 epoch) ∧ configured = some mediaContract
  | _ => True

def isStart : Event → Bool
  | .startCalled _ => true
  | _ => false

section Identity

/-- What decides whose a chunk is. -/
structure Identity where
  sourceEpoch : Number
  mediaContract : Option MediaContract
  receiverConnection : Option Nat
  connections : List (Number × MediaContract)
  encoders : List (EncoderBinding × Option MediaContract)
  generation : Nat
  loops : List Bool
  log : List Event

def identity (s : Controller) : Identity where
  sourceEpoch := s.sourceEpoch
  mediaContract := s.mediaContract
  receiverConnection := s.receiverConnection
  connections := s.connections.map fun c => (c.sourceEpoch, c.mediaContract)
  encoders := s.encoders.map fun v => (v.binding, v.configured)
  generation := s.activeEncoderGeneration
  loops := s.loops
  log := s.log

theorem map_modify (l : List α) (k : Nat) (f : α → α) (g : α → β) (h : ∀ a, g (f a) = g a) :
    (l.modify k f).map g = l.map g := by
  apply List.ext_getElem?
  intro j
  rw [List.getElem?_map, List.getElem?_modify, List.getElem?_map]
  cases l[j]? with
  | none => rfl
  | some a =>
    split
    · exact congrArg some (h a)
    · rfl

@[simp] theorem identity_setSocket (s : Controller) (j : Nat) (f : Socket → Socket) :
    identity (s.setSocket j f) = identity s := rfl

@[simp] theorem identity_setRecovery (s : Controller) (g : Nat) (f : Recovery → Recovery) :
    identity (s.setRecovery g f) = identity s := rfl

theorem identity_setConnection (s : Controller) (k : Nat) {f : Connection → Connection}
    (hf : ∀ c, (f c).sourceEpoch = c.sourceEpoch ∧ (f c).mediaContract = c.mediaContract) :
    identity (s.setConnection k f) = identity s := by
  have hmap := map_modify s.connections k f (fun c => (c.sourceEpoch, c.mediaContract))
    fun c => Prod.ext (hf c).1 (hf c).2
  exact congrArg (fun connections => { identity s with connections := connections }) hmap

@[simp] theorem identity_closeConnection (s : Controller) (k : Nat) :
    identity (s.closeConnection k) = identity s := by
  unfold Controller.closeConnection
  split
  · exact identity_setConnection s k fun _ => ⟨rfl, rfl⟩
  · exact identity_setConnection _ k fun _ => ⟨rfl, rfl⟩

@[simp] theorem identity_abort (s : Controller) (recovery : Option Nat) :
    identity (s.abort recovery) = identity s := by
  cases recovery <;> rfl

@[simp] theorem identity_openSocket (s : Controller) (k : Nat) (recovery : Option Nat) :
    identity (s.openSocket k recovery).2 = identity s :=
  identity_setConnection _ k fun _ => ⟨rfl, rfl⟩

@[simp] theorem identity_connectSucceeded (s : Controller) (k j : Nat) (late : Bool) :
    identity (s.connectSucceeded k j late) = identity s :=
  identity_setConnection _ k fun _ => ⟨rfl, rfl⟩

@[simp] theorem identity_connectFailed (s : Controller) (k j : Nat) :
    identity (s.connectFailed k j) = identity s :=
  identity_setConnection _ k fun _ => ⟨rfl, rfl⟩

@[simp] theorem identity_beginReceiverRecovery (s : Controller) (k : Nat) (now : Int) :
    identity (s.beginReceiverRecovery k now) = identity s := by
  unfold Controller.beginReceiverRecovery
  split <;> rfl

@[simp] theorem identity_onClose (s : Controller) (k : Nat) (code : Option Int)
    (wasClean : Option Bool) (now : Int) : identity (s.onClose k code wasClean now) = identity s := by
  unfold Controller.onClose
  split
  · rfl
  · dsimp only
    split
    · rw [identity_beginReceiverRecovery]
      rfl
    · rfl

@[simp] theorem identity_closeEvent (s : Controller) (j : Nat) (code : Option Int)
    (wasClean : Option Bool) (now : Int) :
    identity (s.closeEvent j code wasClean now) = identity s := by
  unfold Controller.closeEvent
  split
  · rfl
  · split
    · rfl
    · dsimp only
      rw [identity_onClose, identity_setConnection, identity_setSocket]
      intro c
      split <;> exact ⟨rfl, rfl⟩

@[simp] theorem identity_endRecovery (s : Controller) (g : Nat) :
    identity (s.endRecovery g) = identity s := by
  unfold Controller.endRecovery
  dsimp only
  split <;> rfl

@[simp] theorem identity_recovered (s : Controller) (r : Recovery) (now : Int) :
    identity (s.recovered r now) = identity s := by
  unfold Controller.recovered
  split
  · exact identity_closeConnection s _
  · rfl

@[simp] theorem identity_recoveryFailed (s : Controller) (r : Recovery) (now : Int) :
    identity (s.recoveryFailed r now) = identity s := by
  unfold Controller.recoveryFailed
  split <;> rfl

@[simp] theorem identity_beginAttempt (s : Controller) (r : Recovery) (now : Int) :
    identity (s.beginAttempt r now).2 = identity s := by
  unfold Controller.beginAttempt
  split
  · exact identity_endRecovery s _
  · dsimp only
    split
    · rfl
    · exact identity_openSocket _ _ _

@[simp] theorem identity_attemptFailed (s : Controller) (r : Recovery) (error : ConnectError)
    (now : Int) : identity (s.attemptFailed r error now) = identity s := by
  unfold Controller.attemptFailed
  split
  · exact identity_endRecovery s _
  · split
    · rw [identity_endRecovery, identity_recoveryFailed]
    · rfl

@[simp] theorem identity_endAttempt (s : Controller) (r : Recovery) (k : Nat)
    (socket : Option Nat) (e : Outside) : identity (s.endAttempt r k socket e) = identity s := by
  unfold Controller.endAttempt
  split
  · exact identity_attemptFailed s _ _ _
  · split
    · dsimp only
      rw [identity_endRecovery, identity_recovered, identity_connectSucceeded]
    · rw [identity_attemptFailed, identity_connectFailed]

end Identity

section Threads

def Live (s : Controller) (loop : Nat) : Prop := s.loops[loop]? = some false

/-- The thread that may change the source: the one that starts the capture, and from then on
the frame loop. -/
def Owns (n : Nat) (s : Controller) : Thread → Prop
  | .handler m => m = n ∧ ∀ loop, ¬ Live s loop
  | .frames loop => Live s loop
  | .recovery _ => False

/-- What the other threads do to the source. -/
structure Spared (a b : Identity) : Prop where
  sourceEpoch : b.sourceEpoch = a.sourceEpoch
  mediaContract : b.mediaContract = a.mediaContract ∨ b.mediaContract = none
  receiver : b.receiverConnection = a.receiverConnection ∨ b.receiverConnection = none
  connections : b.connections = a.connections
  encoders : b.encoders = a.encoders
  generation : a.generation ≤ b.generation
  loops : b.loops = a.loops
  log : a.log <+: b.log
  sent : (∀ e ∈ a.log, Matching e) → ∀ e ∈ b.log, Matching e

def Spares (s t : Controller) : Prop := Spared (identity s) (identity t)

theorem Spares.of_eq (h : identity t = identity s) : Spares s t := by
  unfold Spares
  rw [h]
  exact ⟨rfl, .inl rfl, .inl rfl, rfl, rfl, le_rfl, rfl, List.prefix_rfl, id⟩

theorem Spares.refl (s : Controller) : Spares s s := .of_eq rfl

theorem Spares.trans (h : Spares s t) (h' : Spares t u) : Spares s u where
  sourceEpoch := h'.sourceEpoch.trans h.sourceEpoch
  mediaContract := h'.mediaContract.elim (fun ht => ht ▸ h.mediaContract) .inr
  receiver := h'.receiver.elim (fun ht => ht ▸ h.receiver) .inr
  connections := h'.connections.trans h.connections
  encoders := h'.encoders.trans h.encoders
  generation := h.generation.trans h'.generation
  loops := h'.loops.trans h.loops
  log := h.log.trans h'.log
  sent := h'.sent ∘ h.sent

theorem Spares.note (s : Controller) {e : Event} (he : Matching e) : Spares s (s.note e) := by
  refine ⟨rfl, .inl rfl, .inl rfl, rfl, rfl, le_rfl, rfl, ⟨[e], rfl⟩, fun hs f hf => ?_⟩
  rcases List.mem_append.mp hf with hf | hf
  · exact hs f hf
  · rw [List.mem_singleton.mp hf]
    exact he

theorem Spares.torn (s : Controller) (call : Option Call) (what : Teardown) :
    Spares s (s.torn call what) := by
  cases call with
  | none => exact .refl s
  | some call => exact .note s trivial

theorem Spares.live (h : Spares s t) (loop : Nat) : Live t loop ↔ Live s loop := by
  have hloops : t.loops = s.loops := h.loops
  rw [Live, Live, hloops]

theorem owns_congr (h : ∀ loop, Live t loop ↔ Live s loop) : Owns n t i ↔ Owns n s i := by
  cases i with
  | handler m => simp only [Owns, h]
  | frames loop => exact h loop
  | recovery g => exact Iff.rfl

theorem Spares.owns (h : Spares s t) : Owns n t i ↔ Owns n s i := owns_congr h.live

/-- An encoder that may still put out a chunk that is taken is configured for its contract. -/
def Configured (s : Controller) : Prop :=
  ∀ v ∈ s.encoders, v.binding.generation < s.activeEncoderGeneration ∨
    v.configured = some v.binding.contract

theorem Spares.encoder (h : Spares s t) {v : VideoEncoder} (hv : v ∈ t.encoders) :
    ∃ w ∈ s.encoders, w.binding = v.binding ∧ w.configured = v.configured := by
  have hmem : (v.binding, v.configured) ∈ s.encoders.map fun v => (v.binding, v.configured) := by
    have hencoders : _ = s.encoders.map fun v => (v.binding, v.configured) := h.encoders
    rw [← hencoders]
    exact List.mem_map_of_mem hv
  obtain ⟨w, hw, heq⟩ := List.mem_map.mp hmem
  exact ⟨w, hw, congrArg Prod.fst heq, congrArg Prod.snd heq⟩

theorem Spares.connection (h : Spares s t) {k : Nat} {c : Connection}
    (hc : s.connections[k]? = some c) : ∃ d, t.connections[k]? = some d ∧
      d.sourceEpoch = c.sourceEpoch ∧ d.mediaContract = c.mediaContract := by
  have hconnections : t.connections.map (fun c => (c.sourceEpoch, c.mediaContract)) =
      s.connections.map fun c => (c.sourceEpoch, c.mediaContract) := h.connections
  have hget := congrArg (fun l => l[k]?) hconnections
  simp only [List.getElem?_map, hc, Option.map_some] at hget
  obtain ⟨d, hd, heq⟩ := Option.map_eq_some_iff.mp hget
  exact ⟨d, hd, congrArg Prod.fst heq, congrArg Prod.snd heq⟩

theorem Spares.configured (h : Spares s t) (hs : Configured s) : Configured t := by
  intro v hv
  obtain ⟨w, hw, hbinding, hconfigured⟩ := h.encoder hv
  have hgeneration : s.activeEncoderGeneration ≤ t.activeEncoderGeneration := h.generation
  rcases hs w hw with hlt | hsome
  · left
    rw [← hbinding]
    omega
  · right
    rw [← hbinding, ← hconfigured, hsome]

end Threads

section Invariant

/-- The connection is the one for the source as the variables describe it. -/
def Connected (s : Controller) (k : Nat) : Prop :=
  ∃ c, s.connections[k]? = some c ∧ c.sourceEpoch = s.sourceEpoch ∧
    ∀ m, s.mediaContract = some m → validateMediaContract m = .ok c.mediaContract

structure Identified (s : Controller) : Prop where
  sent : ∀ e ∈ s.log, Matching e
  generations : ∀ v ∈ s.encoders, v.binding.generation ≤ s.activeEncoderGeneration
  receiver : ∀ k, s.receiverConnection = some k → Connected s k ∧ Configured s
  single : ∀ loop loop', Live s loop → Live s loop' → loop = loop'
  before : (∀ call, .startCalled call ∉ s.log) →
    s.receiverConnection = none ∧ ∀ loop, ¬ Live s loop

theorem Spares.connected (h : Spares s t) {k : Nat} (hs : Connected s k) : Connected t k := by
  obtain ⟨c, hc, hepoch, hcontract⟩ := hs
  obtain ⟨d, hd, hsame, hagain⟩ := h.connection hc
  have hsource : t.sourceEpoch = s.sourceEpoch := h.sourceEpoch
  refine ⟨d, hd, by rw [hsame, hepoch, hsource], fun m hm => ?_⟩
  rw [hagain]
  apply hcontract
  rcases h.mediaContract with hkeep | hnone
  · rw [← hm]
    exact hkeep.symm
  · have hnone' : t.mediaContract = none := hnone
    rw [hnone'] at hm
    cases hm

theorem Identified.spare (hs : Identified s) (h : Spares s t) : Identified t where
  sent := h.sent hs.sent
  generations := by
    intro v hv
    obtain ⟨w, hw, hbinding, -⟩ := h.encoder hv
    rw [← hbinding]
    exact (hs.generations w hw).trans h.generation
  receiver := by
    intro k hk
    have hreceiver : t.receiverConnection = s.receiverConnection ∨ t.receiverConnection = none :=
      h.receiver
    rw [hk] at hreceiver
    obtain ⟨hconnected, hconfigured⟩ :=
      hs.receiver k (hreceiver.resolve_right (Option.some_ne_none k)).symm
    exact ⟨h.connected hconnected, h.configured hconfigured⟩
  single := by
    intro loop loop' hl hl'
    exact hs.single loop loop' ((h.live loop).mp hl) ((h.live loop').mp hl')
  before := by
    intro hstart
    have hlog : s.log <+: t.log := h.log
    obtain ⟨hnone, hlive⟩ := hs.before fun call hcall => hstart call (hlog.subset hcall)
    refine ⟨?_, fun loop hl => hlive loop ((h.live loop).mp hl)⟩
    rcases h.receiver with hkeep | hdrop
    · exact Eq.trans hkeep hnone
    · exact hdrop

theorem owns_unique (hs : Identified s) {j : Thread} (hi : Owns n s i) (hj : Owns n s j) :
    i = j := by
  cases i with
  | recovery g => cases hi
  | handler m =>
    cases j with
    | recovery g => cases hj
    | handler m' => rw [hi.1, hj.1]
    | frames loop => exact absurd hj (hi.2 loop)
  | frames loop =>
    cases j with
    | recovery g => cases hj
    | handler m => exact absurd hi (hj.2 loop)
    | frames loop' => rw [hs.single loop loop' hi hj]

/-- Only the owner changes the source. -/
def discipline (n : Nat) : Discipline Thread Controller Outside where
  invariant := Identified
  offers := fun _ _ _ => True
  rely := fun i s t => Owns n s i → Spares s t
  guarantee := fun i s t => ¬ Owns n s i → Spares s t
  refl := fun _ s _ => .refl s
  trans := fun _ {_ _ _} h h' hi => (h hi).trans (h' ((h hi).owns.mpr hi))
  compatible := fun {_ _ _ _} hne hs h hj => h fun hi => hne (owns_unique hs hi hj)

end Invariant

section Others

theorem Spares.discardEncoder (s : Controller) (encoder : Nat) :
    Spares s (s.discardEncoder encoder) := by
  refine ⟨rfl, .inl rfl, .inl rfl, rfl, ?_, Nat.le_succ _, rfl, List.prefix_rfl, id⟩
  exact map_modify _ _ _ _ fun _ => rfl

theorem Spares.beginClosing (s : Controller) (e : Outside) : Spares s (s.beginClosing e).2 := by
  apply Spares.of_eq
  unfold Controller.beginClosing
  dsimp only
  split <;> exact identity_abort { s with receiverRecoveryGeneration := _ } _

theorem Spares.endClosing (s : Controller) : Spares s s.endClosing :=
  ⟨rfl, .inl rfl, .inr rfl, rfl, rfl, le_rfl, rfl, List.prefix_rfl, id⟩

theorem Spares.beginStop (s : Controller) (call : Call) : Spares s (s.beginStop call).2 := by
  unfold Controller.beginStop
  split
  · exact .note s trivial
  · refine .trans (.of_eq ?_) (.torn _ _ _)
    exact identity_abort { s with stopping := true, running := false, receiverRecoveryGeneration := _ } _

theorem Spares.resetVariables (s : Controller) : Spares s s.resetVariables :=
  ⟨rfl, .inr rfl, .inl rfl, rfl, rfl, le_rfl, rfl, List.prefix_rfl, id⟩

theorem every_pause : pause.run.Every Spares := every_await Spares.refl

theorem every_pauseIf (waits : Bool) : (pauseIf waits).run.Every Spares := by
  cases waits with
  | false => exact every_pure _
  | true => exact every_pause

theorem stopVideoEncoder_spares (call : Option Call) (flush : Bool) :
    (stopVideoEncoder call flush).run.Every Spares := by
  refine every_bind (every_turn fun _ s => ?_) fun taken => ?_
  · exact .trans (.of_eq (t := { s with videoEncoder := none }) rfl) (.torn _ _ _)
  rcases taken with ⟨_ | encoder, configured⟩
  · exact every_pure _
  · refine every_bind (every_pauseIf _) fun _ => every_turn fun _ s => ?_
    exact (Spares.discardEncoder s encoder).trans (.torn _ _ _)

theorem awaitRecovery_spares (recovery : Option Nat) : (awaitRecovery recovery).run.Every Spares := by
  cases recovery with
  | none => exact every_pure _
  | some g => exact every_await Spares.refl

theorem closeReceiver_spares (call : Option Call) : (closeReceiver call).run.Every Spares := by
  refine every_bind (every_turn fun e s => ?_) fun begun => ?_
  · exact (Spares.beginClosing s e).trans (.torn _ _ _)
  rcases begun with _ | ⟨k, recovery, draining⟩
  · exact every_pure _
  refine every_bind (every_pauseIf _) fun _ => ?_
  refine every_bind (every_turn fun _ s => .of_eq (identity_closeConnection s k)) fun _ => ?_
  refine every_bind (awaitRecovery_spares recovery) fun _ => every_turn fun _ s => ?_
  exact (Spares.endClosing s).trans (.torn _ _ _)

theorem stopCapture_spares (i : Thread) : (stopCapture i).run.Every Spares := by
  refine every_bind (every_turn fun _ s => ?_) fun begun => ?_
  · exact (Spares.note s (e := .stopCalled ⟨i, s.log.length⟩) trivial).trans (.beginStop _ _)
  rcases begun with ⟨call, _ | reader⟩
  · exact every_pure _
  refine every_bind (every_pauseIf _) fun _ => ?_
  refine every_bind (every_turn fun _ s => ?_) fun loop => ?_
  · exact .trans (.of_eq (t := s.stopTracks) rfl) (.torn _ _ _)
  refine every_bind (every_await Spares.refl) fun _ => ?_
  refine every_bind (every_turn fun _ s => .of_eq rfl) fun _ => ?_
  refine every_bind (stopVideoEncoder_spares _ _) fun _ => ?_
  refine every_bind (closeReceiver_spares _) fun _ => every_turn fun _ s => ?_
  exact ((Spares.resetVariables s).trans (.torn _ _ _)).trans (.note _ trivial)

theorem attempt_spares (g : Nat) : (attempt g).run.Every Spares := by
  refine every_bind (every_turn fun e s => ?_) fun begun => ?_
  · cases s.recovery? g with
    | none => exact .refl s
    | some r =>
      apply Spares.of_eq
      dsimp only
      split
      · rfl
      · exact identity_beginAttempt s r e.now
  rcases begun with _ | ⟨connection, socket⟩
  · exact every_pure _
  refine every_bind (every_pauseIf _) fun _ => every_turn fun e s => ?_
  cases s.recovery? g with
  | none => exact .refl s
  | some r => exact .of_eq (identity_endAttempt s r connection socket e)

theorem handle_spares (job : Job) (e : Outside) (s : Controller)
    (hjob : ∀ encoder chunk, job ≠ .output encoder chunk) : Spares s (handle job e s) := by
  apply Spares.of_eq
  cases job with
  | output encoder chunk => exact absurd rfl (hjob encoder chunk)
  | trackEnded =>
    simp only [handle]
    split <;> rfl
  | encoderError encoder =>
    simp only [handle, Controller.encoderError]
    split
    · rfl
    · split <;> rfl
  | socketClosed j code wasClean => exact identity_closeEvent s j code wasClean e.now
  | socketLost j => rfl
  | receiverTelemetry invalid => rfl
  | keyframe => rfl
  | receiverError => rfl
  | startCapture streamId directInfo => rfl
  | stopCapture => rfl
  | consumeFrame => rfl
  | attempt => rfl

/-- The header is the one that `createDirectVideoMessage` wrote. -/
theorem deliver_epoch {chunk : EncodedVideoChunk} {connected takes : Bool} {sourceEpoch : Number}
    {o o' : DirectDeliveryOrchestrator} {telemetry telemetry' : DirectTelemetry} {message : Bytes}
    (h : o.deliver chunk connected takes sourceEpoch telemetry =
      .ok (some message, o', telemetry')) :
    ∃ epoch : Nat, epoch < 2 ^ 32 ∧ sourceEpoch = .integer epoch ∧
      (message.drop 8).take 4 = bigEndian 4 epoch := by
  unfold DirectDeliveryOrchestrator.deliver at h
  split at h
  · cases h
  split at h
  · cases h
  split at h
  · cases h
  · rename_i created hcreated
    split at h
    · cases h
    · obtain rfl : created = message := by
        simp only [Except.ok.injEq, Prod.mk.injEq, Option.some.injEq] at h
        exact h.1
      obtain ⟨epoch, number, timestamp, hepoch, -, -, -, hbound, -, -, rfl⟩ :=
        createDirectVideoMessage_ok.mp hcreated
      exact ⟨epoch, hbound, hepoch, rfl⟩

theorem isCurrentEncoderBinding_iff {binding : EncoderBinding} {generation : Nat}
    {sourceEpoch : Number} {contract : Option MediaContract} :
    isCurrentEncoderBinding binding generation sourceEpoch contract = true ↔
      binding.generation = generation ∧ binding.sourceEpoch = sourceEpoch ∧
        ∃ m, contract = some m ∧ validateMediaContract m = .ok binding.contract := by
  unfold isCurrentEncoderBinding
  constructor
  · intro h
    split at h
    · cases h
    · rename_i hsame
      simp only [not_or, ne_eq, not_not] at hsame
      cases contract with
      | none => cases h
      | some m =>
        cases hm : validateMediaContract m with
        | error message => simp [hm] at h
        | ok normalized =>
          simp only [Option.map_some, hm, decide_eq_true_eq] at h
          exact ⟨hsame.1, hsame.2, m, rfl, by rw [h]; exact hm⟩
  · rintro ⟨hgeneration, hepoch, m, rfl, hm⟩
    simp [hgeneration, hepoch, hm]

theorem createEncoderBinding_generation {generation : Nat} {sourceEpoch : Number}
    {contract : MediaContract} {binding : EncoderBinding}
    (h : createEncoderBinding generation sourceEpoch contract = .ok binding) :
    binding.generation = generation := by
  unfold createEncoderBinding at h
  split at h
  · cases h
  · cases hm : validateMediaContract contract with
    | error message => simp [hm, Except.map] at h
    | ok normalized =>
      simp only [hm, Except.map, Except.ok.injEq] at h
      rw [← h]

/-- What `handleEncodedChunk` sends comes from an encoder that is still current, so that the
connection is the one for its source. -/
theorem handleEncodedChunk_spares (hs : Identified s) {v : VideoEncoder} (hv : v ∈ s.encoders)
    (chunk : EncodedVideoChunk) (takes : Bool) :
    Spares s (s.handleEncodedChunk v chunk takes) := by
  unfold Controller.handleEncodedChunk
  split
  · exact .of_eq rfl
  · rename_i hcurrent
    simp only [Bool.not_eq_true', Bool.not_eq_false] at hcurrent
    obtain ⟨hgeneration, hepoch, m, hm, hvalid⟩ := isCurrentEncoderBinding_iff.mp hcurrent
    split
    · exact .of_eq rfl
    · rename_i message delivery counters hdeliver
      dsimp only
      split
      · rename_i sent connection hconnection
        refine .trans (.of_eq ?_) (.note _ ?_)
        · rfl
        obtain ⟨k, hk, hget⟩ := Option.bind_eq_some_iff.mp hconnection
        obtain ⟨⟨c, hc, hsource, hcontract⟩, hconfigured⟩ := hs.receiver k hk
        obtain rfl : c = connection := by
          rw [hc] at hget
          exact Option.some.inj hget
        have hsame : v.binding.contract = c.mediaContract := by
          have hboth := (hcontract m hm).symm.trans hvalid
          exact (Except.ok.inj hboth).symm
        refine ⟨?_, ?_⟩
        · obtain ⟨epoch, hbound, hinteger, hheader⟩ := deliver_epoch hdeliver
          exact ⟨epoch, hbound, by rw [hsource, ← hepoch, hinteger], hheader⟩
        · rw [← hsame]
          exact (hconfigured v hv).resolve_left (by omega)
      · exact .of_eq rfl

end Others

section Owner

/-- The owner knows `A`. -/
def Owned (n : Nat) (i : Thread) (A : Controller → Prop) (s : Controller) : Prop :=
  Owns n s i ∧ (∃ call, .startCalled call ∈ s.log) ∧ A s

def Closed (s : Controller) : Prop := s.receiverConnection = none

/-- There is no connection, and an encoder for the next one. -/
def Ready (s : Controller) : Prop := Closed s ∧ Configured s

variable {A B E : Controller → Prop} {C : α → Controller → Prop}

theorem Spares.closed (h : Spares s t) (hs : Closed s) : Closed t :=
  h.receiver.elim (fun hkeep => hkeep.trans hs) id

theorem Spares.ready (h : Spares s t) (hs : Ready s) : Ready t :=
  ⟨h.closed hs.1, h.configured hs.2⟩

theorem Owned.spare (hA : A s → A t) (hs : Owned n i A s) (h : Spares s t) : Owned n i A t := by
  obtain ⟨howns, ⟨call, hcall⟩, ha⟩ := hs
  have hlog : s.log <+: t.log := h.log
  exact ⟨h.owns.mpr howns, ⟨call, hlog.subset hcall⟩, hA ha⟩

theorem Owned.weaken (h : Owned n i A s) (hAB : A s → B s) : Owned n i B s :=
  ⟨h.1, h.2.1, hAB h.2.2⟩

theorem stable_owned (hA : ∀ s t, Spares s t → A s → A t) :
    (discipline n).Stable i (Owned n i A) :=
  fun s t hs hrely _ => hs.spare (hA s t (hrely hs.1)) (hrely hs.1)

theorem stable_closed : (discipline n).Stable i (Owned n i Closed) :=
  stable_owned fun _ _ => Spares.closed

theorem stable_ready : (discipline n).Stable i (Owned n i Ready) :=
  stable_owned fun _ _ => Spares.ready

theorem stable_owner : (discipline n).Stable i (Owned n i fun _ => True) :=
  stable_owned fun _ _ _ => id

/-- A section of the owner. -/
theorem outline_turn {f : Outside → Controller → α × Controller} {B : α → Controller → Prop}
    (hA : ∀ s t, Spares s t → A s → A t) (hB : ∀ a s t, Spares s t → B a s → B a t)
    (h : ∀ e s, Identified s → Owned n i A s →
      Identified (f e s).2 ∧ Owned n i (B (f e s).1) (f e s).2) :
    Attempt.Outline (discipline n) i (Owned n i A) (turn f) (fun a => Owned n i (B a)) E := by
  refine .turn (stable_owned hA) (fun a => stable_owned (hB a)) fun e s hs howned _ => ?_
  obtain ⟨hkeep, hafter⟩ := h e s hs howned
  exact ⟨hkeep, fun hno => absurd howned.1 hno, hafter⟩

/-- What the owner does like any other thread. -/
theorem outline_spares {x : Async α} (hx : x.run.Every Spares)
    (hA : ∀ s t, Spares s t → A s → A t) :
    Attempt.Outline (discipline n) i (Owned n i A) x (fun _ => Owned n i A)
      (Owned n i fun _ => True) :=
  (Attempt.Outline.of_every hx (stable_owned hA) (fun _ _ hs h => ⟨hs.spare h, fun _ => h⟩)
    fun s t hs h => hs.spare (hA s t h) h).weaken (fun _ _ => id) (fun _ _ _ => id)
    fun _ _ h => h.weaken fun _ => trivial

theorem outline_passed (result : Except String α) (hA : ∀ s t, Spares s t → A s → A t) :
    Attempt.Outline (discipline n) i (Owned n i A) (ofResult result) (fun _ => Owned n i A)
      (Owned n i fun _ => True) :=
  (Attempt.Outline.passed result (stable_owned hA) fun _ h => h.weaken fun _ => trivial).weaken
    (fun _ _ => id) (fun _ _ _ h => h.2) fun _ _ => id

theorem outline_throw (message : String) :
    Attempt.Outline (discipline n) i (Owned n i A) (throw message : Async α)
      (fun a => Owned n i (C a)) (Owned n i fun _ => True) :=
  (Attempt.Outline.throw message stable_owner).weaken (fun _ _ h => h.weaken fun _ => trivial)
    (fun _ _ _ => id) fun _ _ => id

theorem forget {x : Async α} {P : Controller → Prop}
    (h : Attempt.Outline (discipline n) i P x C E) :
    Attempt.Outline (discipline n) i P x C fun _ => True :=
  h.weaken (fun _ _ => id) (fun _ _ _ => id) fun _ _ _ => trivial

/-- Where there is no connection the source may be described anew. -/
theorem outline_redescribe {f : Outside → Controller → α × Controller}
    {B : α → Controller → Prop} (hA : ∀ s t, Spares s t → A s → A t)
    (hB : ∀ a s t, Spares s t → B a s → B a t)
    (hclosed : ∀ e s, A s → Closed (f e s).2) (hloops : ∀ e s, (f e s).2.loops = s.loops)
    (hlog : ∀ e s, s.log <+: (f e s).2.log ∧
      ((∀ e ∈ s.log, Matching e) → ∀ d ∈ (f e s).2.log, Matching d))
    (hencoders : ∀ e s, Identified s → ∀ v ∈ (f e s).2.encoders,
      v.binding.generation ≤ (f e s).2.activeEncoderGeneration)
    (h : ∀ e s, Identified s → A s → B (f e s).1 (f e s).2) :
    Attempt.Outline (discipline n) i (Owned n i A) (turn f) (fun a => Owned n i (B a)) E := by
  refine outline_turn hA hB fun e s hs howned => ?_
  obtain ⟨howns, ⟨call, hcall⟩, ha⟩ := howned
  have hlive : ∀ loop, Live (f e s).2 loop ↔ Live s loop := fun loop => by
    rw [Live, Live, hloops e s]
  have hstarted := (hlog e s).1.subset hcall
  refine ⟨⟨(hlog e s).2 hs.sent, hencoders e s hs, ?_, ?_, ?_⟩,
    (owns_congr hlive).mpr howns, ⟨call, hstarted⟩, h e s hs ha⟩
  · intro k hk
    have hnone : (f e s).2.receiverConnection = none := hclosed e s ha
    rw [hnone] at hk
    cases hk
  · intro loop loop' hl hl'
    exact hs.single loop loop' ((hlive loop).mp hl) ((hlive loop').mp hl')
  · intro hno
    exact absurd hstarted (hno call)

theorem createEncoder_outline (contract : MediaContract) :
    Attempt.Outline (discipline n) i (Owned n i Closed)
      (turn fun e s => s.createEncoder contract e.holds)
      (fun created => Owned n i fun s => Closed s ∧
        ∀ encoder, created = .ok (some encoder) → Configured s) E := by
  refine outline_redescribe (fun _ _ => Spares.closed)
    (fun created s t hst hb => ⟨hst.closed hb.1, fun encoder hc => hst.configured (hb.2 encoder hc)⟩)
    (fun e s hclosed => ?_) (fun e s => ?_) (fun e s => ?_) (fun e s hs => ?_) fun e s hs hclosed => ?_
  · unfold Controller.createEncoder
    dsimp only
    split <;> exact hclosed
  · unfold Controller.createEncoder
    dsimp only
    split <;> rfl
  · unfold Controller.createEncoder
    dsimp only
    split <;> exact ⟨List.prefix_rfl, id⟩
  · unfold Controller.createEncoder
    dsimp only
    split
    · intro v hv
      exact (hs.generations v hv).trans (Nat.le_succ _)
    · rename_i binding hbinding
      intro v hv
      rcases List.mem_append.mp hv with hv | hv
      · exact (hs.generations v hv).trans (Nat.le_succ _)
      · rw [List.mem_singleton.mp hv]
        exact (createEncoderBinding_generation hbinding).le
  · unfold Controller.createEncoder
    dsimp only
    split
    · exact ⟨hclosed, fun encoder hc => nomatch hc⟩
    · rename_i binding hbinding
      refine ⟨hclosed, fun encoder hc => ?_⟩
      intro v hv
      rcases List.mem_append.mp hv with hv | hv
      · left
        exact Nat.lt_succ_of_le (hs.generations v hv)
      · right
        rw [List.mem_singleton.mp hv]
        simp only [Except.ok.injEq] at hc
        split at hc
        · rename_i hholds
          simp [hholds]
        · cases hc

theorem configureAutoVideoEncoder_outline (candidates : List MediaContract) :
    Attempt.Outline (discipline n) i (Owned n i Closed) (configureAutoVideoEncoder candidates)
      (fun _ => Owned n i Ready) (Owned n i fun _ => True) := by
  induction candidates with
  | nil => exact outline_throw _
  | cons contract rest ih =>
    refine .bind (outline_passed _ fun _ _ => Spares.closed) stable_owner fun requested => ?_
    refine .bind (outline_spares every_pause fun _ _ => Spares.closed) stable_owner fun _ => ?_
    refine .bind (outline_spares (every_turn fun _ s => .refl s) fun _ _ => Spares.closed) stable_owner
      fun supported => ?_
    split
    · refine .bind (createEncoder_outline _) stable_owner fun created => ?_
      refine .bind (Q := fun made => Owned n i fun s => Closed s ∧ (made.isSome → Configured s))
        ?_ stable_owner fun made => ?_
      · refine (Attempt.Outline.passed created (stable_owned fun s t hst hb => ?_)
          fun _ h => h.weaken fun _ => trivial).weaken (fun _ _ => id) ?_ fun _ _ => id
        · exact ⟨hst.closed hb.1, fun encoder hc => hst.configured (hb.2 encoder hc)⟩
        · rintro made s - ⟨hmade, howned⟩
          refine howned.weaken fun hb => ⟨hb.1, fun hsome => ?_⟩
          obtain ⟨encoder, rfl⟩ := Option.isSome_iff_exists.mp hsome
          exact hb.2 encoder hmade
      · cases made with
        | none =>
          exact ih.weaken (fun _ _ h => h.weaken And.left) (fun _ _ _ => id) fun _ _ => id
        | some encoder =>
          exact (Attempt.Outline.kept _ stable_ready).weaken
            (fun _ _ h => h.weaken fun hb => ⟨hb.1, hb.2 rfl⟩) (fun _ _ _ => id) fun _ _ => id
    · exact ih

theorem takeEncoder_outline (encoder : Nat) (contract : MediaContract) :
    Attempt.Outline (discipline n) i (Owned n i Ready)
      (turn fun e s => s.takeEncoder encoder contract e.holds) (fun _ => Owned n i Ready) E :=
  outline_redescribe (fun _ _ => Spares.ready) (fun _ _ _ => Spares.ready) (fun _ _ => And.left)
    (fun _ _ => rfl) (fun _ _ => ⟨List.prefix_rfl, id⟩) (fun _ _ hs => hs.generations)
    fun _ _ _ => id

theorem createVideoEncoder_outline :
    Attempt.Outline (discipline n) i (Owned n i Closed) createVideoEncoder
      (fun _ => Owned n i Ready) (Owned n i fun _ => True) := by
  refine .bind (outline_spares (every_turn fun _ s => .refl s) fun _ _ => Spares.closed) stable_owner
    fun candidates => ?_
  refine .bind (outline_passed _ fun _ _ => Spares.closed) stable_owner fun candidates => ?_
  refine .bind (configureAutoVideoEncoder_outline _) stable_owner fun result => ?_
  refine .bind (takeEncoder_outline _ _) stable_owner fun taken => ?_
  exact outline_passed _ fun _ _ => Spares.ready

/-- The new connection is made for the source as it is described. -/
theorem Identified.connect (hs : Identified s) (hconfigured : Configured s)
    {normalized : MediaContract}
    (hnormalized : s.mediaContract.map validateMediaContract = some (.ok normalized))
    (hstarted : ∃ call, .startCalled call ∈ s.log) :
    Identified { s with
      connections := s.connections ++ [⟨s.sourceEpoch, normalized, none, false⟩]
      receiverConnection := some s.connections.length } where
  sent := hs.sent
  generations := hs.generations
  receiver := by
    intro k hk
    cases hk
    refine ⟨⟨_, List.getElem?_concat_length, rfl, fun m hm => ?_⟩, hconfigured⟩
    have hm' : s.mediaContract = some m := hm
    rw [hm', Option.map_some] at hnormalized
    exact Option.some.inj hnormalized
  single := hs.single
  before := by
    obtain ⟨call, hcall⟩ := hstarted
    intro hno
    exact absurd hcall (hno call)

theorem beginConnection_outline :
    Attempt.Outline (discipline n) i (Owned n i Ready)
      (turn fun _ s => s.beginConnection s.mediaContract)
      (fun _ => Owned n i fun _ => True) E := by
  refine outline_turn (fun _ _ => Spares.ready) (fun _ _ _ _ => id) fun e s hs howned => ?_
  obtain ⟨howns, hstarted, -, hconfigured⟩ := howned
  unfold Controller.beginConnection
  split
  · exact ⟨hs, howns, hstarted, trivial⟩
  split
  · exact ⟨hs, howns, hstarted, trivial⟩
  · exact ⟨hs, howns, hstarted, trivial⟩
  · rename_i normalized hnormalized
    split
    · exact ⟨hs, howns, hstarted, trivial⟩
    · exact ⟨hs, howns, hstarted, trivial⟩
    · have hopened := Spares.of_eq (identity_openSocket
        { s with
          connections := s.connections ++ [⟨s.sourceEpoch, normalized, none, false⟩]
          receiverConnection := some s.connections.length } s.connections.length none)
      have hmade := hs.connect hconfigured hnormalized hstarted
      refine ⟨hmade.spare hopened, hopened.owns.mpr howns, ?_, trivial⟩
      obtain ⟨call, hcall⟩ := hstarted
      exact ⟨call, hopened.log.subset hcall⟩

theorem connectReceiver_outline {next : Controller → Controller}
    (hnext : ∀ s, identity (next s) = identity s) :
    Attempt.Outline (discipline n) i (Owned n i Ready) (connectReceiver next)
      (fun _ => Owned n i fun _ => True) (Owned n i fun _ => True) := by
  refine .bind beginConnection_outline stable_owner fun begun => ?_
  refine .bind (outline_passed _ fun _ _ _ => id) stable_owner fun connection => ?_
  refine .bind (outline_spares every_pause fun _ _ _ => id) stable_owner fun _ => ?_
  refine .bind (outline_spares (every_turn fun e s => ?_) fun _ _ _ => id) stable_owner fun ended =>
    outline_passed _ fun _ _ _ => id
  unfold Controller.endConnection
  split
  · apply Spares.of_eq
    refine (hnext _).trans ?_
    exact identity_connectSucceeded s connection.1 connection.2 false
  · dsimp only
    refine .trans (.of_eq (identity_connectFailed s connection.1 connection.2)) ?_
    split
    · exact ⟨rfl, .inl rfl, .inr rfl, rfl, rfl, le_rfl, rfl, List.prefix_rfl, id⟩
    · exact .refl _

/-- The owner alone makes connections, so that it finds none behind its own `closeReceiver`. -/
theorem closeReceiver_outline :
    Attempt.Outline (discipline n) i (Owned n i fun _ => True) (closeReceiver none)
      (fun _ => Owned n i Closed) (Owned n i fun _ => True) := by
  refine .bind (Q := fun begun => Owned n i fun s => begun = none → Closed s) ?_ stable_owner
    fun begun => ?_
  · refine outline_turn (fun _ _ _ => id) (fun _ _ _ h hb hnone => h.closed (hb hnone))
      fun e s hs howned => ?_
    have hspares := Spares.beginClosing s e
    refine ⟨hs.spare hspares, (howned.spare (fun _ => trivial) hspares).weaken fun _ hnone => ?_⟩
    unfold Controller.beginClosing at hnone
    dsimp only at hnone
    split at hnone
    · rename_i hclosed
      refine hspares.closed ?_
      have hsame := congrArg Identity.receiverConnection (identity_abort
        { s with receiverRecoveryGeneration := s.receiverRecoveryGeneration + 1 }
        s.receiverRecoveryAbortController)
      exact hsame.symm.trans hclosed
    · cases hnone
  cases begun with
  | none =>
    exact (Attempt.Outline.kept _ stable_closed).weaken (fun _ _ h => h.weaken fun hc => hc rfl)
      (fun _ _ _ => id) fun _ _ => id
  | some begun =>
    refine .bind (Q := fun _ => Owned n i fun _ => True) ?_ stable_owner fun _ => ?_
    · exact (outline_spares (every_pauseIf _) fun _ _ _ => id).weaken
        (fun _ _ h => h.weaken fun _ => trivial) (fun _ _ _ => id) fun _ _ => id
    refine .bind (outline_spares (every_turn fun _ s => .of_eq (identity_closeConnection s _))
      fun _ _ _ => id) stable_owner fun _ => ?_
    refine .bind (outline_spares (awaitRecovery_spares _) fun _ _ _ => id) stable_owner fun _ => ?_
    refine outline_turn (fun _ _ _ => id) (fun _ _ _ => Spares.closed) fun e s hs howned => ?_
    have hspares := (Spares.endClosing s).trans (.torn _ none .receiver)
    exact ⟨hs.spare hspares, (howned.spare (fun _ => trivial) hspares).weaken fun _ => rfl⟩

theorem changeSource_outline (width height : Nat) :
    Attempt.Outline (discipline n) i (Owned n i fun _ => True) (changeSource width height)
      (fun _ => Owned n i fun _ => True) (Owned n i fun _ => True) := by
  refine .bind (outline_spares every_pause fun _ _ _ => id) stable_owner fun _ => ?_
  refine .bind (outline_spares (every_turn fun _ s => .refl s) fun _ _ _ => id) stable_owner
    fun answer => ?_
  refine .bind (outline_passed _ fun _ _ _ => id) stable_owner fun nextEpoch => ?_
  refine .bind closeReceiver_outline stable_owner fun _ => ?_
  refine .bind (outline_spares (stopVideoEncoder_spares _ _) fun _ _ => Spares.closed) stable_owner
    fun _ => ?_
  refine .bind (Q := fun _ => Owned n i Closed) ?_ stable_owner fun _ => ?_
  · exact outline_redescribe (fun _ _ => Spares.closed) (fun _ _ _ => Spares.closed)
      (fun _ _ => id) (fun _ _ => rfl) (fun _ _ => ⟨List.prefix_rfl, id⟩)
      (fun _ _ hs => hs.generations) fun _ _ _ => id
  refine .bind createVideoEncoder_outline stable_owner fun _ => ?_
  refine .bind (connectReceiver_outline fun _ => rfl) stable_owner fun _ => ?_
  exact (Attempt.Outline.kept _ stable_owner)

theorem reconfigureForSource_outline (width height : Nat) :
    Attempt.Outline (discipline n) i (Owned n i fun _ => True) (reconfigureForSource width height)
      (fun _ => Owned n i fun _ => True) (Owned n i fun _ => True) := by
  refine .bind (outline_spares (every_turn fun _ s => ?_) fun _ _ _ => id) stable_owner
    fun begun => ?_
  · unfold Controller.beginReconfiguration
    split <;> exact .of_eq rfl
  split
  · exact .kept _ stable_owner
  · exact .tryCatch (changeSource_outline width height) (fun _ => stable_owner) fun _ =>
      outline_spares (every_turn fun _ s => .of_eq rfl) fun _ _ _ => id

theorem useRead_outline (failure : Option String) (frame : Option FrameRead) :
    Attempt.Outline (discipline n) i (Owned n i fun _ => True) (useRead failure frame)
      (fun _ => Owned n i fun _ => True) (Owned n i fun _ => True) := by
  rcases failure with _ | message
  · rcases frame with _ | frame
    · exact .kept _ stable_owner
    · refine .bind (outline_spares (every_turn fun _ s => ?_) fun _ _ _ => id) stable_owner
        fun frameUse => ?_
      · unfold Controller.observeFrame
        split <;> exact .of_eq rfl
      · cases frameUse with
        | reconfigure width height => exact reconfigureForSource_outline width height
        | use =>
          refine outline_spares (every_turn fun _ s => ?_) fun _ _ _ => id
          unfold Controller.encodeFrame
          split
          · exact .refl s
          · split
            · exact .of_eq rfl
            · dsimp only
              split <;> exact .of_eq rfl
  · exact outline_spares (every_turn fun _ s => .of_eq rfl) fun _ _ _ => id

end Owner

section Jobs

theorem outline_any {x : Async α} (hx : x.run.Every Spares) :
    Attempt.Outline (discipline n) i (fun _ => True) x (fun _ _ => True) fun _ => True :=
  .of_every hx .true (fun _ _ hs h => ⟨hs.spare h, fun _ => h⟩) fun _ _ _ _ => trivial

/-- The end of the loop is the end of its ownership. -/
theorem endLoop_outline (loop : Nat) :
    Attempt.Outline (discipline n) (.frames loop) (Owned n (.frames loop) fun _ => True)
      (turn fun _ s => ((), s.endLoop loop)) (fun _ _ => True) fun _ => True := by
  refine .turn stable_owner (fun _ => .true) fun _ s hs howned _ => ?_
  obtain ⟨howns, ⟨call, hcall⟩, -⟩ := howned
  have hlive : ∀ l, Live (s.endLoop loop) l → Live s l := by
    intro l hl
    have hget : (s.loops.set loop true)[l]? = some false := hl
    rw [List.getElem?_set] at hget
    split at hget
    · split at hget <;> cases hget
    · exact hget
  refine ⟨⟨hs.sent, hs.generations, hs.receiver, ?_, ?_⟩, fun hno => absurd howns hno, trivial⟩
  · intro l l' hl hl'
    exact hs.single l l' (hlive l hl) (hlive l' hl')
  · intro hno
    exact absurd hcall (hno call)

theorem consumeFrame_outline (loop : Nat) :
    Attempt.Outline (discipline n) (.frames loop) (Owned n (.frames loop) fun _ => True)
      (consumeFrame loop) (fun _ _ => True) fun _ => True := by
  refine .bind (forget (outline_spares (every_turn fun _ s => .refl s) fun _ _ _ => id)) .true
    fun reads => ?_
  split
  · exact endLoop_outline loop
  refine .bind (forget (outline_spares every_pause fun _ _ _ => id)) .true fun _ => ?_
  refine .bind (forget (outline_spares (every_turn fun _ s => .refl s) fun _ _ _ => id)) .true
    fun read => ?_
  refine .bind (forget (useRead_outline _ _)) .true fun state => ?_
  cases state with
  | goesOn =>
    exact (Attempt.Outline.kept _ .true).weaken (fun _ _ _ => trivial) (fun _ _ _ => id)
      fun _ _ => id
  | ended => exact endLoop_outline loop
  | failed =>
    exact .bind (forget (outline_spares every_pause fun _ _ _ => id)) .true fun _ =>
      endLoop_outline loop

/-- With the frame loop the ownership passes to it. -/
theorem launch_outline :
    Attempt.Outline (discipline n) (.handler n) (Owned n (.handler n) fun _ => True)
      (turn fun _ s => s.launch) (fun _ _ => True) fun _ => True := by
  refine .turn stable_owner (fun _ => .true) fun _ s hs howned _ => ?_
  obtain ⟨howns, ⟨call, hcall⟩, -⟩ := howned
  refine ⟨?_, fun hno => absurd howns hno, trivial⟩
  unfold Controller.launch
  split
  · refine ⟨hs.sent, hs.generations, hs.receiver, ?_, fun hno => absurd hcall (hno call)⟩
    have hlast : ∀ l, (s.loops ++ [false])[l]? = some false → l = s.loops.length := by
      intro l hl
      rw [List.getElem?_append] at hl
      split at hl
      · exact absurd hl (howns.2 l)
      · obtain ⟨hlt, -⟩ := List.getElem?_eq_some_iff.mp hl
        simp only [List.length_singleton] at hlt
        omega
    intro l l' hl hl'
    rw [hlast l hl, hlast l' hl']
  · exact hs

/-- Whether it fails or not, it has described the source. -/
theorem beginCapture_state (s : Controller) (call : Call) (directInfo : Option DirectInfo) :
    (s.beginCapture call directInfo).2.encoders = s.encoders ∧
      ∃ sourceEpoch, identity (s.beginCapture call directInfo).2 =
        { identity s with sourceEpoch := sourceEpoch, log := s.log ++ [.began call] } := by
  unfold Controller.beginCapture
  dsimp only
  split
  · exact ⟨rfl, s.sourceEpoch, rfl⟩
  · rename_i info
    split
    · exact ⟨rfl, s.sourceEpoch, rfl⟩
    · exact ⟨rfl, info.sourceEpoch, rfl⟩

theorem beginCapture_outline (call : Call) (directInfo : Option DirectInfo) :
    Attempt.Outline (discipline n) i (Owned n i Closed)
      (turn fun _ s => s.beginCapture call directInfo) (fun _ => Owned n i Closed) E := by
  refine outline_redescribe (fun _ _ => Spares.closed) (fun _ _ _ => Spares.closed)
    (fun _ s hs => ?_) (fun _ s => ?_) (fun _ s => ?_) (fun _ s hs => ?_) fun _ s _ hs => ?_
  all_goals obtain ⟨hencoders, sourceEpoch, hidentity⟩ := beginCapture_state s call directInfo
  · exact (congrArg Identity.receiverConnection hidentity).trans hs
  · exact congrArg Identity.loops hidentity
  · have hlog : (s.beginCapture call directInfo).2.log = s.log ++ [.began call] :=
      congrArg Identity.log hidentity
    rw [hlog]
    exact ⟨List.prefix_append _ _, (Spares.note s (e := .began call) trivial).sent⟩
  · have hgeneration : (s.beginCapture call directInfo).2.activeEncoderGeneration =
        s.activeEncoderGeneration := congrArg Identity.generation hidentity
    rw [hencoders, hgeneration]
    exact hs.generations
  · exact (congrArg Identity.receiverConnection hidentity).trans hs

theorem acquireStream_spares (s : Controller) (call : Call) (failure : Option String)
    (tracksFit : Bool) : Spares s (s.acquireStream call failure tracksFit).2 := by
  unfold Controller.acquireStream
  split
  · exact .refl s
  · have hnoted : Spares s ({ s with mediaStream := some s.log.length }.note (.acquired call)) :=
      .trans (.of_eq rfl) (.note { s with mediaStream := some s.log.length } trivial)
    dsimp only
    split
    · exact hnoted.trans (.of_eq rfl)
    · exact hnoted

theorem establish_outline (call : Call) (directInfo : Option DirectInfo) :
    Attempt.Outline (discipline n) (.handler n) (Owned n (.handler n) Closed)
      (establish call directInfo) (fun _ _ => True) fun _ => True := by
  have hclosed : ∀ s t, Spares s t → Closed s → Closed t := fun _ _ => Spares.closed
  refine .bind (beginCapture_outline call directInfo) .true fun begun => ?_
  refine .bind (forget (outline_passed _ hclosed)) .true fun _ => ?_
  refine .bind (forget (outline_spares every_pause hclosed)) .true fun _ => ?_
  refine .bind (forget (outline_spares (every_turn fun e s => acquireStream_spares s _ _ _) hclosed))
    .true fun acquired => ?_
  refine .bind (forget (outline_passed _ hclosed)) .true fun _ => ?_
  refine .bind (forget (outline_spares every_pause hclosed)) .true fun _ => ?_
  refine .bind (forget (outline_spares (every_turn fun _ s => ?_) hclosed)) .true fun opened => ?_
  · unfold Controller.openSizingReader
    split <;> exact .of_eq rfl
  refine .bind (forget (outline_passed _ hclosed)) .true fun _ => ?_
  refine .bind (forget (outline_spares every_pause hclosed)) .true fun _ => ?_
  refine .bind (forget (outline_spares (every_turn fun _ s => .refl s) hclosed)) .true
    fun first => ?_
  refine .bind (forget (outline_passed _ hclosed)) .true fun first => ?_
  refine .bind (forget (outline_spares (every_pauseIf _) hclosed)) .true fun _ => ?_
  refine .bind (forget (outline_spares (every_turn fun _ s => .of_eq rfl) hclosed)) .true
    fun sized => ?_
  refine .bind (forget (outline_passed _ hclosed)) .true fun _ => ?_
  refine .bind (forget createVideoEncoder_outline) .true fun _ => ?_
  refine .bind (forget (connectReceiver_outline fun _ => rfl)) .true fun _ => ?_
  refine .bind launch_outline .true fun launched => ?_
  exact (Attempt.Outline.passed launched .true fun _ => id).weaken (fun _ _ => id)
    (fun _ _ _ _ => trivial) fun _ _ => id

theorem startCapture_outline (streamId : Bool) (directInfo : Option DirectInfo) :
    Attempt.Outline (discipline n) (.handler n)
      (fun s => Owns n s (.handler n) ∧ Closed s)
      (startCapture (.handler n) streamId directInfo) (fun _ _ => True) fun _ => True := by
  have hstable : (discipline n).Stable (.handler n) fun s => Owns n s (.handler n) ∧ Closed s :=
    fun s t hs hrely _ => ⟨(hrely hs.1).owns.mpr hs.1, (hrely hs.1).closed hs.2⟩
  unfold startCapture
  split
  · exact (Attempt.Outline.throw (E := fun _ => True) _ .true).weaken (fun _ _ _ => trivial)
      (fun _ _ _ => id) fun _ _ => id
  refine .bind (Q := fun _ => Owned n (.handler n) Closed) ?_ .true fun call => ?_
  · refine .turn hstable (fun _ => stable_closed) fun _ s hs howned _ => ?_
    have hspares := Spares.note s (e := .startCalled ⟨.handler n, s.log.length⟩) trivial
    refine ⟨hs.spare hspares, fun _ => hspares, hspares.owns.mpr howned.1,
      ⟨⟨.handler n, s.log.length⟩, ?_⟩, hspares.closed howned.2⟩
    exact List.mem_append_right _ (List.mem_singleton_self _)
  refine .bind (forget (outline_spares (stopCapture_spares _) fun _ _ => Spares.closed)) .true
    fun _ => ?_
  exact .tryCatch (establish_outline _ _) (fun _ => .true) fun message =>
    outline_any (every_bind (stopCapture_spares _) fun _ => every_throw message)

/-- One capture: thread `n` starts it, and only once. -/
def oneCapture (n : Nat) (s : Controller) (i : Thread) (job : Job) : Bool :=
  scheduled s i job &&
    match job with
    | .startCapture _ _ => i == .handler n && s.log.all fun e => !isStart e
    | _ => true

theorem output_outline (encoder : Nat) (chunk : EncodedVideoChunk) :
    Attempt.Outline (discipline n) i (fun _ => True)
      (turn fun e s => ((), handle (.output encoder chunk) e s)) (fun _ _ => True)
      fun _ => True := by
  refine .turn .true (fun _ => .true) fun e s hs _ _ => ?_
  have hspares : Spares s (handle (.output encoder chunk) e s) := by
    simp only [handle]
    cases hv : s.encoders[encoder]? with
    | none => exact .refl s
    | some v => exact handleEncodedChunk_spares hs (List.mem_of_getElem? hv) chunk e.holds
  exact ⟨hs.spare hspares, fun _ => hspares, trivial⟩

theorem operate_meets (job : Job) (hs : Identified s) (hjob : oneCapture n s i job = true) :
    (operate i job).run.Meets (discipline n) i (After (fun _ _ => True) fun _ => True) s := by
  obtain ⟨hscheduled, hstart⟩ := Bool.and_eq_true_iff.mp hjob
  have hhandle : (∀ encoder chunk, job ≠ .output encoder chunk) →
      (turn fun e s => ((), handle job e s)).run.Meets (discipline n) i
        (After (fun _ _ => True) fun _ => True) s :=
    fun hno => outline_any (every_turn fun e s => handle_spares job e s hno) s hs trivial
  cases job with
  | startCapture streamId directInfo =>
    obtain ⟨hthread, hlog⟩ := Bool.and_eq_true_iff.mp hstart
    obtain rfl : i = .handler n := by simpa using hthread
    obtain ⟨hclosed, hlive⟩ := hs.before fun call hcall => by
      have hnot := List.all_eq_true.mp hlog _ hcall
      cases hnot
    exact startCapture_outline streamId directInfo s hs ⟨⟨rfl, hlive⟩, hclosed⟩
  | stopCapture => exact outline_any (stopCapture_spares i) s hs trivial
  | output encoder chunk => exact output_outline encoder chunk s hs trivial
  | consumeFrame =>
    cases i with
    | frames loop =>
      have hlive : s.loops[loop]? = some false := by simpa [scheduled] using hscheduled
      have hstarted : ∃ call, .startCalled call ∈ s.log := by
        by_contra hno
        exact (hs.before fun call hcall => hno ⟨call, hcall⟩).2 loop hlive
      exact consumeFrame_outline loop s hs ⟨hlive, hstarted, trivial⟩
    | handler m => cases hscheduled
    | recovery g => cases hscheduled
  | attempt =>
    cases i with
    | recovery g => exact outline_any (attempt_spares g) s hs trivial
    | handler m => cases hscheduled
    | frames loop => cases hscheduled
  | trackEnded => exact hhandle fun _ _ => nofun
  | encoderError encoder => exact hhandle fun _ _ => nofun
  | socketLost j => exact hhandle fun _ _ => nofun
  | socketClosed j code wasClean => exact hhandle fun _ _ => nofun
  | receiverTelemetry invalid => exact hhandle fun _ _ => nofun
  | keyframe => exact hhandle fun _ _ => nofun
  | receiverError => exact hhandle fun _ _ => nofun

end Jobs

section Runs

/-- Nothing is left of an earlier capture but closed encoders. -/
structure Fresh (s : Controller) : Prop where
  log : s.log = []
  receiver : s.receiverConnection = none
  generations : ∀ v ∈ s.encoders, v.binding.generation ≤ s.activeEncoderGeneration
  loops : ∀ loop, ¬ Live s loop

/-- The configurations that one capture reaches. -/
def Reachable (n : Nat) (initial : Controller) : Config Thread Controller Outside → Prop :=
  Config.Reaches spawn (fun s i job => oneCapture n s i job) (Config.idle initial)

theorem Fresh.identified (h : Fresh s) : Identified s where
  sent := by simp [h.log]
  generations := h.generations
  receiver := by simp [h.receiver]
  single := fun loop _ hl => absurd hl (h.loops loop)
  before := fun _ => ⟨h.receiver, h.loops⟩

/-- Whatever was sent carries the epoch of its connection, and was encoded for its contract. -/
theorem no_borrowed_identity {initial : Controller} (hinitial : Fresh initial)
    {c : Config Thread Controller Outside} (h : Reachable n initial c)
    {sourceEpoch : Number} {mediaContract : MediaContract} {configured : Option MediaContract}
    {message : Bytes} (hsent : .sent sourceEpoch mediaContract configured message ∈ c.state.log) :
    (∃ epoch : Nat, epoch < 2 ^ 32 ∧ sourceEpoch = .integer epoch ∧
      (message.drop 8).take 4 = bigEndian 4 epoch) ∧ configured = some mediaContract := by
  have hjobs : ∀ i job s, (discipline n).invariant s → True → oneCapture n s i job = true →
      (spawn i job).Meets (discipline n) i (fun _ _ => True) s := by
    intro i job s hs _ hjob
    refine Program.Meets.bind hs ((operate_meets job hs hjob).mono ?_)
    intro result t _ _ u _ _
    trivial
  have hkept : Config.Kept (discipline n) (fun _ _ => True) c :=
    Config.ReachesOffered.kept h.offered hinitial.identified (fun _ => .true) (fun _ => trivial)
      hjobs
  exact hkept.1.sent _ hsent

def device : DeviceRecord where
  senderId := some (List.replicate 16 0x61)
  deviceId := some (List.replicate 32 0x61)
  credential := some (List.replicate 64 0x62)
  host := none
  pairedAt := none

def contract : MediaContract := ⟨.integer 1280, .integer 720, .integer 30⟩

def wider : MediaContract := ⟨.integer 1920, .integer 1080, .integer 30⟩

/-- Everything that is asked for is granted. -/
def granted : Outside where
  frame := some ⟨1280, 720, 0, .ok true⟩
  candidates := .ok [contract]
  handshake := .ok ()

/-- A capture is started by thread `0`. -/
def started : List (Move Thread Outside Job) :=
  .start (.handler 0) (.startCapture true (some ⟨.integer 7, some device⟩)) ::
    List.replicate 20 (.step (.handler 0) granted)

/-- The source has become wider. -/
def widened : Outside where
  frame := some ⟨1920, 1080, 0, .ok true⟩
  candidates := .ok [wider]
  epoch := .ok (.integer 8)
  handshake := .ok ()

def readFrame (steps : Nat) : List (Move Thread Outside Job) :=
  .start (.frames 0) .consumeFrame :: List.replicate steps (.step (.frames 0) widened)

def keyframe (encoder : Nat) : List (Move Thread Outside Job) :=
  [.start (.handler 1) (.output encoder ⟨"key", .integer 0, [0, 0, 0, 1, 0x65]⟩),
    .step (.handler 1) {}]

/-- The third wide frame in a row has the source configured anew. The first encoder's output still
comes in the middle of it and behind it, then that of the second one. -/
def reconfigured : List (Move Thread Outside Job) :=
  started ++ keyframe 0 ++ readFrame 5 ++ readFrame 5 ++ readFrame 15 ++ keyframe 0 ++
    List.replicate 10 (.step (.frames 0) widened) ++ keyframe 0 ++ keyframe 1

/-- The source of each message that was sent. -/
def identities (log : List Event) : List (Number × MediaContract) :=
  log.filterMap fun e => match e with
    | .sent sourceEpoch mediaContract _ _ => some (sourceEpoch, mediaContract)
    | _ => none

theorem reconfigured_keyframes_sent : ∃ c, Reachable 0 {} c ∧
    identities c.state.log = [(.integer 7, contract), (.integer 8, wider)] ∧
    ∀ sourceEpoch mediaContract configured message,
      .sent sourceEpoch mediaContract configured message ∈ c.state.log →
      (∃ epoch : Nat, epoch < 2 ^ 32 ∧ sourceEpoch = .integer epoch ∧
        (message.drop 8).take 4 = bigEndian 4 epoch) ∧ configured = some mediaContract := by
  have hrun : (Config.follow spawn (fun s i job => oneCapture 0 s i job) (fun _ _ _ => True)
      reconfigured (Config.idle {})).any (fun c =>
        identities c.state.log = [(.integer 7, contract), (.integer 8, wider)]) = true := by
    decide
  obtain ⟨c, hc, hlog⟩ := (Option.any_eq_true _ _).mp hrun
  have hreach : Reachable 0 {} c := (Config.ReachesOffered.follow .refl _ hc).reaches
  have hfresh : Fresh {} := ⟨rfl, rfl, by simp, by simp [Live]⟩
  exact ⟨c, hreach, of_decide_eq_true hlog, fun _ _ _ _ hsent =>
    no_borrowed_identity hfresh hreach hsent⟩

end Runs

end HarmonyScreen.Proofs.EncoderIdentity
