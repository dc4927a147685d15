import HarmonyScreen.Lib.History
import HarmonyScreen.Proofs.Effects

namespace HarmonyScreen.Proofs.DecodeChain
open Lib Program Receiver ReceiverSession Effects Protocol

variable {decoder epoch : Nat} {pending : List Nat} {s t u : ReceiverSession}
  {log : List Observation}

/-- A video message of the epoch: a keyframe whose access unit has SPS, PPS and IDR, or an
ordinary frame. -/
def WellFormed (epoch : Nat) (data : Bytes) : Prop :=
  ∃ header, decodeVideoHeader data = some header ∧ header.sourceEpoch = epoch ∧
    (header.flags &&& kKeyframe ≠ 0 → ∃ units, IsRecovery units ∧
      (data.drop kHeaderSize).take header.payloadLength = accessUnitBytes units)

/-- The decoder runs and video of this epoch is accepted. -/
structure Running (decoder epoch : Nat) (s : ReceiverSession) : Prop where
  gate : s.decoderCallbackGate = .running
  current : s.decoder = some decoder
  epoch : s.activeSourceEpoch = epoch

/-- It was just started. -/
structure Begins (decoder epoch : Nat) (s : ReceiverSession) : Prop
    extends Running decoder epoch s where
  due : s.decoderRecovery.state = .needsCodecData
  queue : s.decodeQueue = []
  log : s.log = []

def receivedArrival : Observation → Option Nat
  | .arrived arrival _ _ _ => some arrival
  | _ => none

/-- The messages received, by their numbers. -/
def received (log : List Observation) : List Nat := log.filterMap receivedArrival

/-- The message whose sync frame was pushed most recently, and what was pushed since. -/
def chainStep (c : Option (Nat × List Nat)) : Observation → Option (Nat × List Nat)
  | .pushed _ input =>
    if input.kind = .syncFrame then some (input.arrival, [])
    else c.map fun (sync, since) => (sync, since ++ [input.arrival])
  | _ => c

def chain (log : List Observation) : Option (Nat × List Nat) := log.foldl chainStep none

/-- Every message received behind the one of the last sync frame, up to this one, was pushed,
in order. -/
def Whole (earlier : List Observation) (arrival : Nat) : Prop :=
  ∃ sync since, chain earlier = some (sync, since) ∧
    since ++ [arrival] = (received earlier).filter fun a => sync < a ∧ a ≤ arrival

def Allowed (earlier : List Observation) : Observation → Prop
  | .pushed _ input => input.kind = .frame → Whole earlier input.arrival
  | _ => True

/-- No ordinary frame is pushed behind a message that was dropped. -/
def NoHole (log : List Observation) : Prop := History Allowed log

def roomy : Observation → Bool
  | .popped slot input _ => slot.fits input.bytes.length
  | .pushed slot _ => slot.pushes
  | _ => true

/-- Every slot is large enough, and every push succeeds. -/
def Roomy (log : List Observation) : Prop := ∀ o ∈ log, roomy o

def timely : Observation → Bool
  | .arrived _ keyframe state waiting => keyframe || state == .ready || !waiting
  | .recovering _ state => state == .needsCodecData
  | _ => true

/-- No ordinary frame arrives while a recovery's sync frame waits to be pushed, and no keyframe
while the recovery before it is being pushed. -/
def Timely (log : List Observation) : Prop := ∀ o ∈ log, timely o

structure Fair (log : List Observation) : Prop where
  roomy : Roomy log
  timely : Timely log

theorem Fair.earlier {later : List Observation} (h : Fair later) (hp : log <+: later) : Fair log :=
  ⟨fun o ho => h.roomy o (hp.subset ho), fun o ho => h.timely o (hp.subset ho)⟩

@[simp] theorem received_append (log more : List Observation) :
    received (log ++ more) = received log ++ received more := by simp [received]

@[simp] theorem chain_concat (log : List Observation) (o : Observation) :
    chain (log ++ [o]) = chainStep (chain log) o := by simp [chain]

/-- The queued inputs are what was received since the last sync frame and not yet pushed. -/
def Queued (pending : List Nat) (state : DecoderRecoveryState) (queue : List DecodedInput)
    (log : List Observation) : Prop :=
  match state with
  | .needsCodecData => queue = [] ∨ ∃ config sync, queue = [config, sync] ∧
      config.kind = .codecData ∧ sync.kind = .syncFrame ∧ sync.arrival ∈ received log ∧
      (received log).filter (sync.arrival < ·) = pending
  | .needsSyncFrame => ∃ sync rest, queue = sync :: rest ∧ sync.kind = .syncFrame ∧
      (∀ input ∈ rest, input.kind ≠ .codecData) ∧ sync.arrival ∈ received log ∧
      (received log).filter (sync.arrival < ·) = rest.map (·.arrival) ++ pending
  | .ready => ∃ sync since, chain log = some (sync, since) ∧
      (∀ input ∈ queue, input.kind ≠ .codecData) ∧ sync ∈ received log ∧
      (received log).filter (sync < ·) = since ++ queue.map (·.arrival) ++ pending

/-- What holds between the sections, with the messages that are being handled. -/
structure Linked (pending : List Nat) (s : ReceiverSession) : Prop where
  history : NoHole s.log
  sorted : (received s.log).Pairwise (· < ·)
  counted : ∀ a ∈ received s.log, a ≤ s.receivedFrames
  last : pending <:+ received s.log
  queued : Queued pending s.decoderRecovery.state s.decodeQueue s.log

/-- The recovery state has come this far. -/
def AtLeast (state : DecoderRecoveryState) (s : ReceiverSession) : Prop :=
  match state with
  | .needsCodecData => True
  | .needsSyncFrame => s.decoderRecovery.state ≠ .needsCodecData
  | .ready => s.decoderRecovery.state = .ready

def Forward (s t : ReceiverSession) : Prop := ∀ state, AtLeast state s → AtLeast state t

theorem Forward.of_state (h : s.decoderRecovery.state = .needsCodecData) : Forward s t := by
  intro state hs
  cases state with
  | needsCodecData => trivial
  | needsSyncFrame => exact absurd h hs
  | ready =>
    rw [AtLeast, h] at hs
    cases hs

section Sorted
variable {l before after : List Nat} {k a : Nat}

theorem sorted_parts (hl : l.Pairwise (· < ·)) (h : l.filter (k < ·) = before ++ a :: after) :
    a ∈ l ∧ k < a ∧ (∀ b ∈ before, b < a) ∧ ∀ b ∈ after, a < b := by
  have hsorted : (before ++ a :: after).Pairwise (· < ·) := h ▸ hl.filter _
  have hmem : a ∈ l.filter (k < ·) := by simp [h]
  obtain ⟨ha, hka⟩ := List.mem_filter.mp hmem
  obtain ⟨-, hafter, hbefore⟩ := List.pairwise_append.mp hsorted
  exact ⟨ha, by simpa using hka, fun b hb => hbefore b hb a List.mem_cons_self,
    (List.pairwise_cons.mp hafter).1⟩

/-- In a sorted list the members behind one of them are those that are larger. -/
theorem filter_behind (hl : l.Pairwise (· < ·)) (h : l.filter (k < ·) = before ++ a :: after) :
    l.filter (a < ·) = after := by
  obtain ⟨-, hka, hbefore, hafter⟩ := sorted_parts hl h
  have hfilter : l.filter (a < ·) = (l.filter (k < ·)).filter (a < ·) := by
    rw [List.filter_filter]
    refine List.filter_congr fun b _ => ?_
    simp only [← Bool.decide_and, decide_eq_decide]
    omega
  have hnone : before.filter (a < ·) = [] := by
    apply List.filter_eq_nil_iff.mpr
    intro b hb
    have := hbefore b hb
    simpa using this.le
  have hall : after.filter (a < ·) = after := by
    apply List.filter_eq_self.mpr
    intro b hb
    simpa using hafter b hb
  rw [hfilter, h, List.filter_append, hnone, List.filter_cons_of_neg (by simp), hall,
    List.nil_append]

/-- Up to one of them, they are those that are no larger. -/
theorem filter_upTo (hl : l.Pairwise (· < ·)) (h : l.filter (k < ·) = before ++ a :: after) :
    l.filter (fun b => k < b ∧ b ≤ a) = before ++ [a] := by
  obtain ⟨-, -, hbefore, hafter⟩ := sorted_parts hl h
  have hfilter : l.filter (fun b => k < b ∧ b ≤ a) = (l.filter (k < ·)).filter (· ≤ a) := by
    rw [List.filter_filter]
    refine List.filter_congr fun b _ => ?_
    simp only [← Bool.decide_and, decide_eq_decide]
    omega
  have hall : before.filter (· ≤ a) = before := by
    apply List.filter_eq_self.mpr
    intro b hb
    simpa using (hbefore b hb).le
  have hnone : after.filter (· ≤ a) = [] := by
    apply List.filter_eq_nil_iff.mpr
    intro b hb
    simpa using hafter b hb
  rw [hfilter, h, List.filter_append, hall, List.filter_cons_of_pos (by simp), hnone]

/-- Behind the last one there is none. -/
theorem filter_last (hl : l.Pairwise (· < ·)) (h : [a] <:+ l) : l.filter (a < ·) = [] := by
  obtain ⟨earlier, rfl⟩ := h
  apply List.filter_eq_nil_iff.mpr
  intro b hb
  rcases List.mem_append.mp hb with hb | hb
  · have hlt := (List.pairwise_append.mp hl).2.2 b hb a List.mem_cons_self
    simpa using hlt.le
  · simp [List.mem_singleton.mp hb]

end Sorted

theorem AtLeast.of_state {state : DecoderRecoveryState} (h : s.decoderRecovery.state = state) :
    AtLeast state s := by
  cases state with
  | needsCodecData => trivial
  | needsSyncFrame =>
    rw [AtLeast, h]
    decide
  | ready => exact h

/-- What may be submitted once the recovery has come so far. -/
theorem AtLeast.allows {state : DecoderRecoveryState} {kind : DecoderInputKind} (h : AtLeast state s)
    (hk : kind = .syncFrame ∧ state ≠ .needsCodecData ∨ kind = .frame ∧ state = .ready) :
    decoderInputAllowed s.decoderRecovery.state kind = true := by
  rcases hk with ⟨rfl, hstate⟩ | ⟨rfl, rfl⟩
  · have hnot : s.decoderRecovery.state ≠ .needsCodecData := by
      cases state with
      | needsCodecData => exact absurd rfl hstate
      | needsSyncFrame => exact h
      | ready =>
        rw [show s.decoderRecovery.state = .ready from h]
        decide
    cases hfrom : s.decoderRecovery.state with
    | needsCodecData => exact absurd hfrom hnot
    | needsSyncFrame => rfl
    | ready => rfl
  · rw [show s.decoderRecovery.state = .ready from h]
    rfl

/-- A push takes the recovery state on, never back. -/
theorem Forward.of_push {kind : DecoderInputKind}
    (hstate : t.decoderRecovery.state = advanceDecoderRecovery s.decoderRecovery.state kind true) :
    Forward s t := by
  intro state hs
  cases state with
  | needsCodecData => trivial
  | needsSyncFrame =>
    rw [AtLeast] at hs ⊢
    rw [hstate]
    cases hfrom : s.decoderRecovery.state with
    | needsCodecData => exact absurd hfrom hs
    | needsSyncFrame => cases kind <;> decide
    | ready => cases kind <;> decide
  | ready =>
    rw [AtLeast] at hs ⊢
    rw [hstate, hs]
    cases kind <;> decide

theorem Forward.refl (s : ReceiverSession) : Forward s s := fun _ h => h

theorem Forward.trans (h : Forward s t) (h' : Forward t u) : Forward s u :=
  fun state hs => h' state (h state hs)

section Queue
variable {state : DecoderRecoveryState} {queue : List DecodedInput} {frame : DecodedInput}

/-- What is at the front of the queue may be pushed. -/
theorem Queued.allowed (h : Queued pending state (frame :: queue) log) :
    decoderInputAllowed state frame.kind = true := by
  cases state with
  | needsCodecData =>
    rcases h with hnil | ⟨config, sync, hq, hconfig, -⟩
    · cases hnil
    · cases hq
      simp [decoderInputAllowed, hconfig]
  | needsSyncFrame =>
    obtain ⟨sync, rest, hq, hsync, -⟩ := h
    cases hq
    simp [decoderInputAllowed, hsync]
  | ready =>
    obtain ⟨sync, since, -, hkinds, -⟩ := h
    have hkind := hkinds frame List.mem_cons_self
    cases hk : frame.kind with
    | codecData => exact absurd hk hkind
    | syncFrame => rfl
    | frame => rfl

/-- An ordinary frame is at the front only behind an unbroken chain. -/
theorem Queued.whole (h : Queued pending state (frame :: queue) log)
    (hsorted : (received log).Pairwise (· < ·)) (hk : frame.kind = .frame) :
    Whole log frame.arrival := by
  cases state with
  | needsCodecData =>
    rcases h with hnil | ⟨config, sync, hq, hconfig, -⟩
    · cases hnil
    · cases hq
      rw [hk] at hconfig
      cases hconfig
  | needsSyncFrame =>
    obtain ⟨sync, rest, hq, hsync, -⟩ := h
    cases hq
    rw [hk] at hsync
    cases hsync
  | ready =>
    obtain ⟨sync, since, hchain, -, -, hbehind⟩ := h
    have hparts : (received log).filter (sync < ·) =
        since ++ frame.arrival :: (queue.map (·.arrival) ++ pending) := by
      simpa using hbehind
    exact ⟨sync, since, hchain, (filter_upTo hsorted hparts).symm⟩

/-- The push takes the chain and the recovery state one step on. -/
theorem Queued.push (h : Queued pending state (frame :: queue) log)
    (hsorted : (received log).Pairwise (· < ·)) (slot : InputSlot)
    (hreceived : received later = received log) (hchain : chain later = chain log) :
    Queued pending (advanceDecoderRecovery state frame.kind true) queue
      (later ++ [.pushed slot frame]) := by
  have hkeep : received (later ++ [.pushed slot frame]) = received log := by
    rw [received_append, hreceived]
    exact List.append_nil _
  cases state with
  | needsCodecData =>
    rcases h with hnil | ⟨config, sync, hq, hconfig, hsync, hmem, hbehind⟩
    · cases hnil
    · cases hq
      simp only [advanceDecoderRecovery, hconfig]
      refine ⟨sync, [], rfl, hsync, by simp, ?_, ?_⟩
      · rw [hkeep]
        exact hmem
      · rw [hkeep, hbehind]
        rfl
  | needsSyncFrame =>
    obtain ⟨sync, rest, hq, hsync, hkinds, hmem, hbehind⟩ := h
    cases hq
    simp only [advanceDecoderRecovery, hsync]
    refine ⟨frame.arrival, [], ?_, hkinds, ?_, ?_⟩
    · simp [chainStep, hsync]
    · rw [hkeep]
      exact hmem
    · rw [hkeep, hbehind]
      rfl
  | ready =>
    obtain ⟨sync, since, hc, hkinds, hmem, hbehind⟩ := h
    have hrest : ∀ input ∈ queue, input.kind ≠ .codecData :=
      fun input hi => hkinds input (List.mem_cons_of_mem _ hi)
    have hparts : (received log).filter (sync < ·) =
        since ++ frame.arrival :: (queue.map (·.arrival) ++ pending) := by
      simpa using hbehind
    have hadvance : advanceDecoderRecovery .ready frame.kind true = .ready := by
      simp [advanceDecoderRecovery]
    rw [hadvance]
    by_cases hk : frame.kind = .syncFrame
    · refine ⟨frame.arrival, [], ?_, hrest, ?_, ?_⟩
      · simp [chainStep, hk]
      · rw [hkeep]
        exact (sorted_parts hsorted hparts).1
      · rw [hkeep, filter_behind hsorted hparts]
        rfl
    · refine ⟨sync, since ++ [frame.arrival], ?_, hrest, ?_, ?_⟩
      · simp [chainStep, hk, hchain, hc]
      · rw [hkeep]
        exact hmem
      · rw [hkeep, hparts]
        simp

/-- A message that may be pushed is queued behind what was received before it. -/
theorem Queued.enqueue (h : Queued [frame.arrival] state queue log)
    (hallowed : decoderInputAllowed state frame.kind = true) (hk : frame.kind ≠ .codecData) :
    Queued [] state (queue ++ [frame]) log := by
  cases state with
  | needsCodecData =>
    cases hkind : frame.kind with
    | codecData => exact absurd hkind hk
    | syncFrame =>
      rw [hkind] at hallowed
      cases hallowed
    | frame =>
      rw [hkind] at hallowed
      cases hallowed
  | needsSyncFrame =>
    obtain ⟨sync, rest, rfl, hsync, hkinds, hmem, hbehind⟩ := h
    refine ⟨sync, rest ++ [frame], rfl, hsync, ?_, hmem, ?_⟩
    · intro input hi
      rcases List.mem_append.mp hi with hi | hi
      · exact hkinds input hi
      · rw [List.mem_singleton.mp hi]
        exact hk
    · simpa using hbehind
  | ready =>
    obtain ⟨sync, since, hchain, hkinds, hmem, hbehind⟩ := h
    refine ⟨sync, since, hchain, ?_, hmem, ?_⟩
    · intro input hi
      rcases List.mem_append.mp hi with hi | hi
      · exact hkinds input hi
      · rw [List.mem_singleton.mp hi]
        exact hk
    · simpa using hbehind

/-- A message that has come is behind everything that is queued. -/
theorem Queued.receive {arrival : Nat} (h : Queued [] state queue log)
    (hlt : ∀ b ∈ received log, b < arrival) (hreceived : received later = received log ++ [arrival])
    (hchain : chain later = chain log) : Queued [arrival] state queue later := by
  have hbehind (sync : Nat) (hmem : sync ∈ received log) :
      (received later).filter (sync < ·) = (received log).filter (sync < ·) ++ [arrival] := by
    simp [hreceived, List.filter_append, hlt sync hmem]
  cases state with
  | needsCodecData =>
    rcases h with hnil | ⟨config, sync, hq, hconfig, hsync, hmem, hqueued⟩
    · exact .inl hnil
    · refine .inr ⟨config, sync, hq, hconfig, hsync, ?_, ?_⟩
      · rw [hreceived]
        exact List.mem_append_left _ hmem
      · rw [hbehind _ hmem, hqueued]
        rfl
  | needsSyncFrame =>
    obtain ⟨sync, rest, hq, hsync, hkinds, hmem, hqueued⟩ := h
    refine ⟨sync, rest, hq, hsync, hkinds, ?_, ?_⟩
    · rw [hreceived]
      exact List.mem_append_left _ hmem
    · rw [hbehind _ hmem, hqueued, List.append_nil]
  | ready =>
    obtain ⟨sync, since, hc, hkinds, hmem, hqueued⟩ := h
    refine ⟨sync, since, hchain.trans hc, hkinds, ?_, ?_⟩
    · rw [hreceived]
      exact List.mem_append_left _ hmem
    · rw [hbehind _ hmem, hqueued, List.append_nil]

/-- Before the recovery is done, a queue without a sync frame is empty. -/
theorem Queued.early (h : Queued pending state queue log) (hready : state ≠ .ready)
    (hnone : queue.any (·.kind == .syncFrame) = false) : state = .needsCodecData ∧ queue = [] := by
  cases state with
  | needsCodecData =>
    rcases h with hnil | ⟨config, sync, rfl, -, hsync, -⟩
    · exact ⟨rfl, hnil⟩
    · simp [hsync] at hnone
  | needsSyncFrame =>
    obtain ⟨sync, rest, rfl, hsync, -⟩ := h
    simp [hsync] at hnone
  | ready => exact absurd rfl hready

/-- An observation that is about neither the chain nor the messages. -/
theorem Queued.keep (h : Queued pending state queue log) (hreceived : received later = received log)
    (hchain : chain later = chain log) : Queued pending state queue later := by
  cases state with
  | needsCodecData =>
    rw [Queued, hreceived]
    exact h
  | needsSyncFrame =>
    rw [Queued, hreceived]
    exact h
  | ready =>
    rw [Queued, hreceived, hchain]
    exact h

end Queue

/-- What the pump does not touch. -/
def setting (s : ReceiverSession) : DecoderLifecycleState × Option Nat × Nat × Nat :=
  (s.decoderCallbackGate, s.decoder, s.activeSourceEpoch, s.receivedFrames)

theorem Running.keep (h : Running decoder epoch s) (hs : setting t = setting s) :
    Running decoder epoch t := by
  obtain ⟨hgate, hs⟩ := Prod.mk.inj hs
  obtain ⟨hcurrent, hs⟩ := Prod.mk.inj hs
  obtain ⟨hepoch, -⟩ := Prod.mk.inj hs
  exact ⟨hgate.trans h.gate, hcurrent.trans h.current, hepoch.trans h.epoch⟩

section Pump
variable {slot : InputSlot} {slots : List InputSlot} {frame : DecodedInput}
  {queue : List DecodedInput}

/-- A turn that pushes. -/
theorem pumpTurn_push (hallowed : decoderInputAllowed s.decoderRecovery.state frame.kind = true)
    (hfits : slot.fits frame.bytes.length = true) (hpushes : slot.pushes = true) :
    pumpTurn s slot frame = (true, { s with
      decoderRecovery := s.decoderRecovery.onInputSubmitted frame.kind true
      log := s.log ++ [.pushed slot frame] }) := by
  simp [pumpTurn, DecoderRecoveryCoordinator.inputAllowed, hallowed, hfits, hpushes]

theorem mem_log_pumpTurn (hallowed : decoderInputAllowed s.decoderRecovery.state frame.kind = true)
    (hfits : slot.fits frame.bytes.length = true) :
    .pushed slot frame ∈ (pumpTurn s slot frame).2.log := by
  simp only [pumpTurn, DecoderRecoveryCoordinator.inputAllowed, hallowed, hfits, Bool.not_true,
    Bool.false_eq_true, if_false]
  split
  · simp
  · simp [resync]

theorem log_pumpTurn (s : ReceiverSession) (slot : InputSlot) (frame : DecodedInput) :
    s.log <+: (pumpTurn s slot frame).2.log := by
  unfold pumpTurn
  split
  · exact List.prefix_rfl
  split
  · exact List.prefix_rfl
  · dsimp only
    split
    · exact List.prefix_append _ _
    · exact List.prefix_append _ _

/-- A fair turn pushes the first input, and everything stays linked. -/
theorem pumpTurn_linked (h : Linked pending s) (hq : s.decodeQueue = frame :: queue)
    (hfair : Fair (pumpTurn (taken s slot slots frame queue) slot frame).2.log) :
    (pumpTurn (taken s slot slots frame queue) slot frame).1 = true ∧
    Linked pending (pumpTurn (taken s slot slots frame queue) slot frame).2 ∧
    Forward s (pumpTurn (taken s slot slots frame queue) slot frame).2 := by
  have hqueued := h.queued
  rw [hq] at hqueued
  have hallowed := hqueued.allowed
  have hpopped : .popped slot frame s.decoderRecovery.state ∈
      (pumpTurn (taken s slot slots frame queue) slot frame).2.log :=
    (log_pumpTurn _ slot frame).subset (by simp [taken])
  have hfits : slot.fits frame.bytes.length = true := hfair.roomy _ hpopped
  have hpushed : .pushed slot frame ∈
      (pumpTurn (taken s slot slots frame queue) slot frame).2.log :=
    mem_log_pumpTurn hallowed hfits
  have hpushes : slot.pushes = true := hfair.roomy _ hpushed
  have hturn : pumpTurn (taken s slot slots frame queue) slot frame =
      (true, { taken s slot slots frame queue with
        decoderRecovery := s.decoderRecovery.onInputSubmitted frame.kind true
        log := (taken s slot slots frame queue).log ++ [.pushed slot frame] }) :=
    pumpTurn_push hallowed hfits hpushes
  rw [hturn]
  have hreceived : received (taken s slot slots frame queue).log = received s.log := by
    simp [taken, received, List.filterMap_cons, receivedArrival]
  have hchain : chain (taken s slot slots frame queue).log = chain s.log := by
    simp [taken, chainStep]
  have hstate : (s.decoderRecovery.onInputSubmitted frame.kind true).state =
      advanceDecoderRecovery s.decoderRecovery.state frame.kind true := rfl
  have hkeep : received ((taken s slot slots frame queue).log ++ [.pushed slot frame]) =
      received s.log := by
    rw [received_append, hreceived]
    exact List.append_nil _
  refine ⟨rfl, ⟨?_, ?_, ?_, ?_, ?_⟩, ?_⟩
  · apply History.concat
    · exact h.history.concat trivial
    · intro hk
      obtain ⟨sync, since, hc, hwhole⟩ := hqueued.whole h.sorted hk
      refine ⟨sync, since, hchain.trans hc, ?_⟩
      rw [hwhole, hreceived]
  · rw [hkeep]
    exact h.sorted
  · rw [hkeep]
    exact h.counted
  · rw [hkeep]
    exact h.last
  · exact hqueued.push h.sorted slot hreceived hchain
  · exact .of_push hstate

theorem pumpTurn_setting (s : ReceiverSession) (slot : InputSlot) (frame : DecodedInput) :
    setting (pumpTurn s slot frame).2 = setting s := by
  unfold pumpTurn
  split
  · rfl
  split
  · rfl
  · dsimp only
    split <;> rfl

theorem pumpLoop_setting (decoder : Nat) (slots : List InputSlot) (s : ReceiverSession) :
    setting (pumpLoop decoder slots s) = setting s :=
  pumpLoop_keeps (G := fun s t => setting t = setting s) (fun _ => rfl) (fun h h' => h'.trans h)
    (fun _ => pumpTurn_setting _ _ _) decoder slots s

theorem log_pumpLoop (decoder : Nat) (slots : List InputSlot) (s : ReceiverSession) :
    s.log <+: (pumpLoop decoder slots s).log := by
  obtain ⟨os, hlog, -⟩ := (pumpLoop_pumped decoder slots s).log
  exact ⟨os, hlog.symm⟩

theorem pumpLoop_linked (decoder : Nat) (slots : List InputSlot) (h : Linked pending s)
    (hfair : Fair (pumpLoop decoder slots s).log) :
    Linked pending (pumpLoop decoder slots s) ∧ Forward s (pumpLoop decoder slots s) := by
  induction slots generalizing s with
  | nil => exact ⟨h, .refl s⟩
  | cons slot slots ih =>
    rcases pumpLoop_cons decoder slot slots s with hsame | ⟨frame, queue, hq, hturn⟩
    · rw [hsame]
      exact ⟨h, .refl s⟩
    · rw [hturn] at hfair ⊢
      split at hfair
      · rename_i hgoes
        obtain ⟨-, ht, hforward⟩ := pumpTurn_linked h hq (hfair.earlier (log_pumpLoop decoder slots _))
        obtain ⟨hlinked, hon⟩ := ih ht hfair
        rw [if_pos hgoes]
        exact ⟨hlinked, hforward.trans hon⟩
      · rename_i hends
        rw [if_neg hends]
        exact (pumpTurn_linked h hq hfair).2

end Pump

/-- What the recovery and the chain do not depend on. -/
theorem Linked.same (h : Linked pending s) (hl : t.log = s.log) (hq : t.decodeQueue = s.decodeQueue)
    (hs : t.decoderRecovery.state = s.decoderRecovery.state)
    (hf : s.receivedFrames ≤ t.receivedFrames) : Linked pending t where
  history := hl ▸ h.history
  sorted := hl ▸ h.sorted
  counted a ha := (h.counted a (hl ▸ ha)).trans hf
  last := hl ▸ h.last
  queued := by
    rw [hs, hq, hl]
    exact h.queued

/-- An observation that is about neither the chain nor the messages. -/
theorem Linked.note {o : Observation} (h : Linked pending s) (hl : t.log = s.log ++ [o])
    (ho : receivedArrival o = none) (hc : ∀ c, chainStep c o = c) (ha : ∀ pre, Allowed pre o)
    (hq : t.decodeQueue = s.decodeQueue) (hs : t.decoderRecovery.state = s.decoderRecovery.state)
    (hf : t.receivedFrames = s.receivedFrames) : Linked pending t := by
  have hreceived : received t.log = received s.log := by
    simp [hl, received, ho]
  have hchain : chain t.log = chain s.log := by
    rw [hl, chain_concat, hc]
  refine ⟨?_, ?_, ?_, ?_, ?_⟩
  · rw [hl]
    exact h.history.concat (ha s.log)
  · rw [hreceived]
    exact h.sorted
  · rw [hreceived, hf]
    exact h.counted
  · rw [hreceived]
    exact h.last
  · rw [hs, hq]
    exact h.queued.keep hreceived hchain

theorem Linked.receive {arrival : Nat} {keyframe waiting : Bool} {state : DecoderRecoveryState}
    (h : Linked [] s) (hlt : ∀ b ∈ received s.log, b < arrival) (hle : arrival ≤ s.receivedFrames) :
    Linked [arrival] (s.note (.arrived arrival keyframe state waiting)) := by
  have hreceived : received (s.log ++ [.arrived arrival keyframe state waiting]) =
      received s.log ++ [arrival] := by
    simp [received, receivedArrival]
  have hchain : chain (s.log ++ [.arrived arrival keyframe state waiting]) = chain s.log := by
    simp [chainStep]
  refine ⟨h.history.concat trivial, ?_, ?_, ?_, h.queued.receive hlt hreceived hchain⟩
  · rw [ReceiverSession.note, hreceived]
    apply List.pairwise_append.mpr
    refine ⟨h.sorted, List.pairwise_singleton _ _, fun b hb c hc => ?_⟩
    rw [List.mem_singleton.mp hc]
    exact hlt b hb
  · intro b hb
    rw [ReceiverSession.note, hreceived] at hb
    rcases List.mem_append.mp hb with hb | hb
    · exact h.counted b hb
    · rw [List.mem_singleton.mp hb]
      exact hle
  · rw [ReceiverSession.note, hreceived]
    exact List.suffix_append _ _

/-- With an empty queue and codec data due, whatever was being handled may be dropped. -/
theorem Linked.idle (h : Linked pending s) (hq : t.decodeQueue = [])
    (hs : t.decoderRecovery.state = .needsCodecData) (hn : NoHole t.log)
    (hr : received t.log = received s.log) (hf : t.receivedFrames = s.receivedFrames) :
    Linked [] t where
  history := hn
  sorted := hr ▸ h.sorted
  counted a ha := hf ▸ h.counted a (hr ▸ ha)
  last := List.nil_suffix
  queued := by
    rw [hs]
    exact .inl hq

theorem Running.allowed (h : Running decoder epoch s) : s.callbacksAllowed = true := by
  rw [callbacksAllowed, h.gate]
  rfl

theorem submitFrameLocked_setting (frame : DecodedInput) (s : ReceiverSession) :
    setting (submitFrameLocked frame s) = setting s := by
  unfold submitFrameLocked
  split
  · rfl
  split
  · rfl
  dsimp only
  split
  · split <;> rfl
  · refine (pumpLoop_setting _ _ _).trans ?_
    split <;> rfl

theorem submitRecoveryLocked_setting (codecData syncFrame : DecodedInput) (s : ReceiverSession) :
    setting (submitRecoveryLocked codecData syncFrame s).2 = setting s := by
  unfold submitRecoveryLocked
  dsimp only
  split
  · rfl
  split
  · rfl
  · exact pumpLoop_setting _ _ _

theorem submitFrameLocked_linked {frame : DecodedInput} (hr : Running decoder epoch s)
    (h : Linked [frame.arrival] s)
    (hallowed : decoderInputAllowed s.decoderRecovery.state frame.kind = true)
    (hk : frame.kind ≠ .codecData) (hfair : Fair (submitFrameLocked frame s).log) :
    Linked [] (submitFrameLocked frame s) := by
  unfold submitFrameLocked at hfair ⊢
  simp only [hr.current, hr.allowed, DecoderRecoveryCoordinator.inputAllowed, hallowed,
    DecoderRecoveryCoordinator.admitQueued, evaluateDecodeQueueAdmission] at hfair ⊢
  by_cases hroom : s.decodeQueue.length < 3
  · simp only [hroom, if_true] at hfair ⊢
    refine (pumpLoop_linked decoder _ ?_ hfair).1
    exact ⟨h.history, h.sorted, h.counted, List.nil_suffix, h.queued.enqueue hallowed hk⟩
  · simp only [hroom, if_false] at hfair ⊢
    refine h.idle rfl rfl (h.history.concat trivial) ?_ rfl
    simp [received, receivedArrival]

/-- A recovery that is due is submitted. -/
theorem submitRecoveryLocked_due {codecData syncFrame : DecodedInput}
    (hr : Running decoder epoch s) (hdue : s.decoderRecovery.state = .needsCodecData)
    (hconfig : codecData.kind = .codecData) (hsync : syncFrame.kind = .syncFrame)
    (hdata : codecData.bytes ≠ []) (hframe : syncFrame.bytes ≠ []) :
    submitRecoveryLocked codecData syncFrame s = (true, pumpDecoderLocked decoder { s with
      log := s.log ++ [.recovering codecData.arrival .needsCodecData]
      framesDropped := s.framesDropped + s.decodeQueue.length
      decodeQueue := [codecData, syncFrame] }) := by
  have hallowed : decoderCallbacksAllowed s.decoderCallbackGate = true := hr.allowed
  simp [submitRecoveryLocked, note, callbacksAllowed, hr.current, hallowed, hdue, hconfig, hsync,
    hdata, hframe]

theorem submitRecoveryLocked_linked {codecData syncFrame : DecodedInput}
    (hr : Running decoder epoch s) (h : Linked [syncFrame.arrival] s)
    (hdue : s.decoderRecovery.state = .needsCodecData)
    (hconfig : codecData.kind = .codecData) (hsync : syncFrame.kind = .syncFrame)
    (hdata : codecData.bytes ≠ []) (hframe : syncFrame.bytes ≠ [])
    (hfair : Fair (submitRecoveryLocked codecData syncFrame s).2.log) :
    Linked [] (submitRecoveryLocked codecData syncFrame s).2 := by
  rw [submitRecoveryLocked_due hr hdue hconfig hsync hdata hframe] at hfair ⊢
  have hreceived : received (s.log ++ [.recovering codecData.arrival .needsCodecData]) =
      received s.log := by
    simp [received, receivedArrival]
  refine (pumpLoop_linked decoder _ ⟨?_, ?_, ?_, List.nil_suffix, ?_⟩ hfair).1
  · exact h.history.concat trivial
  · rw [hreceived]
    exact h.sorted
  · rw [hreceived]
    exact h.counted
  · simp only [hdue]
    refine .inr ⟨codecData, syncFrame, rfl, hconfig, hsync, ?_, ?_⟩
    · rw [hreceived]
      exact h.last.subset (by simp)
    · rw [hreceived]
      exact filter_last h.sorted h.last

theorem log_submitRecoveryLocked (codecData syncFrame : DecodedInput) (s : ReceiverSession) :
    s.log ++ [.recovering codecData.arrival s.decoderRecovery.state] <+:
      (submitRecoveryLocked codecData syncFrame s).2.log := by
  unfold submitRecoveryLocked
  dsimp only
  split
  · exact List.prefix_rfl
  split
  · exact List.prefix_rfl
  · refine List.IsPrefix.trans ?_ (log_pumpLoop _ _ _)
    exact List.prefix_rfl

end HarmonyScreen.Proofs.DecodeChain
