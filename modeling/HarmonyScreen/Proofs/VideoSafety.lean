import HarmonyScreen.Host.VideoPlane
import HarmonyScreen.Lib.Jobs
import HarmonyScreen.Lib.Rely
import HarmonyScreen.Proofs.GateOrder
import HarmonyScreen.Proofs.ResumeWindow

namespace HarmonyScreen.Proofs.VideoSafety
open Lib Host HostPlane
open DataPlaneGate hiding Job spawn
open GateOrder (inForce_opened inForce_revoked inForce_acted)

variable {s t u : HostPlane} {i : Worker} {token : UInt64} {frame : PipeFrame} {peer : Peer}
  {packet : Receiver.Bytes}

/-- How often the epoch was incremented. -/
def increments (log : List GateEvent) : Nat :=
  log.countP fun event => match event with
    | .acted _ => false
    | _ => true

@[simp] theorem increments_opened (log : List GateEvent) (token : UInt64) :
    increments (log ++ [.opened token]) = increments log + 1 := by
  simp [increments]

@[simp] theorem increments_revoked (log : List GateEvent) :
    increments (log ++ [.revoked]) = increments log + 1 := by
  simp [increments]

@[simp] theorem increments_acted (log : List GateEvent) (token : UInt64) :
    increments (log ++ [.acted token]) = increments log := by
  simp [increments]

/-- The datagram goes to the peer of the session that is in force, under the session's number. -/
structure InSession (x : Sending) : Prop where
  isOpen : (inForce x.changes).isSome
  paired : x.server.paired = true
  peer : x.peer = x.server.videoPeer
  packet : x.packet ∈ videoDatagrams x.frame x.server.sessionShort

/-- What was sent is, for one of these frames after the other, a first part of its datagrams. -/
inductive InOrder : List PipeFrame → List Sending → Prop where
  | none : InOrder [] []
  | frame {frames : List PipeFrame} {sent part : List Sending} {frame : PipeFrame}
      (before : InOrder frames sent) (short : UInt32) (count : Nat)
      (first : part.map Sending.packet = (videoDatagrams frame short).take count)
      (own : ∀ x ∈ part, x.frame = frame) : InOrder (frames ++ [frame]) (sent ++ part)

structure FollowsSession (frames : List PipeFrame) (s : HostPlane) : Prop where
  inSession : ∀ x ∈ s.sent, InSession x
  inOrder : InOrder frames s.sent

structure Invariant (s : HostPlane) : Prop where
  epoch : s.gate.epoch = UInt64.ofNat (increments s.gate.log)
  allowed : s.gate.allowed = true → (inForce s.gate.log).isSome
  paired : (inForce s.gate.log).isSome → s.server.paired = true
  port : s.server.paired = true → s.server.videoPeer.port = kVideoPort
  /-- The epoch has not come round yet. -/
  inSession : increments s.gate.log < 2 ^ 64 → ∀ x ∈ s.sent, InSession x

/-- The pipe thread only sends. -/
structure ControlRelies (s t : HostPlane) : Prop where
  server : t.server = s.server
  allowed : t.gate.allowed = s.gate.allowed
  inForce : inForce t.gate.log = inForce s.gate.log
  mutex : t.gate.sendMutex = some .control ↔ s.gate.sendMutex = some .control

/-- What is in force stays as it is until the epoch is incremented, and nothing is recorded while
the pipe thread holds the mutex. -/
structure PipeRelies (s t : HostPlane) : Prop where
  sent : t.sent = s.sent
  grows : increments s.gate.log ≤ increments t.gate.log
  steady : increments t.gate.log = increments s.gate.log → inForce t.gate.log = inForce s.gate.log
  session : increments t.gate.log = increments s.gate.log → (inForce s.gate.log).isSome →
    t.server.paired = s.server.paired ∧ t.server.videoPeer = s.server.videoPeer ∧
      t.server.sessionShort = s.server.sessionShort
  absent : s.gate.sendMutex ≠ some .pipe → t.gate.sendMutex ≠ some .pipe
  held : s.gate.sendMutex = some .pipe →
    t.gate.sendMutex = some .pipe ∧ t.gate.log = s.gate.log

def Relies : Worker → HostPlane → HostPlane → Prop
  | .control => ControlRelies
  | .pipe => PipeRelies

theorem ControlRelies.refl (s : HostPlane) : ControlRelies s s := ⟨rfl, rfl, rfl, Iff.rfl⟩

theorem ControlRelies.trans (h : ControlRelies s t) (h' : ControlRelies t u) : ControlRelies s u :=
  ⟨h'.server.trans h.server, h'.allowed.trans h.allowed, h'.inForce.trans h.inForce,
    h'.mutex.trans h.mutex⟩

theorem PipeRelies.refl (s : HostPlane) : PipeRelies s s :=
  ⟨rfl, Nat.le_refl _, fun _ => rfl, fun _ _ => ⟨rfl, rfl, rfl⟩, id, fun h => ⟨h, rfl⟩⟩

theorem PipeRelies.trans (h : PipeRelies s t) (h' : PipeRelies t u) : PipeRelies s u := by
  have hmiddle (hsame : increments u.gate.log = increments s.gate.log) :
      increments t.gate.log = increments s.gate.log ∧
        increments u.gate.log = increments t.gate.log := by
    have hfirst := h.grows
    have hthen := h'.grows
    omega
  refine ⟨h'.sent.trans h.sent, h.grows.trans h'.grows, fun hsame => ?_, fun hsame hopen => ?_,
    fun habsent => h'.absent (h.absent habsent), fun hmutex => ?_⟩
  · obtain ⟨hfirst, hthen⟩ := hmiddle hsame
    exact (h'.steady hthen).trans (h.steady hfirst)
  · obtain ⟨hfirst, hthen⟩ := hmiddle hsame
    obtain ⟨hpaired, hpeer, hshort⟩ := h.session hfirst hopen
    obtain ⟨hpaired', hpeer', hshort'⟩ := h'.session hthen (by rwa [h.steady hfirst])
    exact ⟨hpaired'.trans hpaired, hpeer'.trans hpeer, hshort'.trans hshort⟩
  · obtain ⟨hheld, hfirst⟩ := h.held hmutex
    obtain ⟨hheld', hthen⟩ := h'.held hheld
    exact ⟨hheld', hthen.trans hfirst⟩

theorem Relies.refl (i : Worker) (s : HostPlane) : Relies i s s := by
  cases i with
  | control => exact ControlRelies.refl s
  | pipe => exact PipeRelies.refl s

theorem Relies.trans (i : Worker) (h : Relies i s t) (h' : Relies i t u) : Relies i s u := by
  cases i with
  | control => exact ControlRelies.trans h h'
  | pipe => exact PipeRelies.trans h h'

def discipline : Discipline Worker HostPlane Learned where
  invariant := Invariant
  offers _ _ _ := True
  rely := Relies
  guarantee i s t := ∀ j, j ≠ i → Relies j s t
  refl := Relies.refl
  trans i := Relies.trans i
  compatible hne _ h := h _ hne.symm

section Control

/-- What the control thread knows of the session, whether sends are allowed and which token is in
force, and whether it holds the mutex. -/
def Knows (holds : Bool) (fact : HostServer → Bool → Option UInt64 → Prop) (s : HostPlane) : Prop :=
  (s.gate.sendMutex = some .control ↔ holds = true) ∧
    fact s.server s.gate.allowed (inForce s.gate.log)

variable {holds : Bool} {fact : HostServer → Bool → Option UInt64 → Prop}

theorem knows_stable (holds : Bool) (fact : HostServer → Bool → Option UInt64 → Prop) :
    discipline.Stable .control (Knows holds fact) := by
  rintro s t ⟨hmutex, hfact⟩ hrely -
  refine ⟨hrely.mutex.trans hmutex, ?_⟩
  rwa [hrely.server, hrely.allowed, hrely.inForce]

theorem control_section {α : Type} {f : Learned → HostPlane → α × HostPlane} {holds' : Bool}
    {fact' : α → HostServer → Bool → Option UInt64 → Prop}
    (h : ∀ e s, Invariant s → Knows holds fact s →
      Invariant (f e s).2 ∧ PipeRelies s (f e s).2 ∧ Knows holds' (fact' (f e s).1) (f e s).2) :
    discipline.Outline .control (Knows holds fact) (.critical f) (fun a => Knows holds' (fact' a)) := by
  refine .critical (knows_stable _ _) (fun _ => knows_stable _ _) fun e s hs hknows _ => ?_
  obtain ⟨hkeeps, hrelies, hafter⟩ := h e s hs hknows
  refine ⟨hkeeps, fun j hj => ?_, hafter⟩
  cases j with
  | control => exact absurd rfl hj
  | pipe => exact hrelies

/-- A section on the session leaves the session in force as it is. -/
structure Respects (server server' : HostServer) (force : Option UInt64) : Prop where
  same : force.isSome → server'.paired = server.paired ∧ server'.videoPeer = server.videoPeer ∧
    server'.sessionShort = server.sessionShort
  port : server'.paired = true → server'.videoPeer.port = kVideoPort

theorem session_outline {α : Type} {f : Learned → HostServer → α × HostServer}
    {fact' : α → HostServer → Bool → Option UInt64 → Prop}
    (h : ∀ e server allowed force, fact server allowed force →
      (force.isSome → server.paired = true) →
      (server.paired = true → server.videoPeer.port = kVideoPort) →
      Respects server (f e server).2 force ∧ fact' (f e server).1 (f e server).2 allowed force) :
    discipline.Outline .control (Knows holds fact) (session f) (fun a => Knows holds (fact' a)) := by
  refine control_section fun e s hs hknows => ?_
  obtain ⟨hmutex, hfact⟩ := hknows
  obtain ⟨hrespects, hafter⟩ := h e s.server s.gate.allowed (inForce s.gate.log) hfact hs.paired hs.port
  refine ⟨⟨hs.epoch, hs.allowed, fun hopen => ?_, hrespects.port, hs.inSession⟩,
    ⟨rfl, Nat.le_refl _, fun _ => rfl, fun _ hopen => hrespects.same hopen, id, fun h => ⟨h, rfl⟩⟩,
    hmutex, hafter⟩
  exact (hrespects.same hopen).1.trans (hs.paired hopen)

theorem gate_section {α : Type} {f : Unit → DataPlaneGate Worker → α × DataPlaneGate Worker}
    {holds' : Bool} {fact' : HostServer → Bool → Option UInt64 → Prop}
    (h : ∀ s, Invariant s → Knows holds fact s →
      Invariant { s with gate := (f () s.gate).2 } ∧
        PipeRelies s { s with gate := (f () s.gate).2 } ∧
        Knows holds' fact' { s with gate := (f () s.gate).2 }) :
    discipline.Outline .control (Knows holds fact) (onGate (.critical f))
      (fun _ => Knows holds' fact') := by
  rw [onGate_critical]
  exact @control_section holds fact α _ holds' (fun _ => fact') fun _ => h

theorem refuse_outline (change : Change) :
    discipline.Outline .control (Knows holds fact) (onGate (storeRefused .control change))
      (fun _ => Knows holds fun server allowed force =>
        allowed = false ∧ ∃ before, fact server before force) := by
  refine gate_section fun s hs hknows => ?_
  obtain ⟨hmutex, hfact⟩ := hknows
  exact ⟨⟨hs.epoch, nofun, hs.paired, hs.port, hs.inSession⟩,
    ⟨rfl, Nat.le_refl _, fun _ => rfl, fun _ _ => ⟨rfl, rfl, rfl⟩, id, fun h => ⟨h, rfl⟩⟩,
    hmutex, rfl, s.gate.allowed, hfact⟩

theorem lock_outline :
    discipline.Outline .control (Knows false fact) (onGate (lockSendMutex .control))
      (fun _ => Knows true fact) := by
  refine .atomic (knows_stable _ _) fun e s hs hknows _ hready => ?_
  have hfree : s.gate.sendMutex = none := by simpa using hready
  have hafter : Knows true fact { s with gate := { s.gate with sendMutex := some .control } } :=
    ⟨by simp, hknows.2⟩
  refine ⟨⟨hs.epoch, hs.allowed, hs.paired, hs.port, hs.inSession⟩, fun j hj => ?_,
    fun t hrely hinv => knows_stable true fact _ t hafter hrely hinv⟩
  cases j with
  | control => exact absurd rfl hj
  | pipe =>
    refine ⟨rfl, Nat.le_refl _, fun _ => rfl, fun _ _ => ⟨rfl, rfl, rfl⟩, fun _ => by simp,
      fun hheld => ?_⟩
    rw [hfree] at hheld
    cases hheld

/-- The increment of the epoch, while sends are refused. -/
theorem increment_outline {event : UInt64 → GateEvent}
    (hevent : ∀ log token, increments (log ++ [event token]) = increments log + 1)
    (hrefused : ∀ server allowed force, fact server allowed force → allowed = false)
    (hpaired : ∀ server allowed force, fact server allowed force →
      ∀ log token, (inForce (log ++ [event token])).isSome → server.paired = true) :
    discipline.Outline .control (Knows true fact) (onGate (incrementEpoch .control event))
      (fun _ => Knows true fun server allowed force => ∃ before log token,
        fact server allowed before ∧ force = inForce (log ++ [event token])) := by
  refine gate_section fun s hs hknows => ?_
  obtain ⟨hmutex, hfact⟩ := hknows
  have hmore := hevent s.gate.log (s.gate.epoch + 1)
  refine ⟨⟨?_, fun hallowed => ?_, hpaired _ _ _ hfact _ _, hs.port, fun hfew => ?_⟩,
    ⟨rfl, ?_, fun hsame => ?_, fun _ _ => ⟨rfl, rfl, rfl⟩, id, fun hheld => ?_⟩, hmutex, ?_⟩
  · rw [hmore, hs.epoch]
    simp
  · rw [hrefused _ _ _ hfact] at hallowed
    cases hallowed
  · rw [hmore] at hfew
    exact hs.inSession (by omega)
  · rw [hmore]
    exact Nat.le_succ _
  · rw [hmore] at hsame
    omega
  · rw [hmutex.mpr rfl] at hheld
    cases hheld
  · exact ⟨_, _, _, hfact, rfl⟩

theorem allow_outline (hopen : ∀ server allowed force, fact server allowed force → force.isSome) :
    discipline.Outline .control (Knows true fact)
      (onGate (DataPlaneGate.modify fun s => { s with allowed := true }))
      (fun _ => Knows true fun server _ force => ∃ before, fact server before force) := by
  refine gate_section fun s hs hknows => ?_
  obtain ⟨hmutex, hfact⟩ := hknows
  exact ⟨⟨hs.epoch, fun _ => hopen _ _ _ hfact, hs.paired, hs.port, hs.inSession⟩,
    ⟨rfl, Nat.le_refl _, fun _ => rfl, fun _ _ => ⟨rfl, rfl, rfl⟩, id, fun h => ⟨h, rfl⟩⟩,
    hmutex, s.gate.allowed, hfact⟩

theorem finish_outline :
    discipline.Outline .control (Knows true fact) (onGate (finishChange .control))
      (fun _ => Knows false fact) := by
  refine gate_section fun s hs hknows => ?_
  obtain ⟨hmutex, hfact⟩ := hknows
  refine ⟨⟨hs.epoch, hs.allowed, hs.paired, hs.port, hs.inSession⟩,
    ⟨rfl, Nat.le_refl _, fun _ => rfl, fun _ _ => ⟨rfl, rfl, rfl⟩, fun _ => by simp, fun hheld => ?_⟩,
    by simp, hfact⟩
  rw [hmutex.mpr rfl] at hheld
  cases hheld

theorem revoke_outline :
    discipline.Outline .control (Knows false fact) (onGate (revoke .control))
      (fun _ => Knows false fun _ allowed force => allowed = false ∧ force = none) := by
  have hincrement := @increment_outline (fun server allowed force =>
    allowed = false ∧ ∃ before, fact server before force) (fun _ => .revoked)
    (fun log _ => increments_revoked log) (fun _ _ _ h => h.1) fun _ _ _ _ log _ h => by
      rw [inForce_revoked] at h
      cases h
  rw [revoke, onGate_bind]
  refine (refuse_outline .revoking).bind fun _ => ?_
  rw [onGate_bind]
  refine lock_outline.bind fun _ => ?_
  rw [onGate_bind]
  refine hincrement.bind fun _ => ?_
  refine finish_outline.weaken (fun s _ h => h) ?_
  rintro _ s - ⟨hmutex, before, log, token, ⟨hallowed, -⟩, hforce⟩
  exact ⟨hmutex, hallowed, hforce.trans (inForce_revoked log)⟩

/-- The gate is opened for a session only. -/
theorem open_outline
    (hpaired : ∀ server allowed force, fact server allowed force → server.paired = true) :
    discipline.Outline .control (Knows false fact) (onGate (openGate .control))
      (fun _ => Knows false fun _ _ _ => True) := by
  have hincrement := @increment_outline (fun server allowed force =>
    allowed = false ∧ ∃ before, fact server before force) .opened increments_opened
    (fun _ _ _ h => h.1) fun server _ _ h _ _ _ => h.2.elim fun _ h => hpaired server _ _ h
  rw [openGate, onGate_bind]
  refine (refuse_outline .opening).bind fun _ => ?_
  rw [onGate_bind]
  refine lock_outline.bind fun _ => ?_
  rw [onGate_bind]
  refine hincrement.bind fun previous => ?_
  rw [onGate_bind]
  refine (allow_outline ?_).bind fun _ => ?_
  · rintro server allowed _ ⟨before, log, token, -, rfl⟩
    rw [inForce_opened]
    rfl
  · rw [onGate_bind]
    refine finish_outline.bind fun _ => ?_
    exact .ret _ (knows_stable _ _) fun s _ h => ⟨h.1, trivial⟩

abbrev Rests : HostPlane → Prop := Knows false fun _ _ _ => True

/-- A section that changes nothing the session depends on. -/
theorem aside_outline {α : Type} {f : Learned → HostServer → α × HostServer}
    (hfact : ∀ e server allowed force, fact server allowed force → fact (f e server).2 allowed force)
    (h : ∀ e server, (f e server).2.paired = server.paired ∧
      (f e server).2.videoPeer = server.videoPeer ∧
      (f e server).2.sessionShort = server.sessionShort) :
    discipline.Outline .control (Knows holds fact) (session f) (fun _ => Knows holds fact) := by
  refine session_outline fun e server allowed force hknown _ hport => ⟨⟨fun _ => h e server, ?_⟩,
    hfact _ _ _ _ hknown⟩
  obtain ⟨hpaired, hpeer, -⟩ := h e server
  rw [hpaired, hpeer]
  exact hport

/-- Nothing is in force. -/
abbrev Closed (_ : HostServer) (allowed : Bool) (force : Option UInt64) : Prop :=
  allowed = false ∧ force = none

theorem rotate_outline : discipline.Outline .control (Knows false Closed) rotatePairingCode
    (fun _ => Rests) := by
  refine session_outline fun e server allowed force hclosed _ hport => ⟨⟨fun hopen => ?_, ?_⟩, trivial⟩
  · rw [hclosed.2] at hopen
    cases hopen
  · cases hrandom : e.random with
    | none => simpa only [HostServer.rotatePairingCode, hrandom] using hport
    | some value => exact nofun

theorem clear_outline : discipline.Outline .control Rests clearSession (fun _ => Rests) := by
  refine revoke_outline.bind fun _ => ?_
  refine Discipline.Outline.bind (Q := fun _ => Knows false Closed) ?_ fun _ => rotate_outline
  refine session_outline fun e server allowed force hclosed _ _ => ⟨⟨fun hopen => ?_, nofun⟩, hclosed⟩
  rw [hclosed.2] at hopen
  cases hopen

theorem disconnected_outline :
    discipline.Outline .control Rests markDisconnected (fun _ => Rests) := by
  refine aside_outline (fun _ _ _ _ _ => trivial) fun e server => ?_
  unfold HostServer.markDisconnected
  split <;> exact ⟨rfl, rfl, rfl⟩

theorem round_outline : discipline.Outline .control Rests expireResumeWindow (fun _ => Rests) := by
  have hlook := @aside_outline false (fun _ _ _ => True) Bool
    (fun e server => (decide (server.resumePending ∧ e.now ≥ server.resumeDeadline), server))
    (fun _ _ _ _ _ => trivial) fun _ _ => ⟨rfl, rfl, rfl⟩
  refine hlook.bind fun expired => ?_
  cases expired with
  | false => exact .ret _ (knows_stable _ _) fun _ _ h => h
  | true => exact clear_outline

theorem send_outline :
    discipline.Outline .control (Knows false fact) sendSession (fun _ => Knows false fact) :=
  aside_outline (fun _ _ _ _ h => h) fun _ _ => ⟨rfl, rfl, rfl⟩

/-- The answer is sent and the gate opened for the session. -/
theorem answer_outline
    (hpaired : ∀ server allowed force, fact server allowed force → server.paired = true) :
    discipline.Outline .control (Knows false fact)
      (sendSession >>= fun sent =>
        if !sent then Program.ret () else
          onGate (openGate .control) >>= fun _ => Program.ret ())
      (fun _ => Rests) := by
  refine send_outline.bind fun sent => ?_
  cases sent with
  | false => exact .ret _ (knows_stable _ _) fun _ _ h => ⟨h.1, trivial⟩
  | true =>
    refine (open_outline hpaired).bind fun _ => ?_
    exact .ret _ (knows_stable _ _) fun _ _ h => h

theorem authenticate_outline (json : Receiver.Bytes) (peer : Peer) :
    discipline.Outline .control Rests (authenticate json peer) (fun _ => Rests) := by
  have hlook (f : Learned → HostServer → (Bool × Bool) × HostServer)
      (hsame : ∀ e server, (f e server).2 = server)
      (hresume : ∀ e server, (f e server).1.1 = true →
        server.paired = true ∧ peer.address = server.videoPeer.address)
      (hcode : ∀ e server, (f e server).1.2 = true → server.paired = false) :
      discipline.Outline .control Rests (session f) fun looked => Knows false fun server _ _ =>
        (looked.1 = true → server.paired = true ∧ peer.address = server.videoPeer.address) ∧
          (looked.2 = true → server.paired = false) := by
    refine session_outline fun e server allowed force _ _ hport => ?_
    rw [hsame]
    exact ⟨⟨fun _ => ⟨rfl, rfl, rfl⟩, hport⟩, hresume e server, hcode e server⟩
  refine (hlook _ (fun _ _ => rfl) (fun e server h => ?_) fun e server h => ?_).bind fun looked => ?_
  · have hcan := of_decide_eq_true h
    exact ⟨hcan.2.2.1, hcan.2.2.2.2.2⟩
  · have hcan := of_decide_eq_true h
    simpa using hcan.2.2
  · obtain ⟨canResume, codeMatches⟩ := looked
    dsimp only
    split
    · exact .ret _ (knows_stable _ _) fun _ _ h => ⟨h.1, trivial⟩
    rename_i haccepted
    cases canResume with
    | true =>
      -- The peer is written again while its session may be in force.
      refine Discipline.Outline.bind (Q := fun _ => Knows false fun server _ _ =>
        server.paired = true) ?_ fun _ => answer_outline fun _ _ _ h => h
      refine session_outline fun e server allowed force hlooked _ hport => ?_
      obtain ⟨hpaired, haddress⟩ := hlooked.1 rfl
      have hsame : { peer with port := kVideoPort } = server.videoPeer := by
        rw [← hport hpaired, haddress]
      exact ⟨⟨fun _ => ⟨rfl, hsame, rfl⟩, fun _ => rfl⟩, hpaired⟩
    | false =>
      obtain rfl : codeMatches = true := by
        by_contra hwrong
        exact haccepted (.inl ⟨by simp, hwrong⟩)
      -- There is no session, so nothing is in force.
      have hdrawn := @aside_outline false (fun server _ _ => server.paired = false)
        (Option Receiver.Bytes) (fun e server =>
          (if e.answers.randomOk then some e.answers.random else none,
            { server with sessionId := e.answers.random }))
        (fun _ _ _ _ h => h) fun _ _ => ⟨rfl, rfl, rfl⟩
      refine (hdrawn.weaken (fun _ _ h => ⟨h.1, h.2.2 rfl⟩) fun _ _ _ h => h).bind fun random => ?_
      cases random with
      | none => exact .ret _ (knows_stable _ _) fun _ _ h => ⟨h.1, trivial⟩
      | some bytes =>
        refine Discipline.Outline.bind (Q := fun _ => Knows false fun server _ _ =>
          server.paired = true) ?_ fun _ => answer_outline fun _ _ _ h => h
        refine session_outline fun e server allowed force hunpaired hforce _ =>
          ⟨⟨fun hopen => ?_, fun _ => rfl⟩, rfl⟩
        rw [hforce hopen] at hunpaired
        cases hunpaired

end Control

section Pipe

variable {fact : List GateEvent → Prop} {server : HostServer} {count : Nat}

def Free (s : HostPlane) : Prop := s.gate.sendMutex ≠ some .pipe

/-- The pipe thread holds the mutex and knows something of the history. -/
def Holding (fact : List GateEvent → Prop) (s : HostPlane) : Prop :=
  s.gate.sendMutex = some .pipe ∧ fact s.gate.log

/-- The token is that of some increment in the past. -/
def Captured (token : UInt64) (s : HostPlane) : Prop :=
  ∃ read, token = UInt64.ofNat read ∧ read ≤ increments s.gate.log

/-- The token was captured and then the session read. -/
def Read (token : UInt64) (server : HostServer) (s : HostPlane) : Prop :=
  ∃ read, token = UInt64.ofNat read ∧ read ≤ increments s.gate.log ∧
    (increments s.gate.log = read → (inForce s.gate.log).isSome →
      s.server.videoPeer = server.videoPeer ∧ s.server.sessionShort = server.sessionShort)

theorem free_stable : discipline.Stable .pipe Free := fun _ _ h hrely _ => hrely.absent h

theorem holding_stable (fact : List GateEvent → Prop) : discipline.Stable .pipe (Holding fact) := by
  rintro s t ⟨hmutex, hfact⟩ hrely -
  obtain ⟨hmutex', hlog⟩ := hrely.held hmutex
  refine ⟨hmutex', ?_⟩
  rwa [hlog]

theorem captured_stable (token : UInt64) : discipline.Stable .pipe (Captured token) := by
  rintro s t ⟨read, htoken, hpast⟩ hrely -
  exact ⟨read, htoken, hpast.trans hrely.grows⟩

theorem read_stable (token : UInt64) (server : HostServer) :
    discipline.Stable .pipe (Read token server) := by
  rintro s t ⟨read, htoken, hpast, hsession⟩ hrely -
  refine ⟨read, htoken, hpast.trans hrely.grows, fun hsame hopen => ?_⟩
  have hgrows := hrely.grows
  have hstill : increments t.gate.log = increments s.gate.log := by omega
  rw [hrely.steady hstill] at hopen
  obtain ⟨-, hpeer, hshort⟩ := hrely.session hstill hopen
  obtain ⟨hpeer', hshort'⟩ := hsession (by omega) hopen
  exact ⟨hpeer.trans hpeer', hshort.trans hshort'⟩

theorem pipe_section {α : Type} {P : HostPlane → Prop} {Q : α → HostPlane → Prop}
    {f : Learned → HostPlane → α × HostPlane} (stable : discipline.Stable .pipe P)
    (after : ∀ a, discipline.Stable .pipe (Q a))
    (h : ∀ e s, Invariant s → P s →
      Invariant (f e s).2 ∧ ControlRelies s (f e s).2 ∧ Q (f e s).1 (f e s).2) :
    discipline.Outline .pipe P (.critical f) Q := by
  refine .critical stable after fun e s hs hP _ => ?_
  obtain ⟨hkeeps, hrelies, hafter⟩ := h e s hs hP
  refine ⟨hkeeps, fun j hj => ?_, hafter⟩
  cases j with
  | control => exact hrelies
  | pipe => exact absurd rfl hj

theorem load_outline {α : Type} {P : HostPlane → Prop} {Q : α → HostPlane → Prop}
    {read : DataPlaneGate Worker → α} (stable : discipline.Stable .pipe P)
    (after : ∀ a, discipline.Stable .pipe (Q a)) (h : ∀ s, Invariant s → P s → Q (read s.gate) s) :
    discipline.Outline .pipe P (onGate (load read)) Q := by
  rw [load, onGate_critical]
  exact pipe_section stable after fun _ s hs hP => ⟨hs, ControlRelies.refl s, h s hs hP⟩

/-- A load that nothing is concluded from. -/
theorem look_outline {α : Type} {P : HostPlane → Prop} (stable : discipline.Stable .pipe P)
    (read : DataPlaneGate Worker → α) :
    discipline.Outline .pipe P (onGate (load read)) (fun _ => P) :=
  load_outline stable (fun _ => stable) fun _ _ h => h

theorem capture_outline :
    discipline.Outline .pipe Free (onGate capture) (fun captured s =>
      Free s ∧ ∀ token, captured = some token → Captured token s) := by
  have hret : discipline.Outline .pipe Free (Program.ret none : HostProgram (Option UInt64))
      (fun captured s => Free s ∧ ∀ token, captured = some token → Captured token s) :=
    .ret none free_stable fun _ _ h => ⟨h, fun _ => nofun⟩
  have hepoch : discipline.Outline .pipe Free (onGate (load epoch)) fun token s =>
      Free s ∧ Captured token s :=
    load_outline free_stable (fun token => free_stable.and (captured_stable token))
      fun s hs hfree => ⟨hfree, increments s.gate.log, hs.epoch, Nat.le_refl _⟩
  rw [capture, onGate_bind]
  refine (look_outline free_stable allowed).bind fun first => ?_
  cases first with
  | false => exact hret
  | true =>
    rw [Bool.not_true, if_neg Bool.false_ne_true, onGate_bind]
    refine (look_outline free_stable epoch).bind fun token => ?_
    rw [onGate_bind]
    refine (look_outline free_stable allowed).bind fun second => ?_
    cases second with
    | false => exact hret
    | true =>
      rw [Bool.not_true, if_neg Bool.false_ne_true, onGate_bind]
      refine hepoch.bind fun again => ?_
      split
      · rename_i hagain
        obtain rfl := hagain
        refine .ret _ (free_stable.and (captured_stable again)) fun s _ h => ⟨h.1, fun other hother => ?_⟩
        cases hother
        exact h.2
      · exact hret.weaken (fun _ _ h => h.1) fun _ _ _ h => h

theorem canSend_outline (token : UInt64) :
    discipline.Outline .pipe Free (onGate (canSend token)) (fun _ => Free) := by
  rw [canSend, onGate_bind]
  refine (look_outline free_stable allowed).bind fun first => ?_
  cases first with
  | false => exact .ret _ free_stable fun _ _ h => h
  | true =>
    rw [Bool.not_true, if_neg Bool.false_ne_true, onGate_bind]
    refine (look_outline free_stable epoch).bind fun current => ?_
    exact .ret _ free_stable fun _ _ h => h

/-- What the pipe thread knows under the mutex, with the session that it read. -/
theorem under_stable (fact : List GateEvent → Prop) :
    discipline.Stable .pipe fun s => Holding fact s ∧ Read token server s :=
  (holding_stable fact).and (read_stable token server)

theorem between_stable : discipline.Stable .pipe fun s => Free s ∧ Read token server s :=
  free_stable.and (read_stable token server)

theorem lockPipe_outline :
    discipline.Outline .pipe (fun s => Free s ∧ Read token server s) (onGate (lockSendMutex .pipe))
      (fun _ s => Holding (fun _ => True) s ∧ Read token server s) := by
  refine .atomic between_stable fun e s hs hbetween _ hready => ?_
  have hnone : s.gate.sendMutex = none := by simpa using hready
  refine ⟨⟨hs.epoch, hs.allowed, hs.paired, hs.port, hs.inSession⟩, fun j hj => ?_,
    fun t hrely hinv => ?_⟩
  · cases j with
    | control => exact ⟨rfl, rfl, rfl, by simp [hnone]⟩
    | pipe => exact absurd rfl hj
  · have hafter : Holding (fun _ => True) { s with gate := { s.gate with sendMutex := some .pipe } } ∧
        Read token server { s with gate := { s.gate with sendMutex := some .pipe } } :=
      ⟨⟨rfl, trivial⟩, hbetween.2⟩
    exact under_stable _ _ t hafter hrely hinv

theorem unlock_outline :
    discipline.Outline .pipe (fun s => Holding fact s ∧ Read token server s)
      (onGate unlockSendMutex) (fun _ s => Free s ∧ Read token server s) := by
  unfold unlockSendMutex DataPlaneGate.modify
  rw [onGate_critical]
  refine pipe_section (under_stable fact) (fun _ => between_stable) fun _ s hs hunder => ?_
  obtain ⟨⟨hmutex, -⟩, hread⟩ := hunder
  refine ⟨⟨hs.epoch, hs.allowed, hs.paired, hs.port, hs.inSession⟩,
    ⟨rfl, rfl, rfl, ?_⟩, nofun, hread⟩
  simp [hmutex]

/-- What the two loads under the mutex have shown: the token is that of the session in force. -/
def Current (token : UInt64) (log : List GateEvent) : Prop :=
  (inForce log).isSome ∧ token = UInt64.ofNat (increments log)

theorem inSession_of_current (hs : Invariant s) (hcurrent : Current token s.gate.log)
    (hread : Read token server s) (hpacket : packet ∈ videoDatagrams frame server.sessionShort)
    (hfew : increments s.gate.log < 2 ^ 64) :
    InSession ⟨frame, server.videoPeer, packet, s.server, s.gate.log⟩ := by
  obtain ⟨hopen, hnow⟩ := hcurrent
  obtain ⟨read, htoken, hpast, hsession⟩ := hread
  have hlast : increments s.gate.log = read := by
    have hnats := congrArg UInt64.toNat (hnow.symm.trans htoken)
    rwa [UInt64.toNat_ofNat_of_lt' hfew, UInt64.toNat_ofNat_of_lt' (hpast.trans_lt hfew)] at hnats
  obtain ⟨hpeer, hshort⟩ := hsession hlast hopen
  refine ⟨hopen, hs.paired hopen, hpeer.symm, ?_⟩
  rwa [hshort]

/-- The datagram is sent under the mutex. -/
theorem act_outline (hpacket : packet ∈ videoDatagrams frame server.sessionShort) :
    discipline.Outline .pipe (fun s => Holding (Current token) s ∧ Read token server s)
      (.critical fun _ s => ((), { s with
        gate := { s.gate with log := s.gate.log ++ [.acted token] }
        sent := s.sent ++ [⟨frame, server.videoPeer, packet, s.server, s.gate.log⟩] }))
      (fun _ s => Holding (fun _ => True) s ∧ Read token server s) := by
  refine pipe_section (under_stable _) (fun _ => under_stable _) fun _ s hs hunder => ?_
  obtain ⟨⟨hmutex, hcurrent⟩, hread⟩ := hunder
  refine ⟨⟨?_, fun hallowed => ?_, fun hopen => ?_, hs.port, fun hfew x hx => ?_⟩,
    ⟨rfl, rfl, inForce_acted _ _, Iff.rfl⟩, ⟨hmutex, trivial⟩, ?_⟩
  · rw [increments_acted]
    exact hs.epoch
  · rw [inForce_acted]
    exact hs.allowed hallowed
  · rw [inForce_acted] at hopen
    exact hs.paired hopen
  · rw [increments_acted] at hfew
    rcases List.mem_append.mp hx with hx | hx
    · exact hs.inSession hfew x hx
    · obtain rfl := List.mem_singleton.mp hx
      exact inSession_of_current hs hcurrent hread hpacket hfew
  · simpa only [Read, increments_acted, inForce_acted] using hread

theorem sendIfAllowed_outline (hpacket : packet ∈ videoDatagrams frame server.sessionShort) :
    discipline.Outline .pipe (fun s => Free s ∧ Read token server s)
      (sendIfAllowed token frame server.videoPeer packet)
      (fun _ s => Free s ∧ Read token server s) := by
  have hleave (fact : List GateEvent → Prop) (sent : Bool) : discipline.Outline .pipe
      (fun s => Holding fact s ∧ Read token server s)
      (onGate unlockSendMutex >>= fun _ => Program.ret sent)
      (fun _ s => Free s ∧ Read token server s) :=
    unlock_outline.bind fun _ => .ret sent between_stable fun _ _ h => h
  have hallowed : discipline.Outline .pipe
      (fun s => Holding (fun _ => True) s ∧ Read token server s) (onGate (load allowed))
      (fun allowed s => Holding (fun log => allowed = true → (inForce log).isSome) s ∧
        Read token server s) :=
    load_outline (under_stable _) (fun _ => under_stable _)
      fun s hs hunder => ⟨⟨hunder.1.1, hs.allowed⟩, hunder.2⟩
  refine lockPipe_outline.bind fun _ => ?_
  refine hallowed.bind fun first => ?_
  cases first with
  | false => exact hleave _ false
  | true =>
    have hepoch : discipline.Outline .pipe
        (fun s => Holding (fun log => true = true → (inForce log).isSome) s ∧ Read token server s)
        (onGate (load epoch))
        (fun current s => Holding (Current current) s ∧ Read token server s) :=
      load_outline (under_stable _) (fun _ => under_stable _)
        fun s hs hunder => ⟨⟨hunder.1.1, hunder.1.2 rfl, hs.epoch⟩, hunder.2⟩
    refine hepoch.bind fun current => ?_
    split
    · exact hleave _ false
    · rename_i hcurrent
      obtain rfl : current = token := not_not.mp hcurrent
      exact (act_outline hpacket).bind fun _ => hleave _ true

theorem sendFragments_outline (packets : List Receiver.Bytes)
    (hpackets : ∀ packet ∈ packets, packet ∈ videoDatagrams frame server.sessionShort) :
    discipline.Outline .pipe (fun s => Free s ∧ Read token server s)
      (sendFragments token frame server.videoPeer packets) (fun _ => Free) := by
  induction packets with
  | nil =>
    refine Discipline.Outline.bind (Q := fun _ => Free) ?_ fun _ =>
      .ret _ free_stable fun _ _ h => h
    exact (canSend_outline token).weaken (fun _ _ h => h.1) fun _ _ _ h => h
  | cons packet packets ih =>
    obtain ⟨hpacket, hrest⟩ := List.forall_mem_cons.mp hpackets
    refine (sendIfAllowed_outline hpacket).bind fun sent => ?_
    cases sent with
    | false => exact .ret _ between_stable fun _ _ h => h.1
    | true => exact ih hrest

theorem sendVideoFrame_outline (frame : PipeFrame) :
    discipline.Outline .pipe Free (sendVideoFrame frame) (fun _ => Free) := by
  have hret : discipline.Outline .pipe Free (Program.ret () : HostProgram Unit) (fun _ => Free) :=
    .ret () free_stable fun _ _ h => h
  refine capture_outline.bind fun captured => ?_
  cases captured with
  | none => exact hret.weaken (fun _ _ h => h.1) fun _ _ _ h => h
  | some token =>
    have hread : discipline.Outline .pipe (fun s => Free s ∧ Captured token s)
        (.critical fun _ s => (s.server, s)) (fun server s => Free s ∧ Read token server s) := by
      refine pipe_section (free_stable.and (captured_stable token)) (fun _ => between_stable)
        fun _ s hs hcaptured => ⟨hs, ControlRelies.refl s, hcaptured.1, ?_⟩
      obtain ⟨read, htoken, hpast⟩ := hcaptured.2
      exact ⟨read, htoken, hpast, fun _ _ => ⟨rfl, rfl⟩⟩
    refine (hread.weaken (fun _ _ h => ⟨h.1, h.2 token rfl⟩) fun _ _ _ h => h).bind fun server => ?_
    split
    · exact hret.weaken (fun _ _ h => h.1) fun _ _ _ h => h
    · dsimp only
      split
      · exact hret.weaken (fun _ _ h => h.1) fun _ _ _ h => h
      · exact sendFragments_outline _ fun _ h => h

end Pipe

section Order
variable {frames : List PipeFrame} {short : UInt32} {count : Nat}

/-- Only the pipe thread sends. -/
def Unsent (s t : HostPlane) : Prop := t.sent = s.sent

theorem Unsent.refl (s : HostPlane) : Unsent s s := rfl

theorem onGate_unsent {α : Type} (p : GateProgram Worker α) : (onGate p).Every Unsent :=
  (Program.Every.all (G := fun _ _ => True) (fun _ _ => trivial) p).focus fun _ _ _ => rfl

theorem session_unsent {α : Type} (f : Learned → HostServer → α × HostServer) :
    (session f).Every Unsent := fun _ _ _ => ⟨rfl, trivial⟩

theorem clear_unsent : clearSession.Every Unsent :=
  (onGate_unsent _).bind fun _ => (session_unsent _).bind fun _ => session_unsent _

theorem answer_unsent :
    (sendSession >>= fun sent =>
      if !sent then Program.ret () else
        onGate (openGate .control) >>= fun _ => Program.ret ()).Every Unsent := by
  refine (session_unsent _).bind fun sent => ?_
  split
  · trivial
  · exact (onGate_unsent _).bind fun _ => trivial

theorem control_unsent (job : Job) : (spawn .control job).Every Unsent := by
  cases job with
  | round =>
    refine (session_unsent _).bind fun expired => ?_
    split
    · exact clear_unsent
    · trivial
  | frame json peer =>
    refine (session_unsent _).bind fun looked => ?_
    dsimp only
    split
    · trivial
    split
    · exact (session_unsent _).bind fun _ => answer_unsent
    refine (session_unsent _).bind fun random => ?_
    split
    · trivial
    · exact (session_unsent _).bind fun _ => answer_unsent
  | wifiNotAllowed => exact clear_unsent
  | disconnected => exact session_unsent fun e server => ((), server.markDisconnected e.now)
  | video frame => trivial

/-- Of the last frame so many datagrams are sent. -/
def sends (frames : List PipeFrame) (frame : PipeFrame) (short : UInt32) (count : Nat) :
    Assertion Unsent (fun s => InOrder (frames ++ [frame]) s.sent) where
  holds s := ∃ sent part, s.sent = sent ++ part ∧ InOrder frames sent ∧
    part.map Sending.packet = (videoDatagrams frame short).take count ∧ ∀ x ∈ part, x.frame = frame
  stable h hsame := by
    rw [show _ = _ from hsame]
    exact h
  safe h := by
    obtain ⟨sent, part, hsent, hbefore, hfirst, hown⟩ := h
    rw [hsent]
    exact .frame hbefore short count hfirst hown

theorem gate_sends {α : Type} (p : GateProgram Worker α) :
    Triple (sends frames frame short count) (onGate p) (fun _ => sends frames frame short count) :=
  .every (onGate_unsent p) fun _ _ hs h => (sends _ _ _ _).stable hs h

theorem act_sends (hpacket : (videoDatagrams frame short)[count]? = some packet) :
    Triple (sends frames frame short count)
      (.critical fun _ s => ((), { s with
        gate := { s.gate with log := s.gate.log ++ [.acted token] }
        sent := s.sent ++ [⟨frame, peer, packet, s.server, s.gate.log⟩] }) : HostProgram Unit)
      (fun _ => sends frames frame short (count + 1)) := by
  refine .critical fun _ s hs => ?_
  obtain ⟨sent, part, hsent, hbefore, hfirst, hown⟩ := hs
  refine ⟨sent, part ++ [⟨frame, peer, packet, s.server, s.gate.log⟩], ?_, hbefore, ?_, ?_⟩
  · simp only [hsent, List.append_assoc]
  · rw [List.map_append, hfirst, List.take_add_one, hpacket]
    rfl
  · intro x hx
    rcases List.mem_append.mp hx with hx | hx
    · exact hown x hx
    · rw [List.mem_singleton.mp hx]

theorem sendIfAllowed_sends (hpacket : (videoDatagrams frame short)[count]? = some packet) :
    Triple (sends frames frame short count) (sendIfAllowed token frame peer packet)
      (fun sent => sends frames frame short (if sent then count + 1 else count)) := by
  have hrefuse : Triple (sends frames frame short count)
      (onGate unlockSendMutex >>= fun _ => (Program.ret false : HostProgram Bool))
      (fun sent => sends frames frame short (if sent then count + 1 else count)) :=
    .bind Unsent.refl (gate_sends _) fun _ => .ret false fun _ h => h
  refine .bind Unsent.refl (gate_sends _) fun _ => ?_
  refine .bind Unsent.refl (gate_sends _) fun first => ?_
  cases first with
  | false => exact hrefuse
  | true =>
    refine .bind Unsent.refl (gate_sends _) fun current => ?_
    split
    · exact hrefuse
    · refine .bind Unsent.refl (act_sends hpacket) fun _ => ?_
      exact .bind Unsent.refl (gate_sends _) fun _ => .ret true fun _ h => h

/-- Over the datagrams that are left: each is the next one of the frame. -/
theorem sendFragments_sends (packets : List Receiver.Bytes)
    (hleft : packets = (videoDatagrams frame short).drop count) :
    Triple (sends frames frame short count) (sendFragments token frame peer packets)
      (fun _ => .any (sends frames frame short)) := by
  induction packets generalizing count with
  | nil => exact .bind Unsent.refl (gate_sends _) fun _ => .ret () fun _ h => ⟨count, h⟩
  | cons packet packets ih =>
    have hpacket : (videoDatagrams frame short)[count]? = some packet := by
      rw [← List.head?_drop, ← hleft]
      rfl
    have hrest : packets = (videoDatagrams frame short).drop (count + 1) := by
      rw [← List.tail_drop, ← hleft]
      rfl
    refine .bind Unsent.refl (sendIfAllowed_sends hpacket) fun sent => ?_
    cases sent with
    | false => exact .ret () fun _ h => ⟨count, h⟩
    | true => exact ih hrest

/-- None of it is sent yet, whatever the session's number will be. -/
theorem sends_none (short' : UInt32) {s : HostPlane} (h : (sends frames frame short 0).holds s) :
    (sends frames frame short' 0).holds s := by
  obtain ⟨sent, part, hsent, hbefore, hfirst, hown⟩ := h
  exact ⟨sent, part, hsent, hbefore, hfirst, hown⟩

theorem sendVideoFrame_sends (frames : List PipeFrame) (frame : PipeFrame) :
    Triple (sends frames frame 0 0) (sendVideoFrame frame)
      (fun _ => .any fun short => .any (sends frames frame short)) := by
  have hret : Triple (sends frames frame 0 0) (Program.ret () : HostProgram Unit)
      (fun _ => .any fun short => .any (sends frames frame short)) :=
    .ret () fun _ h => ⟨0, 0, h⟩
  refine .bind Unsent.refl (gate_sends _) fun captured => ?_
  cases captured with
  | none => exact hret
  | some token =>
    refine .bind (Q := fun _ => sends frames frame 0 0) Unsent.refl
      (.critical fun _ _ h => h) fun server => ?_
    split
    · exact hret
    dsimp only
    split
    · exact hret
    · refine (@sendFragments_sends _ _ _ _ _ 0 _ (List.drop_zero).symm).weaken
        (fun _ => sends_none server.sessionShort) fun _ _ h => ⟨_, h⟩

/-- The frames among the jobs of the pipe thread. -/
def framesOf (jobs : List Job) : List PipeFrame :=
  jobs.filterMap fun job => match job with
    | .video frame => some frame
    | _ => none

theorem pipe_sends (jobs : List Job) (job : Job) (s : HostPlane)
    (hs : InOrder (framesOf jobs) s.sent) :
    (spawn .pipe job).Safe Unsent (fun s => InOrder (framesOf (jobs ++ [job])) s.sent)
      (fun _ s => InOrder (framesOf (jobs ++ [job])) s.sent) s := by
  have hstay {t : HostPlane} (h : Unsent s t) : InOrder (framesOf jobs) t.sent := by
    rw [show t.sent = s.sent from h]
    exact hs
  cases job with
  | video frame =>
    rw [show framesOf (jobs ++ [.video frame]) = framesOf jobs ++ [frame] by simp [framesOf]]
    have hnone : (sends (framesOf jobs) frame 0 0).holds s :=
      ⟨s.sent, [], (List.append_nil _).symm, hs, rfl, fun _ h => by cases h⟩
    exact (sendVideoFrame_sends _ frame s hnone).mono fun _ _ h =>
      (Assertion.any fun short => .any (sends (framesOf jobs) frame short)).safe h
  | round | frame | wifiNotAllowed | disconnected =>
    simp only [framesOf, List.filterMap_append, List.filterMap_cons, List.filterMap_nil,
      List.append_nil] at hs hstay ⊢
    exact fun t ht => ⟨hstay ht, hstay ht⟩

end Order

/-- Where a thread is between two jobs. -/
def AtRest : Worker → HostPlane → Prop
  | .control => Rests
  | .pipe => Free

theorem atRest_stable (i : Worker) : discipline.Stable i (AtRest i) := by
  cases i with
  | control => exact knows_stable false fun _ _ _ => True
  | pipe => exact free_stable

theorem spawn_outline (i : Worker) (job : Job) :
    discipline.Outline i (AtRest i) (spawn i job) (fun _ => AtRest i) := by
  cases i with
  | control =>
    cases job with
    | round => exact round_outline
    | frame json peer => exact authenticate_outline json peer
    | wifiNotAllowed => exact clear_outline
    | disconnected => exact disconnected_outline
    | video frame => exact .ret () (atRest_stable .control) fun _ _ h => h
  | pipe =>
    cases job with
    | video frame => exact sendVideoFrame_outline frame
    | _ => exact .ret () free_stable fun _ _ h => h

theorem start_invariant (random : Option UInt32) : Invariant (start random) := by
  refine ⟨rfl, nofun, nofun, ?_, fun _ _ => nofun⟩
  cases random <;> exact nofun

theorem start_atRest (random : Option UInt32) (i : Worker) : AtRest i (start random) := by
  cases i with
  | control => exact ⟨⟨nofun, nofun⟩, trivial⟩
  | pipe => exact nofun

/-- However the connections and the encoded frames interleave, video reaches only the peer of the
session in force, under its number, and of each frame that the pipe thread was given the first
datagrams in their order. -/
theorem video_follows_session (random : Option UInt32) (jobs : List (Worker × Job))
    (c : Config Worker HostPlane Learned)
    (hc : Config.ReachesBy spawn (fun _ _ _ => True) (fun _ _ _ => True) (.idle (start random)) jobs c)
    (hfew : increments c.state.gate.log < 2 ^ 64) :
    FollowsSession (framesOf (Config.given .pipe jobs)) c.state := by
  have hkept : Config.Kept discipline AtRest c :=
    hc.reaches.kept (start_invariant random) atRest_stable (start_atRest random)
      fun i job s hs hrest _ => spawn_outline i job s hs hrest
  have horder := hc.separated (m := .pipe) (R := Unsent)
    (J := fun jobs s => InOrder (framesOf jobs) s.sent)
    (I := fun jobs s => InOrder (framesOf jobs) s.sent) Unsent.refl
    (fun h h' => Eq.trans h' h) (fun s t hs h => by rwa [show t.sent = s.sent from h])
    (fun _ h => h) (fun jobs job s hs => pipe_sends jobs job s hs)
    (fun i job hi => by
      cases i with
      | control => exact control_unsent job
      | pipe => exact absurd rfl hi) (by exact InOrder.none)
  exact ⟨hkept.1.inSession hfew, horder.1.now rfl⟩

/-- What the generator gives at a pairing, and for the next pairing code. -/
def drawn : Learned := { random := some 0, answers := { random := List.replicate 16 1 } }

def wideFrame : PipeFrame := ⟨0, 1, 0, List.replicate 2500 7⟩

def nextFrame : PipeFrame := ⟨1, 0, 33333, List.replicate 1300 8⟩

/-- A session is cleared while a frame of three datagrams is sent. A connection from another address
pairs, and the next frame comes. -/
def sendAcrossSessions : List (Move Worker Learned Job) :=
  .start .control (.frame ResumeWindow.pairJson ⟨1, 5000⟩) ::
    (List.replicate 9 (.step .control drawn) ++
    .start .pipe (.video wideFrame) :: (List.replicate 10 (.step .pipe {}) ++
    .start .control .wifiNotAllowed :: (List.replicate 6 (.step .control drawn) ++
    .start .control (.frame ResumeWindow.pairJson ⟨2, 5000⟩) ::
    (List.replicate 9 (.step .control drawn) ++ List.replicate 4 (.step .pipe {}) ++
    .start .pipe (.video nextFrame) :: List.replicate 17 (.step .pipe {})))))

abbrev across : Option (Config Worker HostPlane Learned) :=
  Config.follow spawn (fun _ _ _ => True) (fun _ _ _ => True) sendAcrossSessions
    (.idle (start (some 0)))

theorem across_played : across.any (fun c =>
      c.state.sent.map Sending.peer = [⟨1, kVideoPort⟩, ⟨2, kVideoPort⟩, ⟨2, kVideoPort⟩] ∧
        increments c.state.gate.log < 2 ^ 64) = true ∧
    framesOf (Config.given .pipe (Config.performed spawn sendAcrossSessions
      (.idle (start (some 0))))) = [wideFrame, nextFrame] := by
  decide +kernel

theorem video_follows_session_sent : ∃ c : Config Worker HostPlane Learned,
    c.state.sent.map Sending.peer = [⟨1, kVideoPort⟩, ⟨2, kVideoPort⟩, ⟨2, kVideoPort⟩] ∧
      FollowsSession [wideFrame, nextFrame] c.state := by
  obtain ⟨hrun, hframes⟩ := across_played
  obtain ⟨c, hc, hsent⟩ := (Option.any_eq_true _ _).mp hrun
  obtain ⟨hpeers, hfew⟩ := of_decide_eq_true hsent
  refine ⟨c, hpeers, ?_⟩
  rw [← hframes]
  exact video_follows_session (some 0) _ c (Config.ReachesBy.follow .refl _ hc) hfew

end HarmonyScreen.Proofs.VideoSafety
