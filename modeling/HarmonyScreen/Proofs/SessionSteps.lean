import HarmonyScreen.Host.VideoPlane
import HarmonyScreen.Lib.Jobs
import HarmonyScreen.Proofs.ResumeWindow

namespace HarmonyScreen.Proofs.SessionSteps
open Lib Host HostPlane
open DataPlaneGate hiding Job spawn

/-- The session, with the gate as the one flag that the control loop keeps of it. -/
def seen (s : HostPlane) : HostServer := { s.server with dataPlaneOpen := s.gate.allowed }

/-- A section's work that does not look at the flag. -/
def Unflagged (f : HostServer → α × HostServer) : Prop :=
  ∀ server allowed, f { server with dataPlaneOpen := allowed } =
    ((f server).1, { (f server).2 with dataPlaneOpen := allowed })

/-- What one job of the control thread does to the session in one step. Its clock, its random
numbers and the fate of its answer are among what the thread learned. -/
inductive SessionStep (Learns : Learned → Prop) (server : HostServer) : Job → HostServer → Prop where
  | round (look draw : Learned) (hlook : Learns look) (hdraw : Learns draw) :
      SessionStep Learns server .round (server.expireResumeWindow look.now draw.random)
  | frame (json : Receiver.Bytes) (peer : Peer) (look draw send : Learned) (hlook : Learns look)
      (hdraw : Learns draw) (hsend : Learns send) :
      SessionStep Learns server (.frame json peer) (ControlLoop.authenticate json look.now
        { draw.answers with sent := send.answers.sent }
        { peer := peer, lastMessage := look.now } server).2.1
  | wifiNotAllowed (draw : Learned) (hdraw : Learns draw) :
      SessionStep Learns server .wifiNotAllowed (server.clearSession draw.random)
  | disconnected (look : Learned) (hlook : Learns look) :
      SessionStep Learns server .disconnected (server.markDisconnected look.now)
  /-- Frames are the pipe thread's. -/
  | video (frame : PipeFrame) : SessionStep Learns server (.video frame) server

/-- The jobs one after the other, each in one step. -/
inductive Stepwise (Learns : Learned → Prop) (server : HostServer) :
    List Job → HostServer → Prop where
  | refl : Stepwise Learns server [] server
  | step {jobs : List Job} {job : Job} {s t : HostServer} (before : Stepwise Learns server jobs s)
      (step : SessionStep Learns s job t) : Stepwise Learns server (jobs ++ [job]) t

/-- The pipe thread leaves the session alone. -/
def Aside (s t : HostPlane) : Prop := t.server = s.server ∧ t.gate.allowed = s.gate.allowed

theorem Aside.refl (s : HostPlane) : Aside s s := ⟨rfl, rfl⟩

theorem Aside.trans {s t u : HostPlane} (h : Aside s t) (h' : Aside t u) : Aside s u :=
  ⟨h'.1.trans h.1, h'.2.trans h.2⟩

theorem Aside.seen {s t : HostPlane} (h : Aside s t) : seen t = seen s := by
  rw [SessionSteps.seen, SessionSteps.seen, h.1, h.2]

def Relies : Worker → HostPlane → HostPlane → Prop
  | .control => Aside
  | .pipe => fun _ _ => True

theorem Relies.refl (i : Worker) (s : HostPlane) : Relies i s s := by
  cases i with
  | control => exact Aside.refl s
  | pipe => trivial

theorem Relies.trans (i : Worker) {s t u : HostPlane} (h : Relies i s t) (h' : Relies i t u) :
    Relies i s u := by
  cases i with
  | control => exact Aside.trans h h'
  | pipe => trivial

/-- The control thread learns only this; the pipe thread leaves the session alone. -/
def discipline (Learns : Learned → Prop) : Discipline Worker HostPlane Learned where
  invariant _ := True
  offers i _ e := i = .control → Learns e
  rely := Relies
  guarantee i s t := ∀ j, j ≠ i → Relies j s t
  refl := Relies.refl
  trans := Relies.trans
  compatible hne _ h := h _ hne.symm

variable {Learns : Learned → Prop} {fact : HostServer → Prop} {server : HostServer}

def Sees (fact : HostServer → Prop) (s : HostPlane) : Prop := fact (seen s)

theorem Aside.sees {s t : HostPlane} (h : Aside s t) (hs : Sees fact s) : Sees fact t := by
  rw [Sees, h.seen]
  exact hs

theorem sees_stable (fact : HostServer → Prop) :
    (discipline Learns).Stable .control (Sees fact) :=
  fun _ _ h (hrely : Aside _ _) _ => hrely.sees h

/-- What the control thread does, nobody minds. -/
theorem control_guarantees (s t : HostPlane) : (discipline Learns).guarantee .control s t := by
  intro j hj
  cases j with
  | control => exact absurd rfl hj
  | pipe => trivial

/-- What a section of the control thread has read and left. -/
def Did {α : Type} (Learns : Learned → Prop) (f : Learned → HostServer → α × HostServer)
    (server : HostServer) (a : α) (s : HostPlane) : Prop :=
  ∃ e, Learns e ∧ a = (f e server).1 ∧ seen s = (f e server).2

theorem session_sees {α : Type} {f : Learned → HostServer → α × HostServer}
    (hflag : ∀ e, Unflagged (f e)) :
    (discipline Learns).Outline .control (Sees (· = server)) (session f) (Did Learns f server) := by
  refine .critical (sees_stable _) (fun a => sees_stable fun s => ∃ e, Learns e ∧
    a = (f e server).1 ∧ s = (f e server).2) ?_
  rintro e s - rfl he
  have hseen : f e (seen s) = _ := hflag e s.server s.gate.allowed
  exact ⟨trivial, control_guarantees _ _, e, he rfl, congrArg Prod.fst hseen.symm,
    congrArg Prod.snd hseen.symm⟩

theorem onGate_every {α : Type} {p : GateProgram Worker α}
    (hp : p.Every fun s t => t.allowed = s.allowed) : (onGate p).Every Aside :=
  hp.focus fun _ _ h => ⟨rfl, h⟩

/-- Work on the gate that leaves the flag. -/
theorem gate_aside {α : Type} {p : GateProgram Worker α}
    (hp : p.Every fun s t => t.allowed = s.allowed) :
    (discipline Learns).Outline .control (Sees fact) (onGate p) (fun _ => Sees fact) :=
  .of_every (onGate_every hp) (sees_stable fact) (fun s t _ _ => ⟨trivial, control_guarantees s t⟩)
    fun _ _ hs h => h.sees hs

theorem lock_every (i : Worker) :
    (lockSendMutex i).Every fun s t => t.allowed = s.allowed := fun _ _ _ => ⟨rfl, trivial⟩

theorem incrementEpoch_every (i : Worker) (event : UInt64 → GateEvent) :
    (incrementEpoch i event).Every fun s t => t.allowed = s.allowed := fun _ _ _ => ⟨rfl, trivial⟩

theorem finishChange_every (i : Worker) :
    (finishChange i).Every fun s t => t.allowed = s.allowed := fun _ _ _ => ⟨rfl, trivial⟩

/-- The stores of the flag. -/
theorem store_sees {f : DataPlaneGate Worker → DataPlaneGate Worker} {allowed : Bool}
    (h : ∀ s, (f s).allowed = allowed) :
    (discipline Learns).Outline .control (Sees (· = server)) (onGate (DataPlaneGate.modify f))
      (fun _ => Sees (· = { server with dataPlaneOpen := allowed })) := by
  unfold DataPlaneGate.modify
  rw [onGate_critical]
  refine .critical (sees_stable _) (fun _ => sees_stable _) ?_
  rintro e s - rfl -
  have hstored : (f s.gate).allowed = allowed := h s.gate
  exact ⟨trivial, control_guarantees _ _, by simp [Sees, seen, hstored]⟩

theorem revoke_sees :
    (discipline Learns).Outline .control (Sees (· = server)) (onGate (revoke .control))
      (fun _ => Sees (· = { server with dataPlaneOpen := false })) := by
  rw [revoke, onGate_bind]
  refine .bind (store_sees fun _ => rfl) fun _ => ?_
  rw [onGate_bind]
  refine .bind (gate_aside (lock_every _)) fun _ => ?_
  rw [onGate_bind]
  refine .bind (gate_aside (incrementEpoch_every _ _)) fun _ => ?_
  exact gate_aside (finishChange_every _)

theorem ret_sees {Q : HostServer → Prop} (h : Q server) :
    (discipline Learns).Outline .control (Sees (· = server))
      (Program.ret () : HostProgram Unit) (fun _ => Sees Q) :=
  .ret _ (sees_stable _) fun _ _ hs => (congrArg Q hs).mpr h

theorem openGate_sees {Q : HostServer → Prop} (h : Q { server with dataPlaneOpen := true }) :
    (discipline Learns).Outline .control (Sees (· = server))
      (onGate (openGate .control) >>= fun _ => Program.ret ()) (fun _ => Sees Q) := by
  refine .bind (Q := fun _ => Sees (· = { server with dataPlaneOpen := true })) ?_ fun _ => ret_sees h
  rw [openGate, onGate_bind]
  refine .bind (store_sees fun _ => rfl) fun _ => ?_
  rw [onGate_bind]
  refine .bind (gate_aside (lock_every _)) fun _ => ?_
  rw [onGate_bind]
  refine .bind (gate_aside (incrementEpoch_every _ _)) fun _ => ?_
  rw [onGate_bind]
  refine .bind (store_sees fun _ => rfl) fun _ => ?_
  rw [onGate_bind]
  refine .bind (gate_aside (finishChange_every _)) fun _ => ?_
  exact .ret _ (sees_stable _) fun _ _ h => h

/-- What a section learned may be assumed to have been given. -/
theorem session_bind {α β : Type} {f : Learned → HostServer → α × HostServer}
    {next : α → HostProgram β} {Q : β → HostPlane → Prop} (hflag : ∀ e, Unflagged (f e))
    (h : ∀ e, Learns e → (discipline Learns).Outline .control (Sees (· = (f e server).2))
      (next (f e server).1) Q) :
    (discipline Learns).Outline .control (Sees (· = server)) (session f >>= next) Q :=
  .bind (session_sees hflag) fun _ => .any fun e => .when fun he => .when fun ha => ha ▸ h e he

theorem rotate_unflagged (e : Learned) :
    Unflagged fun server => ((), server.rotatePairingCode e.random) := by
  intro server allowed
  cases hrandom : e.random <;> rfl

theorem clear_sees {Q : HostServer → Prop}
    (h : ∀ draw, Learns draw → Q (server.clearSession draw.random)) :
    (discipline Learns).Outline .control (Sees (· = server)) clearSession (fun _ => Sees Q) := by
  refine .bind revoke_sees fun _ => ?_
  refine session_bind (fun _ _ _ => rfl) fun _ _ => ?_
  refine (session_sees rotate_unflagged).weaken (fun _ _ h => h) fun _ s _ hs => ?_
  obtain ⟨draw, hdraw, -, hserver⟩ := hs
  exact (congrArg Q hserver).mpr (h draw hdraw)

theorem disconnected_sees :
    (discipline Learns).Outline .control (Sees (· = server)) markDisconnected
      (fun _ => Sees (SessionStep Learns server .disconnected)) := by
  have hmark : ∀ e : Learned, Unflagged fun server => ((), server.markDisconnected e.now) := by
    intro e server allowed
    cases hpaired : server.paired <;> simp [HostServer.markDisconnected, hpaired]
  refine (session_sees hmark).weaken (fun _ _ h => h) fun _ s _ hs => ?_
  obtain ⟨look, hlook, -, hserver⟩ := hs
  exact (congrArg (SessionStep Learns server .disconnected) hserver).mpr (.disconnected look hlook)

/-- The deadline is looked at once; behind it the session is cleared. -/
theorem round_sees :
    (discipline Learns).Outline .control (Sees (· = server)) expireResumeWindow
      (fun _ => Sees (SessionStep Learns server .round)) := by
  refine session_bind (fun _ _ _ => rfl) fun look hlook => ?_
  by_cases hexpired : server.resumePending = true ∧ look.now ≥ server.resumeDeadline
  · rw [decide_eq_true hexpired, if_pos rfl]
    refine clear_sees fun draw hdraw => ?_
    have hstep : SessionStep Learns server .round _ := .round look draw hlook hdraw
    rwa [HostServer.expireResumeWindow, if_pos hexpired] at hstep
  · rw [decide_eq_false hexpired, if_neg Bool.false_ne_true]
    refine ret_sees ?_
    have hstep : SessionStep Learns server .round _ := .round look look hlook hlook
    rwa [HostServer.expireResumeWindow, if_neg hexpired] at hstep

/-- The answer to an accepted frame, and behind it the gate. -/
theorem answer_sees {Q : HostServer → Prop}
    (hlost : ∀ send, Learns send → send.answers.sent = false → Q server)
    (hsent : ∀ send, Learns send → send.answers.sent = true → Q { server with dataPlaneOpen := true }) :
    (discipline Learns).Outline .control (Sees (· = server))
      (sendSession >>= fun sent =>
        if !sent then Program.ret () else
          onGate (openGate .control) >>= fun _ => Program.ret ())
      (fun _ => Sees Q) := by
  refine session_bind (fun _ _ _ => rfl) fun send hsend => ?_
  cases hwhole : send.answers.sent with
  | false => exact ret_sees (hlost send hsend hwhole)
  | true => exact openGate_sees (hsent send hsend hwhole)

theorem frame_sees (json : Receiver.Bytes) (peer : Peer) :
    (discipline Learns).Outline .control (Sees (· = server)) (authenticate json peer)
      (fun _ => Sees (SessionStep Learns server (.frame json peer))) := by
  refine session_bind (fun _ _ _ => rfl) fun look hlook => ?_
  have hstep (draw send : Learned) (hdraw : Learns draw) (hsend : Learns send) :
      SessionStep Learns server (.frame json peer) _ :=
    .frame json peer look draw send hlook hdraw hsend
  unfold ControlLoop.authenticate at hstep
  simp only [decide_eq_true_eq]
  split
  · rename_i hrejected
    refine ret_sees ?_
    simpa only [if_pos hrejected] using hstep look look hlook hlook
  · rename_i haccepted
    split
    · rename_i hresume
      refine session_bind (fun _ _ _ => rfl) fun _ _ => answer_sees ?_ ?_
      · intro send hsend hlost
        simpa only [if_neg haccepted, if_pos hresume, hlost, Bool.not_false, if_true] using
          hstep look send hlook hsend
      · intro send hsend hsent
        simpa only [if_neg haccepted, if_pos hresume, hsent, Bool.not_true, Bool.false_eq_true,
          if_false] using hstep look send hlook hsend
    · rename_i hpair
      refine session_bind (fun _ _ _ => rfl) fun draw hdraw => ?_
      cases hrandom : draw.answers.randomOk with
      | false =>
        refine ret_sees ?_
        simpa only [if_neg haccepted, if_neg hpair, hrandom, Bool.not_false, if_true] using
          hstep draw look hdraw hlook
      | true =>
        refine session_bind (fun _ _ _ => rfl) fun _ _ => answer_sees ?_ ?_
        · intro send hsend hlost
          simpa only [if_neg haccepted, if_neg hpair, hrandom, hlost, Bool.not_true,
            Bool.not_false, Bool.false_eq_true, if_true, if_false] using
            hstep draw send hdraw hsend
        · intro send hsend hsent
          simpa only [if_neg haccepted, if_neg hpair, hrandom, hsent, Bool.not_true,
            Bool.false_eq_true, if_false] using hstep draw send hdraw hsend

/-- Every job of the control thread is one step on the session. -/
theorem job_sees (job : Job) :
    (discipline Learns).Outline .control (Sees (· = server)) (spawn .control job)
      (fun _ => Sees (SessionStep Learns server job)) := by
  cases job with
  | round => exact round_sees
  | frame json peer => exact frame_sees json peer
  | wifiNotAllowed => exact clear_sees .wifiNotAllowed
  | disconnected => exact disconnected_sees
  | video frame => exact ret_sees (.video frame)

theorem load_every {α : Type} (read : DataPlaneGate Worker → α) :
    (load read).Every fun s t => t.allowed = s.allowed := fun _ _ _ => ⟨rfl, trivial⟩

theorem capture_every : (capture : GateProgram Worker _).Every fun s t => t.allowed = s.allowed := by
  refine .bind (load_every _) fun first => ?_
  cases first with
  | false => trivial
  | true =>
    refine .bind (load_every _) fun token => ?_
    refine .bind (load_every _) fun second => ?_
    cases second with
    | false => trivial
    | true =>
      refine .bind (load_every _) fun again => ?_
      split <;> trivial

theorem canSend_every (token : UInt64) :
    (canSend token : GateProgram Worker Bool).Every fun s t => t.allowed = s.allowed := by
  refine .bind (load_every _) fun first => ?_
  cases first with
  | false => trivial
  | true => exact .bind (load_every _) fun _ => trivial

theorem sendIfAllowed_every (token : UInt64) (frame : PipeFrame) (peer : Peer)
    (packet : Receiver.Bytes) : (sendIfAllowed token frame peer packet).Every Aside := by
  have hrefuse : (onGate unlockSendMutex >>= fun _ =>
      (Program.ret false : HostProgram Bool)).Every Aside :=
    .bind (onGate_every fun _ _ _ => ⟨rfl, trivial⟩) fun _ => trivial
  refine .bind (onGate_every (lock_every _)) fun _ => ?_
  refine .bind (onGate_every (load_every _)) fun first => ?_
  cases first with
  | false => exact hrefuse
  | true =>
    refine .bind (onGate_every (load_every _)) fun current => ?_
    split
    · exact hrefuse
    · refine .bind (fun _ _ _ => ⟨⟨rfl, rfl⟩, trivial⟩) fun _ => ?_
      exact .bind (onGate_every fun _ _ _ => ⟨rfl, trivial⟩) fun _ => trivial

theorem sendFragments_every (token : UInt64) (frame : PipeFrame) (peer : Peer)
    (packets : List Receiver.Bytes) : (sendFragments token frame peer packets).Every Aside := by
  induction packets with
  | nil => exact .bind (onGate_every (canSend_every token)) fun _ => trivial
  | cons packet packets ih =>
    refine .bind (sendIfAllowed_every _ _ _ _) fun sent => ?_
    cases sent with
    | false => trivial
    | true => exact ih

theorem sendVideoFrame_every (frame : PipeFrame) : (sendVideoFrame frame).Every Aside := by
  refine .bind (onGate_every capture_every) fun captured => ?_
  cases captured with
  | none => trivial
  | some token =>
    refine .bind (fun _ _ _ => ⟨⟨rfl, rfl⟩, trivial⟩) fun server => ?_
    split
    · trivial
    · dsimp only
      split
      · trivial
      · exact sendFragments_every _ _ _ _

theorem pipe_every (job : Job) : (spawn .pipe job).Every Aside := by
  cases job with
  | video frame => exact sendVideoFrame_every frame
  | _ => trivial

/-- Where a thread is between two jobs. -/
def AtRest (Learns : Learned → Prop) (random : Option UInt32) : Worker → List Job → HostPlane → Prop
  | .control, jobs => Sees (Stepwise Learns (ControlLoop.start random).server jobs)
  | .pipe, _ => fun _ => True

theorem spawn_meets (random : Option UInt32) (i : Worker) (jobs : List Job) (job : Job)
    (s : HostPlane) (hs : AtRest Learns random i jobs s) :
    (spawn i job).Meets (discipline Learns) i (fun _ => AtRest Learns random i (jobs ++ [job])) s := by
  cases i with
  | control => exact (job_sees job s trivial rfl).mono fun _ _ _ hstep => .step hs hstep
  | pipe =>
    refine Discipline.Outline.of_every (P := fun _ => True) (pipe_every job) .true ?_
      (fun _ _ _ _ => trivial) s trivial trivial
    intro t u _ haside
    refine ⟨trivial, fun j hj => ?_⟩
    cases j with
    | control => exact haside
    | pipe => exact absurd rfl hj

/-- Whatever the pipe thread does meanwhile, when the control thread has done its jobs the session
is one that the control loop reaches by doing these jobs, each in one step. -/
theorem session_in_steps (Learns : Learned → Prop) (random : Option UInt32)
    (jobs : List (Worker × Job)) (c : Config Worker HostPlane Learned)
    (hc : Config.ReachesBy spawn (fun _ _ _ => True) (fun i _ e => i = .control → Learns e)
      (.idle (start random)) jobs c)
    (hidle : c.threads .control = .ret ()) :
    Stepwise Learns (ControlLoop.start random).server (Config.given .control jobs) (seen c.state) := by
  have hfirst : (ControlLoop.start random).server = seen (start random) := by
    cases random <;> rfl
  have hstart (i : Worker) : AtRest Learns random i [] (start random) := by
    cases i with
    | control => exact (congrArg (Stepwise Learns _ []) hfirst).mp .refl
    | pipe => trivial
  have hkept := Config.ReachesBy.kept (D := discipline Learns) hc trivial (fun i => ?_) hstart
    fun i jobs job s _ hs => spawn_meets random i jobs job s hs
  · have hdone := hkept.2 .control
    rw [hidle] at hdone
    exact hdone c.state (Aside.refl _) trivial
  · cases i with
    | control => exact sees_stable _
    | pipe => exact .true

/-- What the generator and the connection give at every step. -/
def drawn : Learned := { random := some 7, answers := { random := List.replicate 16 1 } }

/-- A pairing. -/
def pairing : List (Move Worker Learned Job) :=
  .start .control (.frame ResumeWindow.pairJson ⟨1, 5000⟩) :: List.replicate 9 (.step .control drawn)

/-- The session is cleared between the token of a frame and its first datagram. -/
def clearWhileSending : List (Move Worker Learned Job) :=
  pairing ++ .start .pipe (.video ⟨0, 1, 0, [7]⟩) :: (List.replicate 5 (.step .pipe {}) ++
    .start .control .wifiNotAllowed :: (List.replicate 6 (.step .control drawn) ++
    List.replicate 3 (.step .pipe {})))

/-- The pairing and the end of the session show as the steps they are. -/
theorem session_in_steps_cleared :
    (∃ c : Config Worker HostPlane Learned, (seen c.state).paired = true ∧
      Stepwise (· = drawn) (ControlLoop.start (some 0)).server
        [.frame ResumeWindow.pairJson ⟨1, 5000⟩] (seen c.state)) ∧
    ∃ c : Config Worker HostPlane Learned,
      (seen c.state).paired = false ∧ (seen c.state).pairingCode = Receiver.ascii "100007" ∧
      Stepwise (· = drawn) (ControlLoop.start (some 0)).server
        [.frame ResumeWindow.pairJson ⟨1, 5000⟩, .wifiNotAllowed] (seen c.state) := by
  have hpairs : (Config.follow spawn (fun _ _ _ => True) (fun i _ e => i = .control → e = drawn)
      pairing (.idle (start (some 0)))).any (fun c => (seen c.state).paired = true ∧
        (c.threads .control).result = some ()) = true := by
    decide
  have hclears : (Config.follow spawn (fun _ _ _ => True) (fun i _ e => i = .control → e = drawn)
      clearWhileSending (.idle (start (some 0)))).any (fun c => (seen c.state).paired = false ∧
        (seen c.state).pairingCode = Receiver.ascii "100007" ∧
        (c.threads .control).result = some ()) = true := by
    decide
  have hjobs : Config.given .control (Config.performed spawn pairing (.idle (start (some 0)))) =
      [.frame ResumeWindow.pairJson ⟨1, 5000⟩] := by
    decide
  have hjobs' : Config.given .control
      (Config.performed spawn clearWhileSending (.idle (start (some 0)))) =
      [.frame ResumeWindow.pairJson ⟨1, 5000⟩, .wifiNotAllowed] := by
    decide
  obtain ⟨c, hc, hdone⟩ := (Option.any_eq_true _ _).mp hpairs
  obtain ⟨hpaired, hresult⟩ := of_decide_eq_true hdone
  obtain ⟨d, hd, hdone'⟩ := (Option.any_eq_true _ _).mp hclears
  obtain ⟨hunpaired, hcode, hresult'⟩ := of_decide_eq_true hdone'
  refine ⟨⟨c, hpaired, hjobs ▸ ?_⟩, d, hunpaired, hcode, hjobs' ▸ ?_⟩
  · exact session_in_steps _ (some 0) _ c (Config.ReachesBy.follow .refl _ hc)
      (Program.eq_ret_of_result hresult)
  · exact session_in_steps _ (some 0) _ d (Config.ReachesBy.follow .refl _ hd)
      (Program.eq_ret_of_result hresult')

end HarmonyScreen.Proofs.SessionSteps
