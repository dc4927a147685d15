import HarmonyScreen.Host.HostServer

namespace HarmonyScreen.Proofs.ResumeWindow
open Receiver Host ControlLoop

variable {c : ControlLoop} {client : HostClient} {s : HostServer} {now : Nat} {event : Event}

/-- Nobody is served, or a connection that has not sent its first frame. -/
def Waiting (c : ControlLoop) : Prop :=
  ∀ client, c.client = some client → client.authenticated = false ∧ client.returned = false

/-- Every resume came less than five seconds after the last authenticated connection of its
session had ended. -/
def ResumedInTime (log : List SessionEvent) : Prop :=
  ∀ before now after, log = before ++ .resumed now :: after →
    ∃ ended, lastEnded before = some ended ∧ now < ended + seconds 5

/-- A connection that is not authenticated ends only when no session is paired, and while one
is paired nobody is accepted or received from, behind the deadline, who has not sent a frame.
A frame may come at any time. -/
def Timely (now : Nat) (event : Event) (c : ControlLoop) : Prop :=
  match event with
  | .accept _ | .receive _ | .receiveTimeout =>
    Waiting c → c.server.paired = true → now < c.server.resumeDeadline
  | .disconnect =>
    (∀ client, c.client = some client → client.authenticated = false) → c.server.paired = false
  | .round _ | .wifiNotAllowed _ | .closed | .frame _ => True

structure Window (c : ControlLoop) : Prop where
  resumed : ResumedInTime c.log
  deadline : Waiting c → c.server.paired = true → c.server.resumePending = true ∧
    ∃ ended, lastEnded c.log = some ended ∧ c.server.resumeDeadline = ended + seconds 5
  served : Waiting c → c.client ≠ none → c.server.paired = true → c.now < c.server.resumeDeadline

@[simp] theorem lastEnded_ended (log : List SessionEvent) (now : Nat)
    (authenticated : Bool) : lastEnded (log ++ [.ended now authenticated]) =
      if authenticated then some now else lastEnded log := by
  simp [lastEnded]

@[simp] theorem lastEnded_resumed (log : List SessionEvent) (now : Nat) :
    lastEnded (log ++ [.resumed now]) = lastEnded log := by
  simp [lastEnded]

theorem ResumedInTime.append {log : List SessionEvent} {event : SessionEvent}
    (h : ResumedInTime log) (hevent : ∀ now, event = .resumed now →
      ∃ ended, lastEnded log = some ended ∧ now < ended + seconds 5) :
    ResumedInTime (log ++ [event]) := by
  intro before now after hlog
  rcases List.append_eq_append_iff.mp hlog with ⟨behind, rfl, hbehind⟩ | ⟨behind, rfl, hbehind⟩
  · cases behind with
    | nil =>
      obtain ⟨rfl, -⟩ : event = .resumed now ∧ after = [] := by simpa using hbehind
      simpa using hevent now rfl
    | cons first behind => simp at hbehind
  · cases behind with
    | nil =>
      obtain ⟨rfl, -⟩ : .resumed now = event ∧ after = [] := by simpa using hbehind
      simpa using hevent now rfl
    | cons first behind =>
      obtain ⟨rfl, -⟩ : .resumed now = first ∧ after = behind ++ [event] := by simpa using hbehind
      exact h before now behind rfl

theorem rotatePairingCode_paired (random : Option UInt32) (h : s.paired = false) :
    (s.rotatePairingCode random).paired = false := by
  cases random with
  | none => exact h
  | some value => rfl

theorem clearSession_paired (random : Option UInt32) (s : HostServer) :
    (s.clearSession random).paired = false :=
  rotatePairingCode_paired random rfl

theorem expireResumeWindow_cases (now : Nat) (random : Option UInt32) (s : HostServer) :
    s.expireResumeWindow now random = s ∨ (s.expireResumeWindow now random).paired = false := by
  unfold HostServer.expireResumeWindow
  split
  · exact .inr (clearSession_paired random s)
  · exact .inl rfl

/-- The first frame of a connection decides on it. -/
def Decided (client : HostClient) : Prop := client.authenticated = true ∨ client.returned = true

theorem Decided.not_waiting (h : Decided client) {c : ControlLoop} (hclient : c.client = some client) :
    ¬ Waiting c := by
  intro hwaiting
  obtain ⟨hauthenticated, hreturned⟩ := hwaiting client hclient
  rcases h with h | h
  · cases hauthenticated.symm.trans h
  · cases hreturned.symm.trans h

/-- What the first frame of a connection can do. -/
inductive Authenticated (now : Nat) (s : HostServer) :
    HostClient × HostServer × List SessionEvent → Prop where
  | rejected (client' : HostClient) (s' : HostServer) (h : Decided client') :
      Authenticated now s (client', s', [])
  | resumed (client' : HostClient) (s' : HostServer) (hpaired : s.paired = true)
      (hnow : now < s.resumeDeadline) (h : Decided client') :
      Authenticated now s (client', s', [.resumed now])
  | paired (client' : HostClient) (s' : HostServer) (h : Decided client') :
      Authenticated now s (client', s', [.paired])

theorem authenticate_cases (json : Bytes) (now : Nat) (answers : FrameAnswers) (client : HostClient)
    (s : HostServer) : Authenticated now s (authenticate json now answers client s) := by
  unfold authenticate
  dsimp only
  split
  · exact .rejected _ s (.inr rfl)
  · split
    · rename_i hresume
      obtain ⟨-, -, hpaired, -, hnow, -⟩ := hresume
      split
      · exact .resumed _ _ hpaired hnow (.inr rfl)
      · exact .resumed _ _ hpaired hnow (.inl rfl)
    · split
      · exact .rejected _ _ (.inr rfl)
      · split
        · exact .paired _ _ (.inr rfl)
        · exact .paired _ _ (.inl rfl)

/-- At the head of its loop `HandleClient` leaves the session alone or clears it. -/
theorem serve_cases {client' : HostClient} {s' : HostServer}
    (h : serve now event client s = some (client', s')) :
    client'.authenticated = client.authenticated ∧ (s' = s ∨ s'.paired = false) ∧
      (client'.returned = false → s'.paired = true → Timely now event c → Waiting c →
        c.server.paired = true → now < c.server.resumeDeadline) := by
  unfold serve at h
  cases event with
  | wifiNotAllowed random =>
    cases h
    exact ⟨rfl, .inr (clearSession_paired random s), nofun⟩
  | receive bytes =>
    dsimp only at h
    split at h
    · cases h
      exact ⟨rfl, .inl rfl, fun _ _ htimely => htimely⟩
    · cases h
      exact ⟨rfl, .inl rfl, fun _ _ htimely => htimely⟩
  | receiveTimeout =>
    dsimp only at h
    split at h
    · cases h
      exact ⟨rfl, .inl rfl, fun _ _ htimely => htimely⟩
    · cases h
      exact ⟨rfl, .inl rfl, fun _ _ htimely => htimely⟩
  | closed =>
    cases h
    exact ⟨rfl, .inl rfl, nofun⟩
  | _ => cases h

theorem waiting_of_none (h : c.client = none) : Waiting c := by
  intro client hsome
  cases h.symm.trans hsome

theorem Window.round (h : Window c) (hclient : c.client = none) (now : Nat)
    (random : Option UInt32) : Window { c with
      server := c.server.expireResumeWindow now random, now := now } := by
  refine ⟨h.resumed, fun hwaiting hpaired => ?_, fun _ hsome => absurd hclient hsome⟩
  rcases expireResumeWindow_cases now random c.server with hs | hs
  · dsimp only at hpaired ⊢
    rw [hs] at hpaired ⊢
    exact h.deadline hwaiting hpaired
  · dsimp only at hpaired
    rw [hs] at hpaired
    cases hpaired

theorem Window.accept (h : Window c) (hclient : c.client = none) (peer : Peer)
    (htimely : Timely now (.accept peer) c) :
    Window { c with client := some { peer := peer, lastMessage := now }, now := now } :=
  have hwaiting := waiting_of_none hclient
  ⟨h.resumed, fun _ => h.deadline hwaiting, fun _ _ => htimely hwaiting⟩

theorem Window.disconnect (h : Window c) (hclient : c.client = some client)
    (htimely : Timely now .disconnect c) : Window {
      server := c.server.markDisconnected now, client := none, now := now
      log := c.log ++ [.ended now client.authenticated] } := by
  refine ⟨h.resumed.append nofun, fun _ hpaired => ?_, fun _ hsome => absurd rfl hsome⟩
  dsimp only at hpaired ⊢
  unfold HostServer.markDisconnected at hpaired ⊢
  cases hwas : c.server.paired with
  | false =>
    rw [hwas] at hpaired
    simp [hwas] at hpaired
  | true =>
    have hauthenticated : client.authenticated = true := by
      by_contra hnot
      have hunpaired : c.server.paired = false := by
        apply htimely
        intro other hother
        obtain rfl := Option.some.inj (hclient.symm.trans hother)
        simpa using hnot
      cases hunpaired.symm.trans hwas
    rw [if_pos rfl, lastEnded_ended, hauthenticated]
    exact ⟨rfl, now, rfl, rfl⟩

theorem Window.loopHead (h : Window c) (hclient : c.client = some client)
    (hreturned : client.returned = false) (htimely : Timely now event c)
    {client' : HostClient} {s' : HostServer}
    (hserve : serve now event client c.server = some (client', s')) :
    Window { c with server := s', client := some client', now := now } := by
  obtain ⟨hauthenticated, hserver, hbefore⟩ := serve_cases (c := c) hserve
  have hwaiting (hnot : client'.authenticated = false) : Waiting c := by
    intro other hother
    obtain rfl := Option.some.inj (hclient.symm.trans hother)
    exact ⟨hauthenticated ▸ hnot, hreturned⟩
  refine ⟨h.resumed, fun hafter hpaired => ?_, fun hafter _ hpaired => ?_⟩
  · rcases hserver with rfl | hserver
    · exact h.deadline (hwaiting (hafter _ rfl).1) hpaired
    · cases hserver.symm.trans hpaired
  · rcases hserver with rfl | hserver
    · exact hbefore (hafter _ rfl).2 hpaired htimely (hwaiting (hafter _ rfl).1) hpaired
    · cases hserver.symm.trans hpaired

/-- Once the connection is decided on, only the log counts. -/
theorem Window.decided {c : ControlLoop} (hclient : c.client = some client) (h : Decided client)
    (hresumed : ResumedInTime c.log) : Window c :=
  ⟨hresumed, fun hwaiting => absurd hwaiting (h.not_waiting hclient),
    fun hwaiting => absurd hwaiting (h.not_waiting hclient)⟩

/-- The first frame of a connection, whenever it comes. -/
theorem Window.authenticate (h : Window c) (hwaiting : Waiting c)
    {r : HostClient × HostServer × List SessionEvent} (hr : Authenticated now c.server r) :
    Window { server := r.2.1, client := some r.1, now := now, log := c.log ++ r.2.2 } := by
  cases hr with
  | rejected client' s' hdecided =>
    refine .decided rfl hdecided ?_
    dsimp only
    rw [List.append_nil]
    exact h.resumed
  | resumed client' s' hpaired hnow hdecided =>
    refine .decided rfl hdecided (h.resumed.append fun other hother => ?_)
    obtain rfl := SessionEvent.resumed.inj hother
    obtain ⟨-, ended, hended, hdeadline⟩ := h.deadline hwaiting hpaired
    rw [hdeadline] at hnow
    exact ⟨ended, hended, hnow⟩
  | paired client' s' hdecided => exact .decided rfl hdecided (h.resumed.append nofun)

/-- The step lemma. -/
theorem Window.step (h : Window c) (htimely : Timely now event c) :
    Window (c.step now event) := by
  unfold ControlLoop.step
  cases hclient : c.client with
  | none =>
    cases event with
    | round random =>
      have hround := h.round hclient now random
      rwa [hclient] at hround
    | accept peer => exact h.accept hclient peer htimely
    | _ => exact h
  | some client =>
    dsimp only
    split
    · split
      · rename_i hevent
        subst hevent
        exact h.disconnect hclient htimely
      · exact h
    · rename_i hnot
      have hreturned : client.returned = false := by simpa using hnot
      split
      · split
        · rename_i client' server hserve
          exact h.loopHead hclient hreturned htimely hserve
        · exact h
      · rename_i json frames answers hframes
        unfold handleFrame
        split
        · rename_i hnotYet
          have hwaiting : Waiting c := by
            intro other hother
            obtain rfl := Option.some.inj (hclient.symm.trans hother)
            exact ⟨by simpa using hnotYet, hreturned⟩
          exact h.authenticate hwaiting (authenticate_cases json now answers _ c.server)
        · rename_i hyet
          have hauthenticated : client.authenticated = true := by simpa using hyet
          refine .decided rfl (.inl hauthenticated) ?_
          dsimp only
          rw [List.append_nil]
          exact h.resumed
      · exact h

instance (c : ControlLoop) : Decidable (Waiting c) :=
  decidable_of_iff (c.client.all fun client => !client.authenticated && !client.returned) (by
    cases hclient : c.client <;> simp [Waiting, hclient])

instance (c : ControlLoop) :
    Decidable (∀ client, c.client = some client → client.authenticated = false) :=
  decidable_of_iff (c.client.all fun client => !client.authenticated) (by
    cases hclient : c.client <;> simp)

instance (now : Nat) (event : Event) (c : ControlLoop) : Decidable (Timely now event c) :=
  match event with
  | .accept _ | .receive _ | .receiveTimeout =>
    inferInstanceAs
      (Decidable (Waiting c → c.server.paired = true → now < c.server.resumeDeadline))
  | .disconnect =>
    inferInstanceAs (Decidable ((∀ client, c.client = some client → client.authenticated = false) →
      c.server.paired = false))
  | .round _ | .wifiNotAllowed _ | .closed | .frame _ => inferInstanceAs (Decidable True)

/-- Follows a list of events; `none` when one of them comes too early or is not allowed. -/
def follow (ok : Nat → Event → ControlLoop → Prop) [∀ now event c, Decidable (ok now event c)] :
    List (Nat × Event) → ControlLoop → Option ControlLoop
  | [], c => some c
  | (now, event) :: events, c =>
    if c.now ≤ now ∧ ok now event c then follow ok events (c.step now event) else none

def pairJson : Bytes :=
  ascii "\x7b\"type\":\"pair\",\"protocol\":1,\"pairingCode\":\"100000\"," ++
    ascii "\"videoPort\":47101\x7d"

/-- A connection that pairs in the first second and is closed. -/
def pairing : List (Nat × Event) :=
  [(0, .round none), (0, .accept ⟨1, 5000⟩), (0, .receive (encodeControlFrame pairJson)),
    (0, .frame { random := List.replicate 16 1 }), (seconds 1, .closed), (seconds 1, .disconnect)]

end HarmonyScreen.Proofs.ResumeWindow
