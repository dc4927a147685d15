import HarmonyScreen.Proofs.ProbeSections

namespace HarmonyScreen.Proofs.ProbeOthers
open Lib Program Receiver Mdns MdnsResponder MdnsEffects MdnsSections ProbeSections

variable {n : Nat} {i j : Fin n} {k : Nat} {l m : Lan n} {e : Outside} {datagram : MdnsDatagram}
  {x : Bool × Lan n} {G : Lan n → Lan n → Prop}

section Apart

theorem apart_orFail (h : Apart i l x.2) : Apart i l (orFail i x).2 := by
  unfold orFail
  split
  · exact h
  · dsimp only [failLocked]
    exact h.trans (apart_update _ _)

theorem apart_sendProbeLocked : Apart i l (sendProbeLocked i e l).2 := by
  have hsend := apart_send (i := i) l (buildAProbe (l.responders i).selectedInterface.address) e
  unfold sendProbeLocked
  dsimp only
  split
  · exact .refl i l
  · split
    · exact fun j hj => (hsend.trans (apart_update _ _)) j hj
    · exact hsend

theorem apart_conflict (wasPublished : Bool) : Apart i l (conflictLocked i wasPublished e l) := by
  cases wasPublished with
  | false =>
    rw [conflictLocked_false]
    exact apart_update l _
  | true =>
    rw [conflictLocked_true]
    exact (apart_sendGoodbyeLocked i l e).trans (apart_update _ _)

theorem apart_probing (h : ProbingOutcome i datagram e l x) : Apart i l x.2 := by
  cases h with
  | ignored more h => exact .refl i l
  | lost hd hk ha => exact fun j hj => apart_conflict (e := e) false j hj
  | taken hd ho hk => exact apart_conflict false
  | defended hd => exact apart_orFail apart_sendProbeLocked

theorem apart_answer (h : AnswerOutcome i e l x) : Apart i l x.2 := by
  cases h with
  | silent => exact .refl i l
  | counted more h =>
    dsimp only
    exact apart_update l _
  | answered hd => exact apart_orFail ((apart_update l _).trans (apart_send _ _ e))

theorem apart_published (h : PublishedOutcome i datagram e l x) : Apart i l x.2 := by
  cases h with
  | ignored more h => exact .refl i l
  | query h => exact apart_answer (answerQuery_outcome i datagram e l)
  | defended hd =>
    rw [sendAnnouncementLocked_eq]
    exact apart_orFail (apart_send l _ e)
  | conflict hd ho hk => exact apart_conflict true

theorem apart_probeLocked : Apart i l (probeLocked i e l).2 := by
  unfold probeLocked
  split
  · exact .refl i l
  · exact apart_orFail apart_sendProbeLocked

theorem apart_publishLocked : Apart i l (publishLocked i e l).2 := by
  have hsend : Apart i l (orFail i (sendAnnouncementLocked i e l)).2 := by
    rw [sendAnnouncementLocked_eq]
    exact apart_orFail (apart_send l _ e)
  unfold publishLocked
  split
  · exact .refl i l
  · dsimp only
    split
    · dsimp only
      exact hsend.trans (apart_update _ _)
    · exact hsend

theorem apart_handled (h : Apart i l m) : Apart i l (handled i m) := by
  unfold handled
  exact h.trans (apart_update _ _)

theorem apart_awaitLocked (milliseconds : Nat) : Apart i l (awaitLocked i milliseconds e l).2 := by
  unfold awaitLocked
  dsimp only
  exact apart_update l _

theorem apart_failLocked : Apart i l (failLocked i l) := by
  unfold failLocked
  exact apart_update l _

theorem apart_of_others (h : ∀ j, j ≠ i → m.responders j = l.responders j) : Apart i l m := by
  intro j hj
  rw [h j hj]
  exact .refl _

theorem apart_receiveLocked : Apart i l (receiveLocked i e l).2 := by
  refine apart_of_others fun j hj => ?_
  unfold receiveLocked
  cases e.received with
  | timeout | error | foreign datagram => simp [hj]
  | next =>
    dsimp only
    split <;> simp [hj]

end Apart

/-- What the sections of the worker's loops do when they handle nothing. -/
structure Turning (i : Fin n) (G : Lan n → Lan n → Prop) : Prop where
  read : ∀ l, G l l
  await : ∀ milliseconds e l, G l (awaitLocked i milliseconds e l).2
  receive : ∀ e l, G l (receiveLocked i e l).2
  fail : ∀ l, G l (failLocked i l)

namespace Turning

theorem every_load (h : Turning i G) (read : MdnsResponder n → α) : (load i read).Every G :=
  (every_critical _).mpr fun l _ => h.read l

theorem every_now (h : Turning i G) : (nowMilliseconds : Session n Nat).Every G :=
  (every_critical _).mpr fun l _ => h.read l

theorem every_receive (h : Turning i G) (milliseconds : Nat) :
    (MdnsResponder.receive i milliseconds).Every G :=
  ((every_critical _).mpr fun l e => h.await milliseconds e l).bind fun _ =>
    (every_critical _).mpr fun l e => h.receive e l

theorem every_receiveFailed (h : Turning i G) : (receiveFailed i).Every G := by
  refine (every_critical _).mpr fun l _ => ?_
  dsimp only
  split
  · exact h.fail l
  · exact h.read l

theorem every_hang : (hang : Session n Unit).Every G := fun _ _ h => by cases h

theorem every_observeFor (h : Turning i G)
    (handle : ∀ datagram e l, G l (handleProbingDatagram i datagram e l).2)
    (deadline turns : Nat) : (observeFor i deadline turns).Every G := by
  induction turns with
  | zero => exact every_hang.bind fun _ => trivial
  | succ turns ih =>
    refine (h.every_load _).bind fun desired => ?_
    cases desired with
    | false => trivial
    | true =>
      refine h.every_now.bind fun now => ?_
      split
      · trivial
      · refine (h.every_receive _).bind fun result => (h.every_load _).bind fun desired => ?_
        cases desired with
        | false => trivial
        | true =>
          cases result with
          | timeout => exact ih
          | error => exact h.every_receiveFailed.bind fun _ => trivial
          | packet datagram =>
            refine Every.bind ((every_critical _).mpr fun l e => handle datagram e l) fun more => ?_
            cases more with
            | false => trivial
            | true => exact ih

theorem every_publishedLoop (h : Turning i G)
    (handle : ∀ datagram e l, G l (handlePublishedDatagram i datagram e l).2)
    (turns : Nat) : (publishedLoop i turns).Every G := by
  induction turns with
  | zero => exact every_hang
  | succ turns ih =>
    refine (h.every_load _).bind fun desired => ?_
    cases desired with
    | false => trivial
    | true =>
      refine (h.every_receive _).bind fun result => (h.every_load _).bind fun desired => ?_
      cases desired with
      | false => trivial
      | true =>
        cases result with
        | timeout => exact ih
        | error => exact h.every_receiveFailed
        | packet datagram =>
          refine Every.bind ((every_critical _).mpr fun l e => handle datagram e l) fun more => ?_
          cases more with
          | false => trivial
          | true => exact ih

end Turning

section Worker
variable (i)

theorem apart_turning : Turning i (Apart i) :=
  ⟨.refl i, fun milliseconds _ _ => apart_awaitLocked milliseconds, fun _ _ => apart_receiveLocked,
    fun _ => apart_failLocked⟩

theorem apart_observe (milliseconds turns : Nat) :
    (observe i milliseconds turns).Every (Apart i) :=
  (apart_turning i).every_now.bind fun _ => (apart_turning i).every_observeFor
    (fun datagram e l => apart_handled (apart_probing (probingDatagram_outcome i datagram e l))) _ _

theorem apart_publish (turns : Nat) : (publish i turns).Every (Apart i) := by
  refine Every.bind ((every_critical _).mpr fun _ _ => apart_publishLocked) fun published => ?_
  cases published with
  | false => trivial
  | true =>
    exact (apart_turning i).every_publishedLoop (fun datagram e l =>
      apart_handled (apart_published (publishedDatagram_outcome i datagram e l))) turns

theorem apart_probeLoop (turns probes : Nat) : (probeLoop i turns probes).Every (Apart i) := by
  induction probes with
  | zero => exact apart_publish i turns
  | succ probes ih =>
    refine ((apart_turning i).every_load _).bind fun desired => ?_
    cases desired with
    | false => exact apart_publish i turns
    | true =>
      refine Every.bind ((every_critical _).mpr fun _ _ => apart_probeLocked) fun sent => ?_
      cases sent with
      | false => trivial
      | true =>
        refine (apart_observe i _ turns).bind fun observed => ?_
        cases observed with
        | false => trivial
        | true => exact ih

/-- A worker changes the others only by what is delivered to them. -/
theorem apart_worker (turns : Nat) : (worker i turns).Every (Apart i) := by
  refine Every.bind ?_ fun _ => (every_critical _).mpr fun l _ => by
    dsimp only
    exact apart_update l _
  refine Every.bind ((every_critical _).mpr fun l _ => .refl i l) fun delay => ?_
  refine (apart_observe i delay turns).bind fun observed => ?_
  cases observed with
  | false => trivial
  | true => exact apart_probeLoop i turns kProbeCount

end Worker

section Callers

/-- What the sections of a call do. -/
structure Calling (i : Fin n) (G : Lan n → Lan n → Prop) : Prop where
  update : ∀ l f, (∀ r, Silent r (f r)) → G l (l.update i f)
  stop : ∀ k e l, G l (stopLocked i k e l).2
  start : ∀ selected e l, G l (startLocked i selected e l).2

namespace Calling

/-- A section that waits and then changes the responder. -/
theorem every_atomic (h : Calling i G) {ready : Lan n → Bool}
    {f : MdnsResponder n → MdnsResponder n} (hf : ∀ r, Silent r (f r)) :
    (Program.atomic ready (fun _ l => l.update i f) (fun _ _ => .ret ()) : Session n Unit).Every G :=
  fun l _ _ => ⟨h.update l f hf, trivial⟩

theorem every_update (h : Calling i G) {f : MdnsResponder n → MdnsResponder n}
    (hf : ∀ r, Silent r (f r)) :
    (Program.critical fun _ l => ((), l.update i f) : Session n Unit).Every G :=
  (every_critical _).mpr fun l _ => h.update l f hf

theorem every_stopBody (h : Calling i G) (k : Nat) : (stopBody i k).Every G := by
  refine Every.bind ((every_critical _).mpr fun l e => h.stop k e l) fun joins => ?_
  have hset : (setStopped i).Every G :=
    h.every_update fun _ => silent_state (by decide)
  cases joins with
  | false => exact hset
  | true => exact Every.bind (p := join i) (h.every_atomic fun _ => ⟨rfl, id, id⟩) fun _ => hset

theorem every_stop (h : Calling i G) (k : Nat) : (MdnsResponder.stop i k).Every G :=
  Every.bind (p := beginStop i k) (h.every_atomic fun _ => ⟨rfl, id, id⟩) fun _ =>
    (h.every_stopBody k).bind fun _ => h.every_update fun _ => ⟨rfl, id, id⟩

theorem every_startBody (h : Calling i G) (addressText : Bytes) (interfaceIndex : Nat) :
    (startBody i addressText interfaceIndex).Every G := by
  unfold startBody
  cases startArguments addressText interfaceIndex with
  | none => exact (h.every_update fun _ => silent_state (by decide)).bind fun _ => trivial
  | some selected => exact (every_critical _).mpr fun l e => h.start selected e l

theorem every_start (h : Calling i G) (k : Nat) (addressText : Bytes) (interfaceIndex : Nat) :
    (MdnsResponder.start i k addressText interfaceIndex).Every G :=
  Every.bind (p := beginStart i k) (h.every_atomic fun _ => ⟨rfl, id, id⟩) fun _ =>
    (h.every_stopBody k).bind fun _ => (h.every_startBody addressText interfaceIndex).bind fun _ =>
      h.every_update fun _ => ⟨rfl, id, id⟩

end Calling

theorem apart_calling (i : Fin n) : Calling i (Apart i) where
  update l f _ := apart_update l f
  stop k e l := by
    unfold stopLocked
    dsimp only
    split
    · exact (apart_sendGoodbyeLocked i l e).trans (apart_update _ _)
    · exact apart_update l _
  start selected e l := by
    unfold startLocked
    split
    · dsimp only
      exact apart_update l _
    · split
      · dsimp only
        exact apart_update l _
      · dsimp only
        exact apart_update l _

end Callers

/-- What the other threads do to a responder: they do not announce its name, and a
worker is launched before it is. -/
structure Leaves (i : Fin n) (l m : Lan n) : Prop where
  silent : Announced (m.responders i) → Announced (l.responders i)
  launch : (l.responders i).workerLives = false → (m.responders i).workerLives = true →
    ¬ Announced (m.responders i)

theorem Leaves.of_silent (h : Silent (l.responders i) (m.responders i)) : Leaves i l m :=
  ⟨h.silent, fun hl hm => still (h.lives ▸ hm) hl⟩

theorem Leaves.refl (i : Fin n) (l : Lan n) : Leaves i l l := .of_silent (.refl _)

theorem Leaves.trans {m' : Lan n} (h : Leaves i l m) (h' : Leaves i m m') : Leaves i l m' where
  silent ha := h.silent (h'.silent ha)
  launch hl hm' ha := by
    by_cases hm : (m.responders i).workerLives = true
    · exact h.launch hl hm (h'.silent ha)
    · exact h'.launch (by simpa using hm) hm' ha

theorem Leaves.of_apart (hij : i ≠ j) (h : Apart j l m) : Leaves i l m :=
  .of_silent (.beside (h i hij))

theorem not_announced_launch (selected : MdnsInterface) (r : MdnsResponder n) :
    ¬ Announced (launch selected r) := by
  rintro (h | ⟨_, h⟩) <;> cases h

theorem leaves_calling (i : Fin n) : Calling i (Leaves i) where
  update l f hf := .of_silent (by rw [Lan.update_same]; exact hf _)
  stop k e l := by
    refine .of_silent ?_
    unfold stopLocked
    dsimp only
    rw [Lan.update_same]
    split
    · exact silent_sendGoodbyeLocked.trans ⟨rfl, fun hd => (by cases hd), id⟩
    · exact ⟨rfl, fun hd => (by cases hd), id⟩
  start selected e l := by
    have hfailed : ∀ {r : MdnsResponder n}, r.workerLives = (l.responders i).workerLives →
        r.desired = (l.responders i).desired → r.state = .error →
        r.handed = (l.responders i).handed → Silent (l.responders i) r :=
      fun hl hd hs hh => ⟨hl, fun h => hd ▸ h, fun ha => .inr (hh ▸ ha.resolve_left (by simp [hs]))⟩
    unfold startLocked
    split
    · refine .of_silent ?_
      rw [Lan.update_same]
      exact hfailed rfl rfl rfl rfl
    · split
      · refine .of_silent ?_
        rw [Lan.update_same]
        exact hfailed rfl rfl rfl rfl
      · have hnew : ¬ Announced ((l.update i (launch selected)).responders i) := by
          rw [Lan.update_same]
          exact not_announced_launch selected _
        exact ⟨fun ha => absurd ha hnew, fun _ _ => hnew⟩

/-- No thread but its worker announces the name of a responder. -/
theorem leaves_others (i : Fin n) (u : LanThread n) (job : LanJob) (hu : u ≠ .worker i) :
    (Lan.spawn u job).Every (Leaves i) := by
  cases u with
  | clock =>
    cases job with
    | tick => exact fun l _ _ => ⟨.of_silent (.refl _), trivial⟩
    | _ => trivial
  | worker j =>
    have hij : i ≠ j := fun h => hu (h ▸ rfl)
    cases job with
    | run turns => exact (apart_worker j turns).mono fun l m h => .of_apart hij h
    | _ => trivial
  | caller j k =>
    have hcalling : Calling j (Leaves i) := by
      by_cases hij : i = j
      · subst hij
        exact leaves_calling i
      · have h := apart_calling j
        exact ⟨fun l f hf => .of_apart hij (h.update l f hf), fun k e l => .of_apart hij (h.stop k e l),
          fun selected e l => .of_apart hij (h.start selected e l)⟩
    cases job with
    | start addressText interfaceIndex => exact hcalling.every_start k addressText interfaceIndex
    | stop => exact hcalling.every_stop k
    | _ => trivial

end HarmonyScreen.Proofs.ProbeOthers
