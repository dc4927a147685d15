import HarmonyScreen.Proofs.MdnsSections

namespace HarmonyScreen.Proofs.MdnsWorker
open Lib Program Receiver Mdns MdnsResponder MdnsEffects MdnsPackets MdnsOwner MdnsSections

variable {n : Nat} {S : Option (Segment n)} {i j : Fin n} {k : Nat} {l m : Lan n}
  {r s t : MdnsResponder n} {e : Outside} {datagram : MdnsDatagram}

/-- No time has passed since the socket was closed. -/
def Fresh (i : Fin n) (l : Lan n) : Prop :=
  (l.responders i).desired = false → l.clock ≤ (l.responders i).closedAt

/-- What the worker relies on while it lives. -/
structure WorkerRely (i : Fin n) (l m : Lan n) : Prop where
  lives : (m.responders i).workerLives = true
  probed : (m.responders i).probed = (l.responders i).probed
  probedAt : (m.responders i).probedAt = (l.responders i).probedAt
  handling : (m.responders i).handling = (l.responders i).handling
  waiting : (m.responders i).waiting = (l.responders i).waiting
  wanted : (m.responders i).desired = true →
    (l.responders i).desired = true ∧ (m.responders i).state = (l.responders i).state
  clock : l.clock ≤ m.clock
  fresh : (l.responders i).waiting = none → Fresh i l → Fresh i m

/-- The worker has nothing in hand. -/
structure Ready (i : Fin n) (l : Lan n) : Prop where
  lives : (l.responders i).workerLives = true
  handling : (l.responders i).handling = none
  waiting : (l.responders i).waiting = none

/-- A worker that was launched and has not begun. -/
def Launched (i : Fin n) (l : Lan n) : Prop :=
  Ready i l ∧ ((l.responders i).desired = true → (l.responders i).state = .probing)

/-- A stop has closed the responder and not yet set its state. -/
def Stopping (r : MdnsResponder n) : Prop := r.desired = false ∧ r.state = .published

/-- What a caller relies on while it is inside `Start` or `Stop`. -/
structure CallerRely (k : Nat) (r s : MdnsResponder n) : Prop where
  starting : s.starting = r.starting
  alone : r.starting = true → s.calls = r.calls
  unwanted : r.desired = false → s.desired = false
  stopping : r.starting = true ∨ r.desired = false → Stopping s → Stopping r
  ended : s.workerLives = true → r.workerLives = true
  mine : s.handle = .movedTo k ↔ r.handle = .movedTo k
  member : s.handle = .member → r.handle = .member

/-- What the threads rely on. -/
def relies : LanThread n → Lan n → Lan n → Prop
  | .clock, _, _ => True
  | .worker i, l, m => ((l.responders i).workerLives = true → WorkerRely i l m) ∧
    ((l.responders i).workerLives = false → (m.responders i).workerLives = true → Launched i m)
  | .caller i k, l, m => (k ∈ (m.responders i).calls ↔ k ∈ (l.responders i).calls) ∧
    (k ∈ (l.responders i).calls → CallerRely k (l.responders i) (m.responders i))

theorem WorkerRely.refl (h : (l.responders i).workerLives = true) : WorkerRely i l l :=
  ⟨h, rfl, rfl, rfl, rfl, fun h => ⟨h, rfl⟩, Nat.le_refl _, fun _ h => h⟩

theorem WorkerRely.trans {m' : Lan n} (h : WorkerRely i l m) (h' : WorkerRely i m m') :
    WorkerRely i l m' where
  lives := h'.lives
  probed := h'.probed.trans h.probed
  probedAt := h'.probedAt.trans h.probedAt
  handling := h'.handling.trans h.handling
  waiting := h'.waiting.trans h.waiting
  wanted hd :=
    have hm := h'.wanted hd
    ⟨(h.wanted hm.1).1, hm.2.trans (h.wanted hm.1).2⟩
  clock := Nat.le_trans h.clock h'.clock
  fresh hw hf := h'.fresh (h.waiting.trans hw) (h.fresh hw hf)

theorem Launched.later (h : Launched i l) (hr : WorkerRely i l m) : Launched i m := by
  refine ⟨⟨hr.lives, hr.handling.trans h.1.handling, hr.waiting.trans h.1.waiting⟩, fun hd => ?_⟩
  obtain ⟨hd', hs⟩ := hr.wanted hd
  rw [hs]
  exact h.2 hd'

theorem CallerRely.refl (k : Nat) (r : MdnsResponder n) : CallerRely k r r :=
  ⟨rfl, fun _ => rfl, id, fun _ => id, id, Iff.rfl, id⟩

theorem CallerRely.trans (h : CallerRely k r s) (h' : CallerRely k s t) : CallerRely k r t where
  starting := h'.starting.trans h.starting
  alone hs := (h'.alone (h.starting.trans hs)).trans (h.alone hs)
  unwanted hd := h'.unwanted (h.unwanted hd)
  stopping hs ht := h.stopping hs (h'.stopping (hs.imp h.starting.trans h.unwanted) ht)
  ended ht := h.ended (h'.ended ht)
  mine := h'.mine.trans h.mine
  member ht := h.member (h'.member ht)

theorem relies_refl (u : LanThread n) (l : Lan n) : relies u l l := by
  cases u with
  | clock => trivial
  | worker i =>
    exact ⟨.refl, fun h h' => still h' h⟩
  | caller i k => exact ⟨Iff.rfl, fun _ => .refl _ _⟩

theorem relies_trans {m' : Lan n} (u : LanThread n) (h : relies u l m) (h' : relies u m m') :
    relies u l m' := by
  cases u with
  | clock => trivial
  | worker i =>
    refine ⟨fun hl => (h.1 hl).trans (h'.1 (h.1 hl).lives), fun hl hm' => ?_⟩
    by_cases hm : (m.responders i).workerLives = true
    · exact (h.2 hl hm).later (h'.1 hm)
    · exact h'.2 (by simpa using hm) hm'
  | caller i k =>
    exact ⟨h'.1.trans h.1, fun hk => (h.2 hk).trans (h'.2 (h.1.mpr hk))⟩

/-- What holds between any two sections: every responder is sound, and on an
interface the invariant of the name. -/
structure Invariant (S : Option (Segment n)) (l : Lan n) : Prop where
  sound : ∀ j, Sound (l.responders j)
  owner : ∀ G ∈ S, Owner G l

/-- On an interface the time is the one clock's, and what others send are queries. -/
def Offered (S : Option (Segment n)) (l : Lan n) (e : Outside) : Prop :=
  ∀ G ∈ S, e.now = l.clock ∧ ∀ datagram, e.received = .foreign datagram →
    classifyMessage datagram.bytes = .query ∨ classifyMessage datagram.bytes = .invalid

/-- The discipline of the threads; without an interface anything may be learned. -/
def discipline (S : Option (Segment n)) : Discipline (LanThread n) (Lan n) Outside where
  invariant := Invariant S
  offers _ := Offered S
  rely := relies
  guarantee u l m := ∀ v, v ≠ u → relies v l m
  refl := relies_refl
  trans u := relies_trans u
  compatible hne _ hg := hg _ (Ne.symm hne)

section Guarantee

theorem Beside.relies_worker (h : Beside (l.responders j) (m.responders j))
    (hc : m.clock = l.clock) : relies (.worker j) l m := by
  obtain ⟨more, hm⟩ := h
  refine ⟨fun hl => ?_, fun hl hl' => ?_⟩
  · refine ⟨?_, ?_, ?_, ?_, ?_, ?_, Nat.le_of_eq hc.symm, fun _ hf => ?_⟩ <;>
      (try rw [Fresh, hc]) <;> rw [hm]
    · exact hl
    · exact fun hd => ⟨hd, rfl⟩
    · exact hf
  · rw [hm] at hl'
    exact still hl' hl

theorem Beside.relies_caller (h : Beside (l.responders j) (m.responders j)) (k : Nat) :
    relies (.caller j k) l m := by
  obtain ⟨more, hm⟩ := h
  refine ⟨by rw [hm], fun _ => ?_⟩
  rw [hm]
  exact ⟨rfl, fun _ => rfl, id, fun _ => id, id, Iff.rfl, id⟩

theorem WorkerEffect.callerRely (h : WorkerEffect r s) (k : Nat) : CallerRely k r s where
  starting := h.starting
  alone _ := h.calls
  unwanted hd := (h.idle hd).1
  stopping _ hs := by
    by_cases hd : r.desired = true
    · exact absurd hs.2 (h.closes hd hs.1)
    · rw [Bool.not_eq_true] at hd
      exact ⟨hd, (h.idle hd).2 ▸ hs.2⟩
  ended := h.lives
  mine := by rw [h.handle]
  member hm := h.handle ▸ hm

/-- What a section of the worker guarantees. -/
theorem WorkerStep.guarantee (h : WorkerStep i l m) :
    (discipline S).guarantee (.worker i) l m := by
  intro v hv
  cases v with
  | clock => trivial
  | worker j => exact Beside.relies_worker (h.apart j fun hj => hv (hj ▸ rfl)) h.clock
  | caller j k =>
    by_cases hj : j = i
    · subst hj
      exact ⟨by rw [h.own.calls], fun _ => WorkerEffect.callerRely h.own k⟩
    · exact Beside.relies_caller (h.apart j hj) k

theorem WorkerStep.sound (h : WorkerStep i l m) (hl : ∀ j, Sound (l.responders j)) :
    ∀ j, Sound (m.responders j) := by
  intro j
  by_cases hj : j = i
  · subst hj
    exact h.own.sound (hl j)
  · exact (hl j).beside (h.apart j hj)

end Guarantee

/-- How far a worker is: the state of a responder that is still wanted, and by when
its first probe was out. -/
structure Phase where
  state : MdnsPublisherState
  elapsed : Option Nat := none
  time : Option Nat := none

/-- The assertion of a phase; the times count on an interface only. -/
def Phase.Holds (S : Option (Segment n)) (i : Fin n) (φ : Phase) (l : Lan n) : Prop :=
  (l.responders i).desired = true → (l.responders i).state = φ.state ∧
    ∀ b ∈ φ.elapsed, (l.responders i).probed = true ∧
      ∀ G ∈ S, (l.responders i).probedAt + b ≤ φ.time.getD l.clock

variable {φ : Phase}

theorem Phase.Holds.keep (h : φ.Holds S i l)
    (hd : (m.responders i).desired = true →
      (l.responders i).desired = true ∧ (m.responders i).state = (l.responders i).state)
    (hp : (l.responders i).probed = true →
      (m.responders i).probed = true ∧ (m.responders i).probedAt = (l.responders i).probedAt)
    (hc : l.clock ≤ m.clock) : φ.Holds S i m := by
  intro hm
  obtain ⟨hl, hs⟩ := hd hm
  obtain ⟨hstate, hrest⟩ := h hl
  refine ⟨hs.trans hstate, fun b hb => ?_⟩
  obtain ⟨hprobed, htime⟩ := hrest b hb
  refine ⟨(hp hprobed).1, fun G hG => ?_⟩
  rw [(hp hprobed).2]
  have hle := htime G hG
  cases ht : φ.time with
  | none =>
    rw [ht] at hle
    exact Nat.le_trans hle hc
  | some _ =>
    rw [ht] at hle
    exact hle

theorem Phase.Holds.rely (h : φ.Holds S i l) (hr : WorkerRely i l m) : φ.Holds S i m :=
  h.keep hr.wanted (fun hp => ⟨hr.probed.trans hp, hr.probedAt⟩) hr.clock

theorem Phase.Holds.step (h : φ.Holds S i l) (hs : WorkerStep i l m)
    (hq : (m.responders i).desired = true → (m.responders i).state = (l.responders i).state) :
    φ.Holds S i m :=
  h.keep (fun hd => ⟨hs.own.wanted hd, hq hd⟩) hs.own.probed (Nat.le_of_eq hs.clock.symm)

theorem Ready.rely (h : Ready i l) (hr : WorkerRely i l m) : Ready i m :=
  ⟨hr.lives, hr.handling.trans h.handling, hr.waiting.trans h.waiting⟩

/-- The worker between two datagrams. -/
def Idle (S : Option (Segment n)) (i : Fin n) (φ : Phase) (l : Lan n) : Prop :=
  Ready i l ∧ φ.Holds S i l

/-- The worker waiting in `Receive`. -/
def Waits (S : Option (Segment n)) (i : Fin n) (φ : Phase) (l : Lan n) : Prop :=
  ((l.responders i).workerLives = true ∧ (l.responders i).handling = none) ∧ φ.Holds S i l

/-- The worker with what `Receive` has returned. -/
def Got (S : Option (Segment n)) (i : Fin n) (φ : Phase) : ReceiveResult → Lan n → Prop
  | .packet datagram, l => ((l.responders i).workerLives = true ∧ (l.responders i).waiting = none ∧
      MdnsSections.Holds datagram (l.responders i)) ∧ φ.Holds S i l
  | _, l => Idle S i φ l

theorem Idle.stable : (discipline S).Stable (.worker i) (Idle S i φ) := by
  intro l m h hr _
  have hrely := hr.1 h.1.lives
  exact ⟨h.1.rely hrely, h.2.rely hrely⟩

theorem Waits.stable : (discipline S).Stable (.worker i) (Waits S i φ) := by
  intro l m h hr _
  have hrely := hr.1 h.1.1
  exact ⟨⟨hrely.lives, hrely.handling.trans h.1.2⟩, h.2.rely hrely⟩

theorem Got.stable (result : ReceiveResult) :
    (discipline S).Stable (.worker i) (Got S i φ result) := by
  cases result with
  | timeout => exact Idle.stable
  | error => exact Idle.stable
  | packet datagram =>
    intro l m h hr _
    obtain ⟨⟨hl, hw, hh⟩, hφ⟩ := h
    have hrely := hr.1 hl
    refine ⟨⟨hrely.lives, hrely.waiting.trans hw, fun hd => ?_⟩, hφ.rely hrely⟩
    rw [hrely.handling]
    exact hh (hrely.wanted hd).1

/-- The worker after it has looked whether it is still wanted. -/
def Looked (i : Fin n) (P : Lan n → Prop) : Bool → Lan n → Prop
  | true, l => P l ∧ (Ready i l → Fresh i l)
  | false, l => P l ∧ (l.responders i).desired = false

theorem looked {P : Lan n → Prop} (h : P l) : Looked i P (l.responders i).desired l := by
  cases hd : (l.responders i).desired with
  | true => exact ⟨h, fun _ hf => still hd hf⟩
  | false => exact ⟨h, hd⟩

theorem Looked.now {P : Lan n → Prop} {desired : Bool} (h : Looked i P desired l) : P l := by
  cases desired <;> exact h.1

theorem Looked.stable {P : Lan n → Prop} (hP : (discipline S).Stable (.worker i) P)
    (hlives : ∀ l, P l → (l.responders i).workerLives = true) (desired : Bool) :
    (discipline S).Stable (.worker i) (Looked i P desired) := by
  intro l m h hr hi
  have hrely := hr.1 (hlives l h.now)
  cases desired with
  | true =>
    refine ⟨hP l m h.1 hr hi, fun hready => ?_⟩
    have hw := hrely.waiting.symm.trans hready.waiting
    exact hrely.fresh hw (h.2 ⟨hlives l h.1, hrely.handling.symm.trans hready.handling, hw⟩)
  | false =>
    refine ⟨hP l m h.1 hr hi, ?_⟩
    by_contra hd
    exact still (hrely.wanted (by simpa using hd)).1 h.2

/-- A section that only reads. -/
theorem outline_read {P : Lan n → Prop} {α : Type} {read : Outside → Lan n → α}
    {Q : α → Lan n → Prop} (hP : (discipline S).Stable (.worker i) P)
    (hQ : ∀ a, (discipline S).Stable (.worker i) (Q a))
    (h : ∀ e l, Invariant S l → P l → Offered S l e → Q (read e l) l) :
    (discipline S).Outline (.worker i) P (Program.critical fun e l => (read e l, l)) Q :=
  .critical hP hQ fun e l hi hp ho =>
    ⟨hi, WorkerStep.guarantee (.refl i l), h e l hi hp ho⟩

theorem outline_load {P : Lan n → Prop} (hP : (discipline S).Stable (.worker i) P)
    (hlives : ∀ l, P l → (l.responders i).workerLives = true) :
    (discipline S).Outline (.worker i) P (load i (·.desired)) (Looked i P) :=
  outline_read hP (Looked.stable hP hlives) fun _ _ _ hp _ => looked hp

/-- A section of the worker keeps the discipline. -/
theorem outline_section {P : Lan n → Prop} {α : Type} {f : Outside → Lan n → α × Lan n}
    {Q : α → Lan n → Prop} (hP : (discipline S).Stable (.worker i) P)
    (hQ : ∀ a, (discipline S).Stable (.worker i) (Q a))
    (h : ∀ e l, Invariant S l → P l → Offered S l e →
      WorkerStep i l (f e l).2 ∧ (∀ G ∈ S, Owner G (f e l).2) ∧ Q (f e l).1 (f e l).2) :
    (discipline S).Outline (.worker i) P (Program.critical f) Q := by
  refine .critical hP hQ fun e l hi hp ho => ?_
  obtain ⟨hstep, howner, hq⟩ := h e l hi hp ho
  exact ⟨⟨WorkerStep.sound hstep hi.sound, howner⟩, WorkerStep.guarantee hstep, hq⟩

end HarmonyScreen.Proofs.MdnsWorker
