import HarmonyScreen.Proofs.MdnsRun

namespace HarmonyScreen.Proofs.MdnsCalls
open Lib Program Receiver Mdns MdnsResponder MdnsEffects MdnsPackets MdnsOwner MdnsSections
  MdnsWorker MdnsRun

variable {n : Nat} {S : Option (Segment n)} {G : Segment n} {i : Fin n} {k : Nat} {l m : Lan n}
  {r s : MdnsResponder n} {e : Outside} {starting : Bool}

/-- What a section of a caller does to the responder, as its worker sees it. -/
structure WorkerSees (clock : Nat) (r s : MdnsResponder n) : Prop where
  lives : s.workerLives = r.workerLives
  probed : s.probed = r.probed
  probedAt : s.probedAt = r.probedAt
  handling : s.handling = r.handling
  waiting : s.waiting = r.waiting
  wanted : s.desired = true → r.desired = true ∧ s.state = r.state
  closed : s.desired = false → s.closedAt = clock ∨ r.desired = false ∧ s.closedAt = r.closedAt

theorem WorkerSees.relies (h : WorkerSees l.clock (l.responders i) (m.responders i))
    (hc : m.clock = l.clock) : MdnsWorker.relies (.worker i) l m := by
  refine ⟨fun hl => ?_, fun hl hl' => still (h.lives ▸ hl') hl⟩
  refine ⟨h.lives.trans hl, h.probed, h.probedAt, h.handling, h.waiting, h.wanted,
    Nat.le_of_eq hc.symm, fun _ hf hd => ?_⟩
  rw [hc]
  rcases h.closed hd with hat | ⟨hd', hat⟩
  · exact Nat.le_of_eq hat.symm
  · rw [hat]
    exact hf hd'

/-- A section of a caller, as the whole interface sees it. -/
structure CallerStep (i : Fin n) (k : Nat) (l m : Lan n) : Prop where
  apart : Apart i l m
  clock : m.clock = l.clock
  worker : MdnsWorker.relies (.worker i) l m
  callers : ∀ k', k' ≠ k → MdnsWorker.relies (.caller i k') l m

theorem CallerStep.guarantee (h : CallerStep i k l m) :
    (discipline S).guarantee (.caller i k) l m := by
  intro v hv
  cases v with
  | clock => trivial
  | worker j =>
    by_cases hj : j = i
    · subst hj
      exact h.worker
    · exact Beside.relies_worker (h.apart j hj) h.clock
  | caller j k' =>
    by_cases hj : j = i
    · subst hj
      exact h.callers k' fun hk => hv (hk ▸ rfl)
    · exact Beside.relies_caller (h.apart j hj) k'

/-- A section of a caller that changes its responder alone. -/
theorem callerStep_update {f : MdnsResponder n → MdnsResponder n}
    (hw : WorkerSees l.clock (l.responders i) (f (l.responders i)))
    (hc : ∀ k', k' ≠ k → (k' ∈ (f (l.responders i)).calls ↔ k' ∈ (l.responders i).calls) ∧
      (k' ∈ (l.responders i).calls → CallerRely k' (l.responders i) (f (l.responders i)))) :
    CallerStep i k l (l.update i f) := by
  refine ⟨apart_update l f, rfl, WorkerSees.relies (by rwa [Lan.update_same]) rfl, fun k' hk => ?_⟩
  simp only [MdnsWorker.relies, Lan.update_same]
  exact hc k' hk

/-- What holds after a section of a caller. -/
theorem keeps_call (hi : Invariant S l) (h : CallerStep i k l m) (hs : Sound (m.responders i))
    (howner : ∀ G ∈ S, Owner G m) :
    Invariant S m ∧ (discipline S).guarantee (.caller i k) l m := by
  refine ⟨⟨fun j => ?_, howner⟩, h.guarantee⟩
  by_cases hj : j = i
  · subst hj
    exact hs
  · exact (hi.sound j).beside (h.apart j hj)

/-- The caller is inside its call. -/
structure Inside (i : Fin n) (k : Nat) (starting : Bool) (l : Lan n) : Prop where
  called : k ∈ (l.responders i).calls
  start : (l.responders i).starting = starting
  alone : starting = true → (l.responders i).calls = [k]

theorem Inside.rely {starting : Bool} (h : Inside i k starting l)
    (hr : MdnsWorker.relies (.caller i k) l m) :
    Inside i k starting m ∧ CallerRely k (l.responders i) (m.responders i) := by
  have hrely := hr.2 h.called
  refine ⟨⟨hr.1.mpr h.called, hrely.starting.trans h.start, fun hs => ?_⟩, hrely⟩
  rw [hrely.alone (h.start.trans hs)]
  exact h.alone hs

/-- Before the locked section of `Stop`. -/
def Entered (i : Fin n) (k : Nat) (starting : Bool) (l : Lan n) : Prop :=
  Inside i k starting l ∧ (l.responders i).handle ≠ .movedTo k

/-- After it. -/
def Closed (i : Fin n) (k : Nat) (starting joins : Bool) (l : Lan n) : Prop :=
  Inside i k starting l ∧ (l.responders i).desired = false ∧
    (l.responders i).handle ≠ .member ∧
    ((l.responders i).handle = .movedTo k ↔ joins = true)

/-- At the end of `Stop`. -/
def Stopped (i : Fin n) (k : Nat) (starting : Bool) (l : Lan n) : Prop :=
  Closed i k starting false l ∧ (l.responders i).state ≠ .published

theorem Entered.stable (starting : Bool) :
    (discipline S).Stable (.caller i k) (Entered i k starting) := by
  intro l m h hr _
  obtain ⟨hinside, hrely⟩ := h.1.rely hr
  exact ⟨hinside, fun hm => h.2 (hrely.mine.mp hm)⟩

theorem Closed.stable (starting joins : Bool) :
    (discipline S).Stable (.caller i k) (Closed i k starting joins) := by
  intro l m h hr _
  obtain ⟨hin, hd, hmember, hmine⟩ := h
  obtain ⟨hinside, hrely⟩ := hin.rely hr
  exact ⟨hinside, hrely.unwanted hd, fun hm => hmember (hrely.member hm), hrely.mine.trans hmine⟩

theorem Stopped.stable (starting : Bool) :
    (discipline S).Stable (.caller i k) (Stopped i k starting) := by
  intro l m h hr hi
  refine ⟨Closed.stable starting false l m h.1 hr hi, fun hs => ?_⟩
  obtain ⟨-, hrely⟩ := h.1.1.rely hr
  have hd := h.1.2.1
  exact h.2 (hrely.stopping (.inr hd) ⟨hrely.unwanted hd, hs⟩).2

section Stop

/-- A responder that is stopped while it is `Published` was closed before any other
one could probe in peace. -/
theorem owner_stop (h : Owner G l)
    (hopens : (l.responders i).isOpen = (l.responders i).desired) (caller : Nat) :
    Owner G (l.update i fun r => { r.withdraw .stopped l.clock with
      handle := if r.handle = .member then .movedTo caller else r.handle }) := by
  have hi := h.timely i
  by_cases hd : (l.responders i).desired = true
  · have ho : (l.responders i).isOpen = true := hopens ▸ hd
    have hat : (l.responders i).probed = true → (l.responders i).state = .published →
        (l.responders i).probedAt ≠ l.clock := by
      intro _ hs
      have := (hi.published hs).2
      simp only [kProbeCount, kProbeIntervalMilliseconds] at this
      omega
    refine Owner.update (f := fun r => { r.withdraw .stopped l.clock with
      handle := if r.handle = .member then .movedTo caller else r.handle }) h ?_
      fun j hj hrivals hr hs => ?_
    · refine ⟨fun h => (by cases h), hi.probed, hi.published, fun _ => ?_, fun d hw hlives => ?_,
        fun h => (by cases h)⟩
      · simp [MdnsResponder.withdraw, hd]
      · have := hi.waits d hw hlives
        simpa [MdnsResponder.withdraw, hd, ho] using this
    · have hstate : (l.responders i).state = .published := hr.2.resolve_left (by simp [withdraw])
      have hprobed : (l.responders i).probed = true := hr.1
      have hclosed : (MdnsResponder.withdraw .stopped l.clock (l.responders i)).closedAt =
          l.clock := by simp [withdraw, hd]
      rcases hrivals ⟨hprobed, .inl ho⟩ hs with ⟨-, ho', hf, hc⟩ | ⟨hc, -⟩ | hc
      · refine .inr (.inl ⟨rfl, ?_⟩)
        rcases hc with hc | hc
        · exact absurd hc (hat hprobed hstate)
        · exact Nat.le_of_eq (hclosed.trans hc.symm)
      · exact still ho hc
      · exact .inr (.inr hc)
  · have hd' : (l.responders i).desired = false := by simpa using hd
    have ho : (l.responders i).isOpen = false := by rw [hopens]; exact hd'
    have hclosed : (MdnsResponder.withdraw .stopped l.clock (l.responders i)).closedAt =
        (l.responders i).closedAt := by simp [withdraw, hd']
    refine Owner.update (f := fun r => { r.withdraw .stopped l.clock with
      handle := if r.handle = .member then .movedTo caller else r.handle }) h ?_
      fun j hj hrivals hr hs => ?_
    · refine ⟨fun h => (by cases h), hi.probed, hi.published, fun _ => ?_, fun d hw hlives => ?_,
        fun h => (by cases h)⟩
      · simpa [MdnsResponder.withdraw, hd'] using hi.closing ho
      · have := hi.waits d hw hlives
        simpa [MdnsResponder.withdraw, hd', ho] using this
    · have hr' : Contender (l.responders i) :=
        ⟨hr.1, .inr (hr.2.resolve_left (by simp [withdraw]))⟩
      rcases hrivals hr' hs with ⟨hc, -⟩ | ⟨-, hc⟩ | hc
      · exact still hc ho
      · exact .inr (.inl ⟨rfl, by simpa only [hclosed] using hc⟩)
      · exact .inr (.inr hc)

/-- The responder after its goodbye, when there is one to say. -/
def said (r : MdnsResponder n) : MdnsResponder n :=
  if r.state = .published ∧ r.goodbyeSent = false then
    { r with
      goodbyeSent := true
      handed := r.handed ++ [buildARecord r.selectedInterface.address 0] }
  else r

theorem said_goodbye (h : r.state = .published ∧ r.goodbyeSent = false) : said r = { r with
    goodbyeSent := true
    handed := r.handed ++ [buildARecord r.selectedInterface.address 0] } := if_pos h

theorem said_nothing (h : ¬ (r.state = .published ∧ r.goodbyeSent = false)) : said r = r :=
  if_neg h

/-- The responder after the locked section of `Stop`. -/
def halted (caller clock : Nat) (r : MdnsResponder n) : MdnsResponder n :=
  { (said r).withdraw .stopped clock with
    handle := if r.handle = .member then .movedTo caller else r.handle }

theorem stopLocked_sent (caller : Nat) (e : Outside) (l : Lan n) :
    (stopLocked i caller e l).1 = ((l.responders i).handle == .member) := by
  unfold stopLocked
  dsimp only
  split
  · by_cases hg : (l.responders i).goodbyeSent = true
    · rw [sendGoodbyeLocked_again i l e hg]
    · rw [sendGoodbyeLocked_same i l e (by simpa using hg)]
  · rfl

theorem stopLocked_own (caller : Nat) (e : Outside) (l : Lan n) :
    Apart i l (stopLocked i caller e l).2 ∧ (stopLocked i caller e l).2.clock = l.clock ∧
      (stopLocked i caller e l).2.responders i = halted caller l.clock (l.responders i) := by
  unfold stopLocked
  dsimp only
  split
  · rename_i hs
    refine ⟨(apart_sendGoodbyeLocked i l e).trans (apart_update _ _), by simp, ?_⟩
    rw [Lan.update_same, sendGoodbyeLocked_clock]
    by_cases hg : (l.responders i).goodbyeSent = true
    · rw [sendGoodbyeLocked_again i l e hg, halted, said_nothing (by simp [hg])]
    · rw [sendGoodbyeLocked_same i l e (by simpa using hg), halted,
        said_goodbye ⟨hs, by simpa using hg⟩]
  · rename_i hs
    refine ⟨apart_update _ _, rfl, ?_⟩
    rw [Lan.update_same, halted, said_nothing fun h => hs h.1]

theorem sound_halted (h : Sound r) {caller : Nat} (hk : caller ∈ r.calls) (clock : Nat) :
    Sound (halted caller clock r) := by
  have howned : ∀ g : WorkerHandle, g ≠ .none →
      (if g = .member then WorkerHandle.movedTo caller else g) ≠ .none := by
    intro g hg
    split
    · exact fun h => (by cases h)
    · exact hg
  have hmoved : ∀ k, (if r.handle = .member then WorkerHandle.movedTo caller else r.handle) =
      .movedTo k → k ∈ r.calls := by
    intro k hk'
    split at hk'
    · cases hk'
      exact hk
    · exact h.moved k hk'
  by_cases hs : r.state = .published
  · cases hd : r.desired with
    | true =>
      obtain ⟨hg, hn, ha, -⟩ := h.alive hd
      rw [halted, said_goodbye ⟨hs, hg⟩]
      refine ⟨fun h => (by cases h), fun _ _ => ⟨rfl, ?_, List.ne_nil_of_mem hk⟩, rfl,
        .inl ⟨?_, r.handed, by rw [← ha]; rfl, h.silent hd⟩, fun hl => howned _ (h.owned hl),
        hmoved⟩
      · simp [withdraw, leaving, hs, hn]
      · simp [Withdrawn, withdraw, leaving, hs, hn]
    | false =>
      obtain ⟨hg, hn, hcalls⟩ := h.gone hs hd
      have hleaving : r.leaving .stopped = r.departure := by
        rw [leaving, if_neg fun h => hn h.2]
      rw [halted, said_nothing (by simp [hg])]
      refine ⟨fun h => (by cases h), fun _ _ => ⟨hg, ?_, hcalls⟩, rfl, ?_,
        fun hl => howned _ (h.owned hl), hmoved⟩
      · simp only [withdraw, hleaving]
        exact hn
      · have := h.accounted
        simpa only [Accounted, withdraw, hleaving] using this
  · have hleaving : r.leaving .stopped = r.departure := by
      rw [leaving, if_neg fun h => hs h.1]
    rw [halted, said_nothing fun h => hs h.1]
    refine ⟨fun h => (by cases h), fun h => absurd h hs, rfl, ?_,
      fun hl => howned _ (h.owned hl), hmoved⟩
    have := h.accounted
    simpa only [Accounted, withdraw, hleaving] using this

theorem said_same (r : MdnsResponder n) : (said r).workerLives = r.workerLives ∧
    (said r).probed = r.probed ∧ (said r).probedAt = r.probedAt ∧
    (said r).handling = r.handling ∧ (said r).waiting = r.waiting ∧
    (said r).desired = r.desired ∧ (said r).closedAt = r.closedAt ∧ (said r).calls = r.calls ∧
    (said r).starting = r.starting ∧ (said r).state = r.state := by
  unfold said
  split <;> exact ⟨rfl, rfl, rfl, rfl, rfl, rfl, rfl, rfl, rfl, rfl⟩

theorem callerStep_stopLocked (hin : Inside i k starting l) (e : Outside) :
    CallerStep i k l (stopLocked i k e l).2 := by
  obtain ⟨hapart, hclock, hown⟩ := stopLocked_own (i := i) k e l
  obtain ⟨hl, hp, hpa, hh, hw, hd, hca, hcalls, hst, hstate⟩ := said_same (l.responders i)
  refine ⟨hapart, hclock, WorkerSees.relies ?_ hclock, fun k' hk => ?_⟩
  · rw [hown]
    refine ⟨hl, hp, hpa, hh, hw, fun h => (by cases h), fun _ => ?_⟩
    cases hdes : (l.responders i).desired with
    | true => exact .inl (by simp [halted, withdraw, hd, hdes])
    | false => exact .inr ⟨rfl, by simp [halted, withdraw, hd, hdes, hca]⟩
  · simp only [MdnsWorker.relies, hown]
    refine ⟨by rw [halted, withdraw, hcalls], fun hk' => ⟨hst, fun _ => hcalls, fun _ => rfl,
      fun hor hstop => ?_, fun h => hl ▸ h, ?_, fun h => ?_⟩⟩
    · rcases hor with hs | hdes
      · -- only the one caller is inside while it starts
        have hone := hin.alone (hin.start ▸ hs)
        rw [hone] at hk'
        exact absurd (List.mem_singleton.mp hk') hk
      · exact ⟨hdes, hstate ▸ hstop.2⟩
    · simp only [halted]
      split
      · rename_i hm
        rw [hm]
        exact ⟨fun h => absurd (WorkerHandle.movedTo.inj h).symm hk, fun h => (by cases h)⟩
      · exact Iff.rfl
    · simp only [halted] at h
      split at h
      · cases h
      · exact h

theorem owner_stopLocked (h : Owner G l) (hl : Sound (l.responders i)) (caller : Nat)
    (e : Outside) : Owner G (stopLocked i caller e l).2 := by
  unfold stopLocked
  dsimp only
  split
  · rename_i hs
    by_cases hg : (l.responders i).goodbyeSent = true
    · rw [sendGoodbyeLocked_again i l e hg]
      exact owner_stop h hl.opens caller
    · have hg' : (l.responders i).goodbyeSent = false := by simpa using hg
      have hd : (l.responders i).desired = true := by
        by_contra hd
        exact hg (hl.gone hs (by simpa using hd)).1
      have hsent := h.sendGoodbyeLocked (e := e) (hl.opens ▸ hd)
      -- the goodbye does not touch what makes the responder sound but its record of packets
      have hopens : ((sendGoodbyeLocked i e l).responders i).isOpen =
          ((sendGoodbyeLocked i e l).responders i).desired := by
        rw [sendGoodbyeLocked_same i l e hg']
        exact hl.opens
      exact owner_stop hsent hopens caller
  · exact owner_stop h hl.opens caller

/-- A closed responder that is not `Published` is out of the way. -/
theorem owner_setState (h : Owner G l) (hclosed : (l.responders i).isOpen = false)
    {state : MdnsPublisherState} (hs : state ≠ .published) :
    Owner G (l.update i fun r => { r with state := state }) := by
  have hi := h.timely i
  exact Owner.leaves (f := fun r => { r with state := state }) h
    ⟨hi.selected, hi.probed, fun h => absurd h hs,
      fun ho => ⟨(hi.closing ho).1, fun h => absurd h hs⟩, hi.waits, hi.packets⟩
    fun hc => hc.2.elim (fun ho => still ho hclosed) hs

end Stop

section Programs
variable (i k S)

/-- A section of a caller keeps the discipline. -/
theorem outline_call {P : Lan n → Prop} {α : Type} {f : Outside → Lan n → α × Lan n}
    {Q : α → Lan n → Prop} (hP : (discipline S).Stable (.caller i k) P)
    (hQ : ∀ a, (discipline S).Stable (.caller i k) (Q a))
    (h : ∀ e l, Invariant S l → P l →
      CallerStep i k l (f e l).2 ∧ Sound ((f e l).2.responders i) ∧
        (∀ G ∈ S, Owner G (f e l).2) ∧ Q (f e l).1 (f e l).2) :
    (discipline S).Outline (.caller i k) P (Program.critical f) Q := by
  refine .critical hP hQ fun e l hi hp _ => ?_
  obtain ⟨hstep, hs, howner, hq⟩ := h e l hi hp
  obtain ⟨hkeep, hgo⟩ := keeps_call hi hstep hs howner
  exact ⟨hkeep, hgo, hq⟩

/-- As `outline_call`, for a section that waits. -/
theorem outline_wait {P : Lan n → Prop} {ready : Lan n → Bool} {act : Outside → Lan n → Lan n}
    {Q : Lan n → Prop} (hP : (discipline S).Stable (.caller i k) P)
    (hQ : (discipline S).Stable (.caller i k) Q)
    (h : ∀ e l, Invariant S l → P l → ready l = true →
      CallerStep i k l (act e l) ∧ Sound ((act e l).responders i) ∧
        (∀ G ∈ S, Owner G (act e l)) ∧ Q (act e l)) :
    (discipline S).Outline (.caller i k) P (.atomic ready act fun _ _ => .ret ())
      (fun _ => Q) := by
  refine .atomic hP fun e l hi hp _ hready => ?_
  obtain ⟨hstep, hs, howner, hq⟩ := h e l hi hp hready
  obtain ⟨hkeep, hgo⟩ := keeps_call hi hstep hs howner
  exact ⟨hkeep, hgo, fun m hm him => hQ _ _ hq hm him⟩

theorem outline_stopLocked (starting : Bool) :
    (discipline S).Outline (.caller i k) (Entered i k starting)
      (Program.critical (stopLocked i k)) (Closed i k starting) := by
  refine outline_call S i k (Entered.stable starting) (fun joins => Closed.stable starting joins)
    fun e l hi hp => ?_
  obtain ⟨-, -, hown⟩ := stopLocked_own (i := i) k e l
  obtain ⟨-, -, -, -, -, -, -, hcalls, hst, -⟩ := said_same (l.responders i)
  refine ⟨callerStep_stopLocked hp.1 e, hown ▸ sound_halted (hi.sound i) hp.1.called _,
    fun G hG => owner_stopLocked (hi.owner G hG) (hi.sound i) k e, ⟨?_, ?_, ?_⟩, ?_, ?_, ?_⟩
  all_goals rw [hown]
  · exact hcalls ▸ hp.1.called
  · exact hst.trans hp.1.start
  · exact fun hs => hcalls.trans (hp.1.alone hs)
  · rfl
  · simp only [halted]
    split
    · exact fun h => (by cases h)
    · assumption
  · rw [stopLocked_sent]
    simp only [halted, beq_iff_eq]
    split
    · rename_i hm
      exact ⟨fun _ => hm, fun _ => rfl⟩
    · rename_i hm
      exact ⟨fun h => absurd h hp.2, fun h => absurd h hm⟩

theorem outline_join (starting : Bool) :
    (discipline S).Outline (.caller i k) (Closed i k starting true) (join i)
      (fun _ => Closed i k starting false) := by
  refine outline_wait S i k (Closed.stable starting true) (Closed.stable starting false)
    fun e l hi hp hready => ?_
  obtain ⟨hin, hd, -, hmine⟩ := hp
  have hl : (l.responders i).workerLives = false := by simpa using hready
  have hs := hi.sound i
  have hm := hmine.mpr rfl
  refine ⟨callerStep_update ⟨rfl, rfl, rfl, rfl, rfl, fun h => ⟨h, rfl⟩, fun h => .inr ⟨h, rfl⟩⟩
      fun k' hk => ⟨Iff.rfl, fun _ => ?_⟩, ?_, fun G hG => ?_, ⟨?_, ?_, ?_⟩, ?_, ?_, ?_⟩
  · refine ⟨rfl, fun _ => rfl, id, fun _ => id, id, ?_, fun h => (by cases h)⟩
    rw [hm]
    exact ⟨fun h => (by cases h), fun h => absurd (WorkerHandle.movedTo.inj h).symm hk⟩
  · rw [Lan.update_same]
    exact ⟨hs.alive, hs.gone, hs.opens, hs.accounted, fun h => still h hl, fun _ h => (by cases h)⟩
  · exact (hi.owner G hG).silent fun _ => ⟨rfl, rfl, rfl, rfl, rfl, rfl, rfl, id, rfl, rfl⟩
  all_goals rw [Lan.update_same]
  · exact hin.called
  · exact hin.start
  · exact hin.alone
  · exact hd
  · exact fun h => (by cases h)
  · exact ⟨fun h => (by cases h), fun h => (by cases h)⟩

/-- The state of a responder that is not wanted is set. -/
theorem keeps_setState {joins : Bool} (hi : Invariant S l) (hp : Closed i k starting joins l)
    (state : MdnsPublisherState) (hs : state ≠ .published) :
    CallerStep i k l (l.update i fun r => { r with state := state }) ∧
      Sound ((l.update i fun r => { r with state := state }).responders i) ∧
      (∀ G ∈ S, Owner G (l.update i fun r => { r with state := state })) ∧
      Closed i k starting joins (l.update i fun r => { r with state := state }) := by
  obtain ⟨hin, hd, hmember, hmine⟩ := hp
  have h := hi.sound i
  refine ⟨callerStep_update ⟨rfl, rfl, rfl, rfl, rfl, fun h => still h hd,
      fun h => .inr ⟨h, rfl⟩⟩ fun k' _ => ⟨Iff.rfl, fun _ => ⟨rfl, fun _ => rfl, id,
        fun _ h => absurd h.2 hs, id, Iff.rfl, id⟩⟩, ?_,
    fun G hG => owner_setState (hi.owner G hG) (h.opens.trans hd) hs, ⟨?_, ?_, ?_⟩, ?_, ?_, ?_⟩
  all_goals rw [Lan.update_same]
  · exact ⟨fun h => still h hd, fun h => absurd h hs, h.opens, h.accounted, h.owned, h.moved⟩
  · exact hin.called
  · exact hin.start
  · exact hin.alone
  · exact hd
  · exact hmember
  · exact hmine

theorem outline_stopBody (starting : Bool) :
    (discipline S).Outline (.caller i k) (Entered i k starting) (stopBody i k)
      (fun _ => Stopped i k starting) := by
  have hset : (discipline S).Outline (.caller i k) (Closed i k starting false) (setStopped i)
      (fun _ => Stopped i k starting) := by
    refine outline_call S i k (Closed.stable starting false) (fun _ => Stopped.stable starting)
      fun e l hi hp => ?_
    obtain ⟨hstep, hs, howner, hclosed⟩ := keeps_setState S i k hi hp .stopped (by decide)
    refine ⟨hstep, hs, howner, hclosed, ?_⟩
    rw [Lan.update_same]
    exact fun h => (by cases h)
  refine .bind (outline_stopLocked S i k starting) fun joins => ?_
  cases joins with
  | true => exact .bind (outline_join S i k starting) fun _ => hset
  | false => exact hset

/-- The caller is not inside a call. -/
def Outer (l : Lan n) : Prop := k ∉ (l.responders i).calls

theorem Outer.stable : (discipline S).Stable (.caller i k) (Outer (n := n) i k) :=
  fun _ _ h hr _ hk => h (hr.1.mp hk)

/-- Only who is inside changes. -/
theorem sound_calls {r : MdnsResponder n} (h : Sound r) {calls : List Nat} {starting : Bool}
    (hgone : Stopping r → calls ≠ []) (hmoved : ∀ k, r.handle = .movedTo k → k ∈ calls) :
    Sound { r with calls := calls, starting := starting } :=
  ⟨h.alive, fun hs hd => ⟨(h.gone hs hd).1, (h.gone hs hd).2.1, hgone ⟨hd, hs⟩⟩, h.opens,
    h.accounted, h.owned, hmoved⟩

theorem workerSees_calls {r : MdnsResponder n} (clock : Nat) (calls : List Nat)
    (starting : Bool) : WorkerSees clock r { r with calls := calls, starting := starting } :=
  ⟨rfl, rfl, rfl, rfl, rfl, fun h => ⟨h, rfl⟩, fun h => .inr ⟨h, rfl⟩⟩

theorem outline_stop :
    (discipline S).Outline (.caller i k) (Outer i k) (stop i k) (fun _ => Outer i k) := by
  refine .bind (Q := fun _ => Entered i k false) (outline_wait S i k (Outer.stable S i k)
    (Entered.stable false) fun e l hi hp hready => ?_) fun _ =>
    .bind (outline_stopBody S i k false) fun _ => outline_call S i k (Stopped.stable false)
      (fun _ => Outer.stable S i k) fun e l hi hp => ?_
  · have hs : (l.responders i).starting = false := by simpa using hready
    have h := hi.sound i
    refine ⟨callerStep_update (workerSees_calls _ _ _) fun k' hk => ⟨?_, fun _ =>
        ⟨rfl, fun h => still h hs, id, fun _ => id, id, Iff.rfl, id⟩⟩, ?_,
      fun G hG => (hi.owner G hG).silent fun _ => ⟨rfl, rfl, rfl, rfl, rfl, rfl, rfl, id, rfl, rfl⟩,
      ⟨?_, ?_, fun h => (by cases h)⟩, ?_⟩
    · simp [hk]
    all_goals rw [Lan.update_same]
    · exact sound_calls h (fun _ => List.cons_ne_nil _ _)
        fun k' hk => List.mem_cons_of_mem _ (h.moved k' hk)
    · exact List.mem_cons_self ..
    · exact hs
    · exact fun hm => hp (h.moved k hm)
  · obtain ⟨⟨hin, hd, -, hmine⟩, hstate⟩ := hp
    have h := hi.sound i
    have hne : ∀ k', (l.responders i).handle = .movedTo k' → k' ≠ k :=
      fun k' hk hkk => absurd (hmine.mp (hkk ▸ hk)) (by decide)
    refine ⟨callerStep_update (f := fun r => { r with calls := r.calls.filter (· != k) })
        (workerSees_calls _ _ _) fun k' hk => ⟨?_, fun _ =>
          ⟨rfl, fun h => still h hin.start, id, fun _ => id, id, Iff.rfl, id⟩⟩, ?_,
      fun G hG => Owner.silent (f := fun r => { r with calls := r.calls.filter (· != k) })
        (hi.owner G hG) fun _ => ⟨rfl, rfl, rfl, rfl, rfl, rfl, rfl, id, rfl, rfl⟩, ?_⟩
    · simp [hk]
    · rw [Lan.update_same]
      exact sound_calls h (fun hs => absurd hs.2 hstate)
        fun k' hk => List.mem_filter.mpr ⟨h.moved k' hk, by simpa using hne k' hk⟩
    · simp [Outer]

/-- After the body of `Start`. -/
def Finished (l : Lan n) : Prop :=
  Inside i k true l ∧ (l.responders i).handle ≠ .movedTo k ∧ ¬ Stopping (l.responders i)

theorem Finished.stable : (discipline S).Stable (.caller i k) (Finished (n := n) i k) := by
  intro l m h hr _
  obtain ⟨hin, hhandle, hstop⟩ := h
  obtain ⟨hinside, hrely⟩ := hin.rely hr
  exact ⟨hinside, fun hm => hhandle (hrely.mine.mp hm),
    fun hs => hstop (hrely.stopping (.inl hin.start) hs)⟩

/-- Nobody else is inside, and the worker has ended. -/
theorem Stopped.quiet (hi : Invariant S l) (hp : Stopped i k true l) :
    (l.responders i).workerLives = false ∧ (l.responders i).isOpen = false ∧
      ∀ k', k' ≠ k → k' ∉ (l.responders i).calls := by
  obtain ⟨⟨hin, hd, hmember, hmine⟩, -⟩ := hp
  have hs := hi.sound i
  have hcalls := hin.alone rfl
  refine ⟨?_, hs.opens.trans hd, fun k' hk hk' => ?_⟩
  · by_contra hl
    have hnone := hs.owned (by simpa using hl)
    cases hh : (l.responders i).handle with
    | none => exact hnone hh
    | member => exact hmember hh
    | movedTo k' =>
      have hmem := hs.moved k' hh
      rw [hcalls, List.mem_singleton] at hmem
      exact absurd (hmine.mp (hmem ▸ hh)) (by decide)
  · rw [hcalls, List.mem_singleton] at hk'
    exact hk hk'

/-- A section of `Start` that touches its responder alone, while nobody else is inside. -/
theorem keeps_start {f : MdnsResponder n → MdnsResponder n} (hi : Invariant S l)
    (hp : Stopped i k true l) (hcalls : (f (l.responders i)).calls = (l.responders i).calls)
    (hstart : (f (l.responders i)).starting = (l.responders i).starting)
    (hlives : (f (l.responders i)).workerLives = true →
      Launched i (l.update i f)) (hs : Sound (f (l.responders i)))
    (hhandle : (f (l.responders i)).handle ≠ .movedTo k) (hstop : ¬ Stopping (f (l.responders i)))
    (howner : ∀ G ∈ S, Owner G (l.update i f)) :
    CallerStep i k l (l.update i f) ∧ Sound ((l.update i f).responders i) ∧
      (∀ G ∈ S, Owner G (l.update i f)) ∧ Finished i k (l.update i f) := by
  obtain ⟨hl, -, hothers⟩ := Stopped.quiet S i k hi hp
  obtain ⟨⟨hin, -⟩, -⟩ := hp
  refine ⟨⟨apart_update l f, rfl, ⟨fun h => still h hl, fun _ hl' => ?_⟩, fun k' hk => ?_⟩, ?_,
    howner, ⟨?_, ?_, fun h => ?_⟩, ?_, ?_⟩
  · rw [Lan.update_same] at hl'
    exact hlives hl'
  · simp only [MdnsWorker.relies, Lan.update_same, hcalls]
    exact ⟨trivial, fun h => absurd h (hothers k' hk)⟩
  all_goals rw [Lan.update_same]
  · exact hs
  · exact hcalls ▸ hin.called
  · exact hstart.trans hin.start
  · exact hcalls.trans (hin.alone h)
  · exact hhandle
  · exact hstop

/-- The responder of a `Start` that did not succeed. -/
theorem owner_failed (h : Owner G l) (hclosed : (l.responders i).isOpen = false)
    {f : MdnsResponder n → MdnsResponder n}
    (hf : ∀ r : MdnsResponder n, (f r).isOpen = r.isOpen ∧ (f r).state = .error ∧
      (f r).probed = r.probed ∧ (f r).probedAt = r.probedAt ∧ (f r).closedAt = r.closedAt ∧
      (f r).waiting = r.waiting ∧ (f r).workerLives = r.workerLives) :
    Owner G (l.update i f) := by
  have hi := h.timely i
  obtain ⟨ho, hst, hp, hpa, hca, hw, hl⟩ := hf (l.responders i)
  refine h.leaves ⟨fun h => ?_, ?_, fun h => ?_, fun _ => ⟨?_, fun h => ?_⟩, ?_, fun h => ?_⟩
    fun hc => ?_
  · exact still (ho ▸ h) hclosed
  · rw [hp, hpa]
    exact hi.probed
  · rw [hst] at h
    cases h
  · rw [hca]
    exact (hi.closing hclosed).1
  · rw [hst] at h
    cases h
  · rw [hw, ho, hca, hl]
    exact hi.waits
  · exact still (ho ▸ h) hclosed
  · rcases hc.2 with h | h
    · exact still (ho ▸ h) hclosed
    · rw [hst] at h
      cases h

/-- A `Start` whose socket could not be opened. -/
def unopened (selected : MdnsInterface) (r : MdnsResponder n) : MdnsResponder n :=
  { r with selectedInterface := selected, state := .error }

/-- A `Start` whose thread could not be started. -/
def unlaunched (selected : MdnsInterface) (r : MdnsResponder n) : MdnsResponder n :=
  { r with
    selectedInterface := selected
    goodbyeSent := false
    responseWindowInitialized := false
    responseWindowStartedMs := 0
    responsesInWindow := 0
    state := .error }

theorem outline_startLocked {selected : MdnsInterface}
    (hsel : ∀ G ∈ S, selected = ⟨G.address i, G.index⟩) :
    (discipline S).Outline (.caller i k) (Stopped i k true)
      (Program.critical (startLocked i selected)) (fun _ => Finished i k) := by
  refine outline_call S i k (Stopped.stable true) (fun _ => Finished.stable S i k)
    fun e l hi hp => ?_
  obtain ⟨hl, hclosed, -⟩ := Stopped.quiet S i k hi hp
  have hs := hi.sound i
  have hd := hp.1.2.1
  have hmine : (l.responders i).handle ≠ .movedTo k :=
    fun h => absurd (hp.1.2.2.2.mp h) (by decide)
  unfold startLocked
  split
  · exact keeps_start S i k (f := unopened selected) hi hp rfl rfl (fun h => still h hl)
      ⟨fun h => still h hd, fun h => (by cases h), hs.opens, hs.accounted, hs.owned, hs.moved⟩ hmine
      (fun h => (by cases h.2)) fun G hG => owner_failed i (hi.owner G hG) hclosed
        fun _ => ⟨rfl, rfl, rfl, rfl, rfl, rfl, rfl⟩
  · split
    · exact keeps_start S i k (f := unlaunched selected) hi hp rfl rfl (fun h => still h hl)
        ⟨fun h => still h hd, fun h => (by cases h), hs.opens, hs.accounted, hs.owned, hs.moved⟩
        hmine (fun h => (by cases h.2)) fun G hG => owner_failed i (hi.owner G hG) hclosed
          fun _ => ⟨rfl, rfl, rfl, rfl, rfl, rfl, rfl⟩
    · refine keeps_start S i k (f := launch selected) hi hp rfl rfl
        (fun _ => ⟨⟨?_, ?_, ?_⟩, fun _ => ?_⟩)
        ⟨fun _ => ⟨rfl, rfl, rfl, .inl rfl⟩, fun h => (by cases h), rfl,
          .inr ⟨not_withdrawn_none, fun _ h => (by cases h)⟩, fun _ h => (by cases h),
          fun _ h => (by cases h)⟩
        (fun h => (by cases h)) (fun h => (by cases h.2)) fun G hG => ?_
      all_goals try rw [Lan.update_same]
      all_goals try rfl
      exact (hi.owner G hG).leaves ⟨fun _ => hsel G hG, fun h => (by cases h), fun h => (by cases h),
        fun h => (by cases h), fun _ h => (by cases h), fun _ _ h => (by cases h)⟩
        fun h => (by cases h.1)

theorem outline_start {addressText : Bytes} {interfaceIndex : Nat}
    (hsel : ∀ selected, startArguments addressText interfaceIndex = some selected →
      ∀ G ∈ S, selected = ⟨G.address i, G.index⟩) :
    (discipline S).Outline (.caller i k) (Outer i k) (start i k addressText interfaceIndex)
      (fun _ => Outer i k) := by
  refine .bind (Q := fun _ => Entered i k true) (outline_wait S i k (Outer.stable S i k)
    (Entered.stable true) fun e l hi hp hready => ?_) fun _ =>
    .bind (outline_stopBody S i k true) fun _ => .bind (Q := fun _ => Finished i k) ?_ fun _ =>
      outline_call S i k (Finished.stable S i k) (fun _ => Outer.stable S i k) fun e l hi hp => ?_
  · have hnone : (l.responders i).calls = [] := List.isEmpty_iff.mp hready
    have h := hi.sound i
    have hnot : ∀ k', (l.responders i).handle ≠ .movedTo k' :=
      fun k' hk => by simpa [hnone] using h.moved k' hk
    refine ⟨callerStep_update (workerSees_calls _ _ _) fun k' hk => ⟨?_, fun hk' => ?_⟩, ?_,
      fun G hG => Owner.silent (f := fun r => { r with calls := [k], starting := true })
        (hi.owner G hG) fun _ => ⟨rfl, rfl, rfl, rfl, rfl, rfl, rfl, id, rfl, rfl⟩,
      ⟨?_, ?_, fun _ => ?_⟩, ?_⟩
    · simp [hnone, hk]
    · rw [hnone] at hk'
      cases hk'
    all_goals rw [Lan.update_same]
    · exact sound_calls h (fun _ => List.cons_ne_nil _ _) fun k' hk => absurd hk (hnot k')
    · exact List.mem_cons_self ..
    · exact hnot k
  · unfold startBody
    cases hargs : startArguments addressText interfaceIndex with
    | none =>
      refine .bind (Q := fun _ => Finished i k) (outline_call S i k (Stopped.stable true)
        (fun _ => Finished.stable S i k) fun e l hi hp => ?_) fun _ =>
        .ret false (Finished.stable S i k) fun _ _ h => h
      obtain ⟨hstep, hs, howner, hclosed⟩ := keeps_setState S i k hi hp.1 .error
        (by decide)
      refine ⟨hstep, hs, howner, hclosed.1, ?_, fun h => ?_⟩
      · exact fun h => absurd (hclosed.2.2.2.mp h) (by decide)
      · rw [Lan.update_same] at h
        cases h.2
    | some selected => exact outline_startLocked S i k (hsel selected hargs)
  · obtain ⟨hin, hhandle, hstop⟩ := hp
    have h := hi.sound i
    have hne : ∀ k', (l.responders i).handle = .movedTo k' → k' ≠ k :=
      fun k' hk hkk => hhandle (hkk ▸ hk)
    have hcalls := hin.alone rfl
    refine ⟨callerStep_update (f := fun r => { r with
          calls := r.calls.filter (· != k), starting := false })
        (workerSees_calls _ _ _) fun k' hk => ⟨?_, fun hk' => ?_⟩, ?_,
      fun G hG => Owner.silent (f := fun r => { r with
          calls := r.calls.filter (· != k), starting := false })
        (hi.owner G hG) fun _ => ⟨rfl, rfl, rfl, rfl, rfl, rfl, rfl, id, rfl, rfl⟩, ?_⟩
    · simp [hk]
    · rw [hcalls, List.mem_singleton] at hk'
      exact absurd hk' hk
    · rw [Lan.update_same]
      exact sound_calls h (fun hs => absurd hs hstop)
        fun k' hk => List.mem_filter.mpr ⟨h.moved k' hk, by simpa using hne k' hk⟩
    · simp [Outer]

end Programs

end HarmonyScreen.Proofs.MdnsCalls
