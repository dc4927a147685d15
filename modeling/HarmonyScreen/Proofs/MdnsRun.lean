import HarmonyScreen.Proofs.MdnsWorker

namespace HarmonyScreen.Proofs.MdnsRun
open Lib Program Receiver Mdns MdnsResponder MdnsEffects MdnsPackets MdnsOwner MdnsSections
  MdnsWorker

variable {n : Nat} {S : Option (Segment n)} {G : Segment n} {i : Fin n} {l : Lan n}
  {e : Outside} {φ : Phase} {datagram : MdnsDatagram}

theorem owner_await (h : Owner G l) (hl : Sound (l.responders i)) (hfresh : Fresh i l)
    (hnow : e.now = l.clock) {milliseconds : Nat}
    (hms : milliseconds ≤ kPublishedReceiveMilliseconds) :
    Owner G (awaitLocked i milliseconds e l).2 := by
  have hi := h.timely i
  refine Owner.update (f := fun r => { r with waiting := some (e.now + milliseconds) }) h
    ⟨hi.selected, hi.probed, hi.published, hi.closing, fun d hd _ => ?_, hi.packets⟩
    fun _ _ hr => hr
  obtain rfl : e.now + milliseconds = d := by simpa using hd
  rw [hnow]
  by_cases ho : (l.responders i).isOpen = true
  · simp only [ho, if_true]
    omega
  · have hd : (l.responders i).desired = false := by rw [← hl.opens]; simpa using ho
    have := hfresh hd
    simp only [ho, Bool.false_eq_true, if_false]
    omega

/-- A datagram is taken up, from the inbox or from somebody else. -/
theorem got_take (p : Packet n) (rest : List (Packet n)) (hidle : Idle S i φ l)
    (howner : ∀ G ∈ S, Owner G l)
    (hfrom : ∀ G ∈ S, ∀ q, q = p ∨ q ∈ rest →
      q ∈ (l.responders i).inbox ∨ Known G i l.probers q)
    (hkeep : ∀ q ∈ (l.responders i).inbox, q = p ∨ q ∈ rest) :
    WorkerStep i l (l.update i fun r => { r with inbox := rest, handling := some p }) ∧
      (∀ G ∈ S, Owner G (l.update i fun r => { r with inbox := rest, handling := some p })) ∧
      Got S i φ (.packet p.datagram)
        (l.update i fun r => { r with inbox := rest, handling := some p }) := by
  have hstep : WorkerStep i l (l.update i fun r => { r with inbox := rest, handling := some p }) :=
    .update l (effect_private _ _ _ _ _ _)
  refine ⟨hstep, fun G hG => ?_, ⟨?_, ?_, fun _ => ?_⟩, hidle.2.step hstep fun _ => ?_⟩
  · have h := (howner G hG).timely i
    refine Owner.update (f := fun r => { r with inbox := rest, handling := some p }) (howner G hG)
      ⟨h.selected, h.probed, h.published, h.closing, h.waits, fun ho q hq => ?_⟩
      fun j hj hrivals hr hs => ?_
    · rcases hfrom G hG q (by simpa [unhandled] using hq) with hmem | hknown
      · exact h.packets ho q (List.mem_append_right _ hmem)
      · exact hknown
    · rcases hrivals hr hs with ⟨ho, ho', hf, hc⟩ | h | h
      · refine .inl ⟨ho, ho', hf.imp_right fun hface => ?_, hc⟩
        obtain ⟨q, hq, hclaim⟩ := hface
        have hq' : q ∈ (l.responders i).inbox := by simpa [unhandled, hidle.1.handling] using hq
        exact ⟨q, by simpa [unhandled] using hkeep q hq', hclaim⟩
      · exact .inr (.inl h)
      · exact .inr (.inr h)
  all_goals rw [Lan.update_same]
  · exact hidle.1.lives
  · exact hidle.1.waiting
  · exact ⟨p, rfl, rfl⟩

/-- The section in which `Receive` returns. -/
theorem got_receive (hi : Invariant S l) (hw : Waits S i φ l) (ho : Offered S l e) :
    WorkerStep i l (receiveLocked i e l).2 ∧ (∀ G ∈ S, Owner G (receiveLocked i e l).2) ∧
      Got S i φ (receiveLocked i e l).1 (receiveLocked i e l).2 := by
  obtain ⟨⟨hl, hh⟩, hφ⟩ := hw
  have hback : WorkerStep i l (l.update i fun r => { r with waiting := none }) :=
    .update l (effect_private _ _ _ _ _ _)
  have hidle : Idle S i φ (l.update i fun r => { r with waiting := none }) := by
    refine ⟨⟨?_, ?_, ?_⟩, hφ.step hback fun _ => ?_⟩ <;> rw [Lan.update_same]
    · exact hl
    · exact hh
  have howner : ∀ G ∈ S, Owner G (l.update i fun r => { r with waiting := none }) := by
    intro G hG
    have h := (hi.owner G hG).timely i
    exact (hi.owner G hG).update ⟨h.selected, h.probed, h.published, h.closing,
      fun _ hd => (by cases hd), h.packets⟩ fun _ _ hr => hr
  have hinbox : ((l.update i fun r => { r with waiting := none }).responders i).inbox =
      (l.responders i).inbox := by rw [Lan.update_same]
  unfold receiveLocked
  dsimp only
  cases hreceived : e.received with
  | timeout => exact ⟨hback, howner, hidle⟩
  | error => exact ⟨hback, howner, hidle⟩
  | foreign datagram =>
    have htake := got_take ⟨datagram, none⟩
      ((l.update i fun r => { r with waiting := none }).responders i).inbox hidle howner
      (fun G hG q hq => by
        rcases hq with rfl | hq
        · exact .inr (.foreign datagram ((ho G hG).2 datagram hreceived))
        · exact .inl hq)
      (fun q hq => .inr hq)
    exact ⟨hback.trans htake.1, htake.2⟩
  | next =>
    dsimp only
    rw [hinbox]
    cases hin : (l.responders i).inbox with
    | nil => exact ⟨hback, howner, hidle⟩
    | cons p rest =>
      have htake := got_take p rest hidle howner
        (fun G hG q hq => .inl (by rw [hinbox, hin]; exact List.mem_cons.mpr hq))
        (fun q hq => by rw [hinbox, hin] at hq; exact List.mem_cons.mp hq)
      exact ⟨hback.trans htake.1, htake.2⟩

theorem Idle.quietly {m : Lan n} (h : Idle S i φ l) (hstep : WorkerStep i l m)
    (hq : Quietly (l.responders i) (m.responders i)) : Idle S i φ m :=
  ⟨⟨hq.lives.trans h.1.lives, hq.handling.trans h.1.handling, hq.waiting.trans h.1.waiting⟩,
    h.2.step hstep hq.stays⟩

section Programs
variable (i S)

theorem outline_receive {milliseconds : Nat} (hms : milliseconds ≤ kPublishedReceiveMilliseconds) :
    (discipline S).Outline (.worker i) (Looked i (Idle S i φ) true) (receive i milliseconds)
      (Got S i φ) := by
  refine .bind (Q := fun _ => Waits S i φ) (outline_section
    (Looked.stable Idle.stable (fun l h => h.1.lives) true) (fun _ => Waits.stable) ?_)
    fun _ => outline_section Waits.stable Got.stable fun e l hi hw ho => got_receive hi hw ho
  intro e l hi hp ho
  obtain ⟨⟨hready, hφ⟩, hfresh⟩ := hp
  have hstep : WorkerStep i l (awaitLocked i milliseconds e l).2 := by
    refine WorkerStep.update (f := fun r => { r with waiting := some (e.now + milliseconds) }) l ?_
    exact effect_private _ _ _ _ _ _
  refine ⟨hstep, fun G hG => owner_await (hi.owner G hG) (hi.sound i) (hfresh hready)
    (ho G hG).1 hms, ⟨?_, ?_⟩, hφ.step hstep fun _ => ?_⟩
  all_goals
    unfold awaitLocked
    rw [Lan.update_same]
  · exact hready.lives
  · exact hready.handling

/-- A loop that was bounded too low does nothing at its end. -/
theorem outline_hang {P : Lan n → Prop} {Q : Unit → Lan n → Prop}
    (hP : (discipline S).Stable (.worker i) P) :
    (discipline S).Outline (.worker i) P hang Q :=
  .atomic hP fun _ _ _ _ _ hready => (by cases hready)

theorem outline_receiveFailed :
    (discipline S).Outline (.worker i) (Looked i (Idle S i φ) true) (receiveFailed i)
      (fun _ => Idle S i φ) := by
  refine outline_section (Looked.stable Idle.stable (fun l h => h.1.lives) true)
    (fun _ => Idle.stable) fun e l hi hp ho => ?_
  dsimp only
  split
  · rename_i hd
    have hq : Quietly (l.responders i) ((failLocked i l).responders i) := by
      rw [failLocked, Lan.update_same]
      exact ⟨fun hd => (by cases hd), rfl, rfl, rfl⟩
    exact ⟨step_failLocked hd, fun G hG => (hi.owner G hG).failLocked ((hi.sound i).opens ▸ hd) hd,
      Idle.quietly hp.1 (step_failLocked hd) hq⟩
  · exact ⟨.refl i l, hi.owner, hp.1⟩

/-- What the sections that handle a datagram have in common. -/
theorem outline_handle (handle : MdnsDatagram → Outside → Lan n → Bool × Lan n)
    (h : ∀ e l, Sound (l.responders i) → φ.Holds S i l →
      WorkerStep i l (handle datagram e l).2 ∧
        Quietly (l.responders i) ((handle datagram e l).2.responders i))
    (howner : ∀ e l G, Owner G l → Sound (l.responders i) →
      MdnsSections.Holds datagram (l.responders i) → Owner G (handled i (handle datagram e l).2)) :
    (discipline S).Outline (.worker i) (Looked i (Got S i φ (.packet datagram)) true)
      (Program.critical fun e l => ((handle datagram e l).1, handled i (handle datagram e l).2))
      (fun _ => Idle S i φ) := by
  have hlives : ∀ l, Got S i φ (.packet datagram) l → (l.responders i).workerLives = true :=
    fun l h => h.1.1
  refine outline_section (Looked.stable (Got.stable _) hlives true) (fun _ => Idle.stable) fun e l hi hp ho => ?_
  obtain ⟨⟨⟨hl, hw, hh⟩, hφ⟩, -⟩ := hp
  obtain ⟨hstep, hq⟩ := h e l (hi.sound i) hφ
  have hforget : WorkerStep i (handle datagram e l).2 (handled i (handle datagram e l).2) :=
    .update _ (effect_private _ _ _ _ _ _)
  refine ⟨hstep.trans hforget, fun G hG => howner e l G (hi.owner G hG) (hi.sound i) hh,
    ⟨?_, ?_, ?_⟩, (hφ.step hstep hq.stays).step hforget fun _ => ?_⟩
  all_goals rw [handled, Lan.update_same]
  · exact hq.lives.trans hl
  · exact hq.waiting.trans hw

theorem outline_handleProbingDatagram (hφ : φ.state = .probing) :
    (discipline S).Outline (.worker i) (Looked i (Got S i φ (.packet datagram)) true)
      (Program.critical (handleProbingDatagram i datagram)) (fun _ => Idle S i φ) :=
  outline_handle S i (probingDatagram i)
    (fun e l _ h => step_probing (probingDatagram_outcome i datagram e l)
      fun hd => (h hd).1.trans hφ)
    fun e l _ ho hl hheld => owner_probing ho hl (probingDatagram_outcome i datagram e l) hheld

theorem outline_handlePublishedDatagram (hφ : φ.state = .published) :
    (discipline S).Outline (.worker i) (Looked i (Got S i φ (.packet datagram)) true)
      (Program.critical (handlePublishedDatagram i datagram)) (fun _ => Idle S i φ) :=
  outline_handle S i (publishedDatagram i)
    (fun e l hl h => step_published (publishedDatagram_outcome i datagram e l) hl
      fun hd => (h hd).1.trans hφ)
    fun e l _ ho hl hheld => owner_published ho hl (publishedDatagram_outcome i datagram e l) hheld

/-- A fact about the clock beside an assertion. -/
theorem stable_clock {P : Lan n → Prop} (hP : (discipline S).Stable (.worker i) P)
    (hlives : ∀ l, P l → (l.responders i).workerLives = true) (time : Nat) :
    (discipline S).Stable (.worker i) (fun l => P l ∧ ∀ G ∈ S, time ≤ l.clock) :=
  fun l m h hr hi => ⟨hP l m h.1 hr hi, fun G hG =>
    Nat.le_trans (h.2 G hG) (hr.1 (hlives l h.1)).clock⟩

/-- The worker has read the clock. -/
theorem outline_now {P : Lan n → Prop} (hP : (discipline S).Stable (.worker i) P)
    (hlives : ∀ l, P l → (l.responders i).workerLives = true) :
    (discipline S).Outline (.worker i) P nowMilliseconds
      (fun time l => P l ∧ ∀ G ∈ S, time ≤ l.clock) :=
  outline_read hP (stable_clock S i hP hlives) fun _ _ _ hp ho =>
    ⟨hp, fun G hG => Nat.le_of_eq (ho G hG).1⟩

/-- The worker lives, and nothing else is known of it. -/
def Lives (i : Fin n) (l : Lan n) : Prop := (l.responders i).workerLives = true

theorem Lives.stable : (discipline S).Stable (.worker i) (Lives i) :=
  fun _ _ h hr _ => (hr.1 h).lives

/-- The worker after `ObserveFor`: it goes on, or it is about to end. -/
def Observed (S : Option (Segment n)) (i : Fin n) (φ : Phase) (deadline : Nat) :
    Bool → Lan n → Prop
  | true, l => Idle S i φ l ∧ ∀ G ∈ S, deadline ≤ l.clock
  | false, l => Lives i l

theorem Got.lives {result : ReceiveResult} (h : Got S i φ result l) : Lives i l := by
  cases result with
  | packet datagram => exact h.1.1
  | timeout => exact h.1.lives
  | error => exact h.1.lives

theorem outline_observeFor (hφ : φ.state = .probing) (deadline turns : Nat) :
    (discipline S).Outline (.worker i) (Idle S i φ) (observeFor i deadline turns)
      (Observed S i φ deadline) := by
  have hlooked : ∀ desired, (discipline S).Stable (.worker i) (Looked i (Idle S i φ) desired) :=
    Looked.stable Idle.stable fun l h => h.1.lives
  have hend : ∀ P : Lan n → Prop, (discipline S).Stable (.worker i) P → (∀ l, P l → Lives i l) →
      (discipline S).Outline (.worker i) P (.ret false : Session n Bool) (Observed S i φ deadline) :=
    fun P hP h => .ret false hP fun l _ hp => h l hp
  induction turns with
  | zero =>
    exact .bind (Q := fun _ => Lives i) (outline_hang S i Idle.stable) fun _ =>
      hend _ (Lives.stable S i) fun _ h => h
  | succ turns ih =>
    refine .bind (outline_load Idle.stable fun l h => h.1.lives) fun desired => ?_
    cases desired with
    | false => exact hend _ (hlooked false) fun _ h => h.1.1.lives
    | true =>
      refine .bind (outline_now S i (hlooked true) fun l h => h.1.1.lives) fun now => ?_
      by_cases hnow : now ≥ deadline
      · rw [if_pos hnow]
        exact .ret true (stable_clock S i (hlooked true) (fun l h => h.1.1.lives) now)
          fun l _ hp => ⟨hp.1.1, fun G hG => Nat.le_trans hnow (hp.2 G hG)⟩
      · rw [if_neg hnow]
        have hms : min (deadline - now) kReceiveSliceMilliseconds ≤ kPublishedReceiveMilliseconds :=
          Nat.le_trans (Nat.min_le_right _ _) (by decide)
        refine .bind ((outline_receive S i hms).weaken (fun _ _ h => h.1) fun _ _ _ h => h)
          fun result => ?_
        refine .bind (outline_load (Got.stable result) fun _ h => Got.lives S i h)
          fun desired => ?_
        cases desired with
        | false =>
          exact hend _ (Looked.stable (Got.stable result) (fun _ h => Got.lives S i h) false)
            fun _ h => Got.lives S i h.1
        | true =>
          cases result with
          | timeout => exact ih.weaken (fun _ _ h => h.1) fun _ _ _ h => h
          | error =>
            exact .bind (outline_receiveFailed S i) fun _ =>
              hend _ Idle.stable fun _ h => h.1.lives
          | packet datagram =>
            refine .bind (outline_handleProbingDatagram S i hφ) fun more => ?_
            cases more with
            | false => exact hend _ Idle.stable fun _ h => h.1.lives
            | true => exact ih

theorem outline_publishedLoop (hφ : φ.state = .published) (turns : Nat) :
    (discipline S).Outline (.worker i) (Idle S i φ) (publishedLoop i turns) (fun _ => Lives i) := by
  have hend : ∀ P : Lan n → Prop, (discipline S).Stable (.worker i) P → (∀ l, P l → Lives i l) →
      (discipline S).Outline (.worker i) P (.ret () : Session n Unit) (fun _ => Lives i) :=
    fun P hP h => .ret () hP fun l _ hp => h l hp
  induction turns with
  | zero => exact outline_hang S i Idle.stable
  | succ turns ih =>
    refine .bind (outline_load Idle.stable fun l h => h.1.lives) fun desired => ?_
    cases desired with
    | false =>
      exact hend _ (Looked.stable Idle.stable (fun l h => h.1.lives) false) fun _ h => h.1.1.lives
    | true =>
      refine .bind (outline_receive S i (Nat.le_refl _)) fun result => ?_
      refine .bind (outline_load (Got.stable result) fun _ h => Got.lives S i h) fun desired => ?_
      cases desired with
      | false =>
        exact hend _ (Looked.stable (Got.stable result) (fun _ h => Got.lives S i h) false)
          fun _ h => Got.lives S i h.1
      | true =>
        cases result with
        | timeout => exact ih.weaken (fun _ _ h => h.1) fun _ _ _ h => h
        | error =>
          exact (outline_receiveFailed S i).weaken (fun _ _ h => h) fun _ _ _ h => h.1.lives
        | packet datagram =>
          refine .bind (outline_handlePublishedDatagram S i hφ) fun more => ?_
          cases more with
          | false => exact hend _ Idle.stable fun _ h => h.1.lives
          | true => exact ih

/-- The worker goes on in the phase, or is about to end. -/
def GoesOn (S : Option (Segment n)) (i : Fin n) (φ : Phase) : Bool → Lan n → Prop
  | true, l => Idle S i φ l
  | false, l => Lives i l

theorem GoesOn.stable (more : Bool) : (discipline S).Stable (.worker i) (GoesOn S i φ more) := by
  cases more with
  | true => exact Idle.stable
  | false => exact Lives.stable S i

/-- A candidate whose first probe is out for so long. -/
def candidate (elapsed : Option Nat) : Phase := ⟨.probing, elapsed, none⟩

theorem outline_observe (elapsed : Option Nat) (milliseconds turns : Nat) :
    (discipline S).Outline (.worker i) (Idle S i (candidate elapsed)) (observe i milliseconds turns)
      (GoesOn S i (candidate (elapsed.map (· + milliseconds)))) := by
  refine .bind (Q := fun started => Idle S i ⟨.probing, elapsed, some started⟩)
    (outline_read Idle.stable (fun _ => Idle.stable) fun e l _ hp ho => ⟨hp.1, fun hd => ?_⟩)
    fun started => ?_
  · obtain ⟨hs, hrest⟩ := hp.2 hd
    refine ⟨hs, fun b hb => ⟨(hrest b hb).1, fun G hG => ?_⟩⟩
    have hnow := (ho G hG).1
    exact hnow ▸ (hrest b hb).2 G hG
  · refine (outline_observeFor S i rfl (started + milliseconds) turns).weaken (fun _ _ h => h)
      fun done l _ h => ?_
    cases done with
    | false => exact h
    | true =>
      refine ⟨h.1.1, fun hd => ?_⟩
      obtain ⟨hs, hrest⟩ := h.1.2 hd
      refine ⟨hs, fun b hb => ?_⟩
      obtain ⟨b, hb', rfl⟩ := Option.mem_map.mp hb
      refine ⟨(hrest b hb').1, fun G hG => ?_⟩
      have hprobed := (hrest b hb').2 G hG
      have hnow := h.2 G hG
      simp only [candidate, Option.getD_none, Option.getD_some] at hprobed hnow ⊢
      omega

/-- The section that sends a probe. -/
theorem outline_probe (elapsed : Option Nat) :
    (discipline S).Outline (.worker i) (Looked i (Idle S i (candidate elapsed)) true)
      (Program.critical (probeLocked i)) (GoesOn S i (candidate (some (elapsed.getD 0)))) := by
  refine outline_section (Looked.stable Idle.stable (fun l h => h.1.lives) true)
    (fun more => GoesOn.stable S i more) fun e l hi hp ho => ?_
  obtain ⟨hidle, -⟩ := hp
  unfold probeLocked
  cases hd : (l.responders i).desired with
  | false => exact ⟨.refl i l, hi.owner, hidle.1.lives⟩
  | true =>
    have hopen : (l.responders i).isOpen = true := (hi.sound i).opens ▸ hd
    have hstep := step_sendProbeLocked e hd
    have hq := quietly_sendProbeLocked (i := i) (l := l) e
    have hsame := sendProbeLocked_same i l e
    have howner : ∀ G ∈ S, Owner G (sendProbeLocked i e l).2 :=
      fun G hG => ((hi.owner G hG).sendProbeLocked hopen).1
    have hd' : ((sendProbeLocked i e l).2.responders i).desired = true := by
      rw [hsame]
      cases e.sends <;> exact hd
    unfold orFail
    simp only [Bool.not_true, Bool.false_eq_true, if_false, sendProbeLocked_sent]
    cases hsent : e.sends with
    | false =>
      have hopen' : ((sendProbeLocked i e l).2.responders i).isOpen = true := by
        rw [hsame, hsent]
        exact hopen
      refine ⟨hstep.trans (step_failLocked hd'), fun G hG =>
        (howner G hG).failLocked hopen' hd', ?_⟩
      simp only [Bool.false_eq_true, if_false, GoesOn, Lives, failLocked, Lan.update_same]
      exact hq.lives.trans hidle.1.lives
    | true =>
      simp only [if_true]
      refine ⟨hstep, howner, ?_⟩
      rw [sendProbeLocked_sent, hsent]
      refine ⟨(Idle.quietly hidle hstep hq).1, fun hd => ?_⟩
      obtain ⟨hs, hrest⟩ := hidle.2.step hstep hq.stays hd
      refine ⟨hs, fun b hb => ?_⟩
      obtain rfl : elapsed.getD 0 = b := Option.some.inj hb
      have hprobed : ((sendProbeLocked i e l).2.responders i).probed = true := by
        rw [hsame, hsent]
        rfl
      refine ⟨hprobed, fun G hG => ?_⟩
      cases elapsed with
      | none => exact ((howner G hG).timely i).probed hprobed
      | some b => exact (hrest b rfl).2 G hG

/-- The section that publishes. -/
theorem outline_publishLocked {b : Nat} (hb : kProbeCount * kProbeIntervalMilliseconds ≤ b) :
    (discipline S).Outline (.worker i) (Idle S i (candidate (some b)))
      (Program.critical (publishLocked i)) (GoesOn S i ⟨.published, none, none⟩) := by
  refine outline_section Idle.stable (fun more => GoesOn.stable S i more) fun e l hi hp ho => ?_
  unfold publishLocked
  cases hd : (l.responders i).desired with
  | false => exact ⟨.refl i l, hi.owner, hp.1.lives⟩
  | true =>
    have hopen : (l.responders i).isOpen = true := (hi.sound i).opens ▸ hd
    obtain ⟨-, hrest⟩ := hp.2 hd
    obtain ⟨hprobed, htime⟩ := hrest b rfl
    rw [sendAnnouncementLocked_eq]
    have hstep := step_send e hd (not_isGoodbye_record (l.responders i).selectedInterface.address)
    have hsame := Lan.send_same i
      (buildARecord (l.responders i).selectedInterface.address kRecordTtlSeconds) e l
    have howner := fun G hG => ((hi.owner G hG).sendAnnouncementLocked (e := e) hopen).1
    simp only [sendAnnouncementLocked_eq] at howner
    have hsent := Lan.send_sent i
      (buildARecord (l.responders i).selectedInterface.address kRecordTtlSeconds) e l
    generalize l.send i (buildARecord (l.responders i).selectedInterface.address
      kRecordTtlSeconds) e = x at *
    have hd' : (x.2.responders i).desired = true := by rw [hsame]; exact hd
    have hopen' : (x.2.responders i).isOpen = true := by rw [hsame]; exact hopen
    have hprobed' : (x.2.responders i).probed = true := by rw [hsame]; exact hprobed
    unfold orFail
    cases hx : x.1 with
    | false =>
      simp only [Bool.not_true, Bool.false_eq_true, if_false]
      refine ⟨hstep.trans (step_failLocked hd'), fun G hG => (howner G hG).failLocked hopen' hd', ?_⟩
      simp only [GoesOn, Lives, failLocked, Lan.update_same, hsame]
      exact hp.1.lives
    | true =>
      simp only [Bool.not_true, Bool.false_eq_true, if_false, if_true, hx]
      have hown := hstep.trans (WorkerStep.update (f := fun r => { r with state := .published }) x.2
        (effect_publish hd' hprobed'))
      refine ⟨hown, fun G hG => ?_, ⟨?_, ?_, ?_⟩, fun _ => ⟨?_, fun _ hb => (by cases hb)⟩⟩
      · have h := (howner G hG).timely i
        refine Owner.update (f := fun r => { r with state := .published }) (howner G hG)
          ⟨h.selected, h.probed, fun _ => ⟨hprobed', ?_⟩, fun hc => still hopen' hc, h.waits,
            h.packets⟩ fun j _ hr hc hs => hr ⟨hprobed', .inl hopen'⟩ hs
        have htime' := htime G hG
        have hat : (x.2.responders i).probedAt = (l.responders i).probedAt := by rw [hsame]
        rw [hstep.clock]
        simp only [candidate, Option.getD_none, hat] at htime' ⊢
        omega
      all_goals rw [Lan.update_same]
      all_goals rw [hsame]
      · exact hp.1.lives
      · exact hp.1.handling
      · exact hp.1.waiting

theorem outline_publish {b : Nat} (hb : kProbeCount * kProbeIntervalMilliseconds ≤ b)
    (turns : Nat) : (discipline S).Outline (.worker i) (Idle S i (candidate (some b)))
      (publish i turns) (fun _ => Lives i) := by
  refine .bind (outline_publishLocked S i hb) fun published => ?_
  cases published with
  | false => exact .ret () (Lives.stable S i) fun _ _ h => h
  | true => exact outline_publishedLoop S i rfl turns

/-- Each probe that is left takes its interval; behind the last the name is published. -/
theorem outline_probeLoop (turns probes : Nat) (elapsed : Option Nat)
    (hprobes : probes = 0 → elapsed.isSome = true)
    (htime : kProbeCount * kProbeIntervalMilliseconds ≤
      elapsed.getD 0 + probes * kProbeIntervalMilliseconds) :
    (discipline S).Outline (.worker i) (Idle S i (candidate elapsed)) (probeLoop i turns probes)
      (fun _ => Lives i) := by
  induction probes generalizing elapsed with
  | zero =>
    obtain ⟨b, rfl⟩ := Option.isSome_iff_exists.mp (hprobes rfl)
    exact outline_publish S i (by simpa using htime) turns
  | succ probes ih =>
    refine .bind (outline_load Idle.stable fun l h => h.1.lives) fun desired => ?_
    cases desired with
    | false =>
      exact (outline_publish S i (Nat.le_refl _) turns).weaken
        (fun l _ h => ⟨h.1.1, fun hd => still hd h.2⟩) fun _ _ _ h => h
    | true =>
      refine .bind (outline_probe S i elapsed) fun sent => ?_
      cases sent with
      | false => exact .ret () (Lives.stable S i) fun _ _ h => h
      | true =>
        refine .bind (outline_observe S i _ _ _) fun observed => ?_
        cases observed with
        | false => exact .ret () (Lives.stable S i) fun _ _ h => h
        | true =>
          refine ih _ (fun _ => rfl) ?_
          simp only [Option.map_some, Option.getD_some]
          rw [Nat.add_mul, Nat.one_mul] at htime
          omega

theorem outline_run (turns : Nat) :
    (discipline S).Outline (.worker i) (Idle S i (candidate none)) (run i turns)
      (fun _ => Lives i) := by
  refine .bind (outline_read Idle.stable (Q := fun _ => Idle S i (candidate none))
    (fun _ => Idle.stable) fun _ _ _ hp _ => hp) fun delay => ?_
  refine .bind (outline_observe S i none delay turns) fun observed => ?_
  cases observed with
  | false => exact .ret () (Lives.stable S i) fun _ _ h => h
  | true => exact outline_probeLoop S i turns kProbeCount none (by decide) (by decide)

end Programs

end HarmonyScreen.Proofs.MdnsRun
