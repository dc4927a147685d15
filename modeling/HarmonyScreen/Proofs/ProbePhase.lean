import Mathlib.Computability.Language
import HarmonyScreen.Lib.Trace
import HarmonyScreen.Proofs.Goodbye
import HarmonyScreen.Proofs.ProbeOthers

namespace HarmonyScreen.Proofs.ProbePhase
open Lib Program Receiver Mdns MdnsResponder MdnsEffects MdnsSections MdnsWorker MdnsRuns
  ProbeSections ProbeOthers Goodbye

variable {n : Nat} {i : Fin n} {l m : Lan n} {e : Outside} {datagram : MdnsDatagram}
  {L L' : Language (Step (Lan n) Outside)} {h : List (Step (Lan n) Outside)}
  {started milliseconds : Nat} {held held' : Option MdnsDatagram}

/-- The section is done with a packet that was received. -/
def Handles (i : Fin n) (x : Step (Lan n) Outside) (p : Packet n) : Prop :=
  (x.before.responders i).handling = some p ∧ (x.after.responders i).handling = none

/-- Nothing that was handled disturbs. -/
def Undisturbed (i : Fin n) (h : List (Step (Lan n) Outside)) : Prop :=
  ∀ x ∈ h, ∀ p, Handles i x p → ¬ Disturbs p.datagram (x.before.responders i).selectedInterface

/-- The section reads the transport clock. -/
def Reads (x : Step (Lan n) Outside) (now : Nat) : Prop := x.learned.now = now ∧ x.after = x.before

/-- What begins with a reading of the clock. -/
def since (started : Nat) : Language (Step (Lan n) Outside) :=
  {h | ∃ x mid, h = x :: mid ∧ Reads x started}

/-- What lasts so long by the clock. -/
def waited (milliseconds : Nat) : Language (Step (Lan n) Outside) :=
  {h | ∃ started now mid x, h = mid ++ [x] ∧ mid ∈ since started ∧ Reads x now ∧
    started + milliseconds ≤ now}

/-- The initial delay. -/
def delayed : Language (Step (Lan n) Outside) :=
  {h | ∃ x rest, h = x :: rest ∧ x.after = x.before ∧ rest ∈ waited
    (max 0 (min x.learned.randomDelay kMaximumInitialProbeDelayMilliseconds)).toNat}

/-- The section hands a probe for the address to the transport, which takes it, and
every other responder with an open socket gets it. -/
def SendsProbe (i : Fin n) (x : Step (Lan n) Outside) : Prop :=
  let probe := buildAProbe (x.before.responders i).selectedInterface.address
  x.learned.sends = true ∧
    (x.after.responders i).handed = (x.before.responders i).handed ++ [probe] ∧
    ∀ j ≠ i, (x.before.responders j).isOpen = true →
      (x.after.responders j).inbox =
        (x.before.responders j).inbox ++ [⟨x.before.datagramOf i probe, some i⟩]

/-- The loop over the probes looks whether it goes on, and a scheduled probe is sent. -/
def scheduled (i : Fin n) : Language (Step (Lan n) Outside) :=
  {h | ∃ y x, h = [y, x] ∧ y.after = y.before ∧ SendsProbe i x}

/-- The delay and so many probes, each with its interval. -/
def afterProbes (i : Fin n) (probes : Nat) : Language (Step (Lan n) Outside) :=
  delayed * (scheduled i * waited kProbeIntervalMilliseconds) ^ probes

/-- A probe phase that was not disturbed. -/
def ProbesCompleted (i : Fin n) (h : List (Step (Lan n) Outside)) : Prop :=
  h ∈ afterProbes i kProbeCount ∧ Undisturbed i h

/-- What holds of the responder and of the sections of its worker: it was announced
only behind a probe phase. -/
def Promised (i : Fin n) (x : Lan n × List (Step (Lan n) Outside)) : Prop :=
  Announced (x.1.responders i) → ∃ phase, phase <+: x.2 ∧ ProbesCompleted i phase

/-- The worker relies on the other threads. -/
abbrev Others (i : Fin n) : Lan n × List (Step (Lan n) Outside) →
    Lan n × List (Step (Lan n) Outside) → Prop :=
  Config.Watches (discipline none) (Leaves i) (.worker i)

theorem others_refl (x : Lan n × List (Step (Lan n) Outside)) : Others i x x :=
  ⟨relies_refl (.worker i) x.1, .refl i _, rfl⟩

theorem Promised.others {x y : Lan n × List (Step (Lan n) Outside)} (h : Promised i x)
    (ho : Others i x y) : Promised i y := by
  intro ha
  rw [ho.2.2]
  exact h (ho.2.1.silent ha)

/-- The worker lives and has not announced the name. -/
def lives (i : Fin n) : Assertion (Others i) (Promised i) where
  holds x := (x.1.responders i).workerLives = true ∧ ¬ Announced (x.1.responders i)
  stable h r := ⟨(r.1.1 h.1).lives, fun ha => h.2 (r.2.1.silent ha)⟩
  safe h ha := absurd ha h.2

/-- A candidate that is still wanted has taken sections in `L`, undisturbed; it holds
the datagram that it has received. -/
def probing (i : Fin n) (L : Language (Step (Lan n) Outside)) (held : Option MdnsDatagram) :
    Assertion (Others i) (Promised i) where
  holds x := ((x.1.responders i).workerLives = true ∧ ¬ Announced (x.1.responders i)) ∧
    (x.1.responders i).handling.map Packet.datagram = held ∧
    ((x.1.responders i).desired = true → x.2 ∈ L ∧ Undisturbed i x.2)
  stable h r := by
    have hrely := r.1.1 h.1.1
    refine ⟨(lives i).stable h.1 r, hrely.handling ▸ h.2.1, fun hd => ?_⟩
    rw [r.2.2]
    exact h.2.2 (hrely.wanted hd).1
  safe h := (lives i).safe h.1

/-- The worker has a probe phase behind it. -/
def passed (i : Fin n) : Assertion (Others i) (Promised i) where
  holds x := (x.1.responders i).workerLives = true ∧
    ∃ phase, phase <+: x.2 ∧ ProbesCompleted i phase
  stable h r := ⟨(r.1.1 h.1).lives, by rw [r.2.2]; exact h.2⟩
  safe h _ := h.2

/-- The worker is about to end. -/
def ending (i : Fin n) : Assertion (Others i) (Promised i) where
  holds x := (x.1.responders i).workerLives = true ∧ Promised i x
  stable h r := ⟨(r.1.1 h.1).lives, h.2.others r⟩
  safe h := h.2

/-- Nothing is left to do; the name is not announced before the worker begins. -/
def resting (i : Fin n) : Assertion (Others i) (Promised i) where
  holds x := Promised i x ∧
    ((x.1.responders i).workerLives = true → ¬ Announced (x.1.responders i))
  stable {x y} h r := by
    refine ⟨h.1.others r, fun hy ha => ?_⟩
    by_cases hx : (x.1.responders i).workerLives = true
    · exact h.2 hx (r.2.1.silent ha)
    · exact r.2.1.launch (by simpa using hx) hy ha
  safe h := h.1

theorem undisturbed_concat {x : Step (Lan n) Outside} (hh : Undisturbed i h)
    (hx : ∀ p, Handles i x p → ¬ Disturbs p.datagram (x.before.responders i).selectedInterface) :
    Undisturbed i (h ++ [x]) := by
  intro y hy p hp
  rcases List.mem_append.mp hy with hy | hy
  · exact hh y hy p hp
  · obtain rfl := List.mem_singleton.mp hy
    exact hx p hp

theorem since_concat (hh : h ∈ L * since started) (x : Step (Lan n) Outside) :
    h ++ [x] ∈ L * since started := by
  obtain ⟨a, ha, b, ⟨y, mid, rfl, hy⟩, rfl⟩ := Language.mem_mul.mp hh
  exact Language.mem_mul.mpr ⟨a, ha, _, ⟨y, mid ++ [x], rfl, hy⟩, by simp⟩

theorem since_now (hh : h ∈ L) {x : Step (Lan n) Outside} (hx : Reads x started) :
    h ++ [x] ∈ L * since started :=
  Language.append_mem_mul hh ⟨x, [], rfl, hx⟩

theorem waited_concat (hh : h ∈ L * since started) {x : Step (Lan n) Outside} {now : Nat}
    (hx : Reads x now) (hle : started + milliseconds ≤ now) :
    h ++ [x] ∈ L * waited milliseconds := by
  obtain ⟨a, ha, b, hb, rfl⟩ := Language.mem_mul.mp hh
  exact Language.mem_mul.mpr ⟨a, ha, _, ⟨started, now, b, x, rfl, hb, hx, hle⟩, by simp⟩

/-- After a section that announces nothing. -/
theorem probing_after {x : Lan n × List (Step (Lan n) Outside)}
    (hx : (probing i L held).holds x) (hs : Silent (x.1.responders i) (m.responders i))
    (hheld : (m.responders i).handling.map Packet.datagram = held')
    (hl : (m.responders i).desired = true → x.2 ∈ L →
      x.2 ++ [⟨x.1, e, m⟩] ∈ L' ∧ ∀ p, Handles i ⟨x.1, e, m⟩ p →
        ¬ Disturbs p.datagram (x.1.responders i).selectedInterface) :
    (probing i L' held').holds (m, x.2 ++ [⟨x.1, e, m⟩]) := by
  refine ⟨⟨hs.lives.trans hx.1.1, fun ha => hx.1.2 (hs.silent ha)⟩, hheld, fun hd => ?_⟩
  obtain ⟨hL, hU⟩ := hx.2.2 (hs.wanted hd)
  obtain ⟨hL', hnew⟩ := hl hd hL
  exact ⟨hL', undisturbed_concat hU hnew⟩

/-- A section that leaves what was received alone handles nothing. -/
theorem not_handles {x : Step (Lan n) Outside}
    (hx : (x.after.responders i).handling = (x.before.responders i).handling) (p : Packet n) :
    ¬ Handles i x p := by
  rintro ⟨hsome, hnone⟩
  rw [hx, hsome] at hnone
  cases hnone

/-- The transport clock is read. -/
theorem triple_now {L' : Nat → Language (Step (Lan n) Outside)}
    (hL : ∀ h ∈ L, ∀ x now, Reads x now → h ++ [x] ∈ L' now) :
    Triple (probing i L held) (nowMilliseconds : Session n Nat).record
      fun now => probing i (L' now) held :=
  .recorded fun _ _ hx => probing_after hx (.refl _) hx.2.1 fun _ hmem =>
    ⟨hL _ hmem _ _ ⟨rfl, rfl⟩, fun p hp => absurd hp (not_handles rfl p)⟩

/-- The worker looks whether it is still wanted. -/
def looks (i : Fin n) (L : Language (Step (Lan n) Outside)) (held : Option MdnsDatagram) :
    Bool → Assertion (Others i) (Promised i)
  | true => probing i L held
  | false => probing i ⊥ held

theorem triple_load (hL : ∀ h ∈ L, ∀ x : Step (Lan n) Outside, x.after = x.before →
      h ++ [x] ∈ L') :
    Triple (probing i L held) (load i (·.desired)).record (looks i L' held) := by
  refine .recorded fun e x hx => ?_
  have hafter : (probing i L' held).holds (x.1, x.2 ++ [⟨x.1, e, x.1⟩]) :=
    probing_after hx (.refl _) hx.2.1 fun hd hmem =>
      ⟨hL _ hmem _ rfl, fun p hp => absurd hp (not_handles rfl p)⟩
  show (looks i L' held (x.1.responders i).desired).holds (x.1, x.2 ++ [⟨x.1, e, x.1⟩])
  cases hd : (x.1.responders i).desired with
  | true => exact hafter
  | false => exact ⟨hafter.1, hafter.2.1, fun h => still h hd⟩

/-- What the worker knows when it has received. -/
def received (i : Fin n) (L : Language (Step (Lan n) Outside)) :
    ReceiveResult → Assertion (Others i) (Promised i)
  | .packet datagram => probing i L (some datagram)
  | _ => probing i L none

theorem handling_receiveLocked (hh : (l.responders i).handling = none) :
    ((receiveLocked i e l).1 = .timeout ∨ (receiveLocked i e l).1 = .error) ∧
        ((receiveLocked i e l).2.responders i).handling = none ∨
      ∃ p : Packet n, (receiveLocked i e l).1 = .packet p.datagram ∧
        ((receiveLocked i e l).2.responders i).handling = some p := by
  unfold receiveLocked
  cases e.received with
  | timeout | error => exact .inl (by simp [hh])
  | foreign datagram => exact .inr ⟨⟨datagram, none⟩, by simp⟩
  | next =>
    dsimp only
    split
    · exact .inl (by simp [hh])
    · rename_i p rest _
      exact .inr ⟨p, by simp⟩

theorem triple_receive (hL : ∀ h ∈ L, ∀ x, h ++ [x] ∈ L) (milliseconds : Nat) :
    Triple (probing i L none) (MdnsResponder.receive i milliseconds).record (received i L) := by
  have hawait : Triple (probing i L none)
      (Program.critical (awaitLocked i milliseconds)).record fun _ => probing i L none :=
    .recorded fun e x hx => by
      have hsame : ((awaitLocked i milliseconds e x.1).2.responders i).handling =
          (x.1.responders i).handling := by
        simp [awaitLocked]
      refine probing_after hx (silent_awaitLocked ..) (hsame ▸ hx.2.1) fun _ hmem => ?_
      exact ⟨hL _ hmem _, fun p hp => absurd hp (not_handles hsame p)⟩
  have hreceive : Triple (probing i L none)
      (Program.critical (receiveLocked i)).record (received i L) := by
    refine .recorded fun e x hx => ?_
    have hnone : (x.1.responders i).handling = none := by simpa using hx.2.1
    -- nothing is in hand before, so nothing is handled here
    have hnew : ∀ p, ¬ Handles i ⟨x.1, e, (receiveLocked i e x.1).2⟩ p := by
      rintro p ⟨hp, -⟩
      simp [hnone] at hp
    have hafter : ∀ held, ((receiveLocked i e x.1).2.responders i).handling.map Packet.datagram =
        held → (probing i L held).holds ((receiveLocked i e x.1).2,
          x.2 ++ [⟨x.1, e, (receiveLocked i e x.1).2⟩]) := fun held hheld =>
      probing_after hx (silent_receiveLocked e x.1) hheld fun _ hmem =>
        ⟨hL _ hmem _, fun p hp => absurd hp (hnew p)⟩
    rcases handling_receiveLocked (e := e) hnone with ⟨hresult, hh⟩ | ⟨p, hresult, hh⟩
    · rcases hresult with hresult | hresult
      · rw [hresult]
        exact hafter none (by simp [hh])
      · rw [hresult]
        exact hafter none (by simp [hh])
    · rw [hresult]
      exact hafter (some p.datagram) (by simp [hh])
  rw [MdnsResponder.receive, record_bind]
  exact hawait.bind others_refl fun _ => hreceive

/-- The datagram is handled; the candidate goes on only if it does not disturb. -/
theorem triple_handle (hL : ∀ h ∈ L, ∀ x, h ++ [x] ∈ L) (datagram : MdnsDatagram) :
    Triple (probing i L (some datagram))
      (Program.critical (handleProbingDatagram i datagram)).record fun _ => probing i L none := by
  refine .recorded fun e x hx => ?_
  refine probing_after hx (silent_handleProbingDatagram datagram e x.1)
    (by simp [handleProbingDatagram, handled]) fun hd hmem => ⟨hL _ hmem _, fun p hp hdist => ?_⟩
  obtain ⟨q, hq, hdatagram⟩ := Option.map_eq_some_iff.mp hx.2.1
  have hpq : p = q := Option.some.inj (hp.1.symm.trans hq)
  subst hpq
  rw [hdatagram] at hdist
  have hgone := unwanted_of_disturbs (e := e) hdist
  simp only [handleProbingDatagram, handled, Lan.update_same] at hd
  exact still hd hgone

theorem triple_receiveFailed :
    Triple (probing i L none) (receiveFailed i).record fun _ => lives i := by
  refine .recorded fun e x hx => ?_
  dsimp only
  split
  · have hs : Silent (x.1.responders i) ((failLocked i x.1).responders i) := by
      simp only [failLocked, Lan.update_same]
      exact silent_withdraw .failed _ (by decide)
    exact ⟨hs.lives.trans hx.1.1, fun ha => hx.1.2 (hs.silent ha)⟩
  · exact hx.1

/-- What `ObserveFor` has seen. -/
def observed (i : Fin n) (L : Language (Step (Lan n) Outside)) :
    Bool → Assertion (Others i) (Promised i)
  | true => probing i L none
  | false => lives i

theorem triple_hang {P Q : Assertion (Others i) (Promised i)} :
    Triple P (hang : Session n Unit).record fun _ => Q :=
  .atomic fun _ _ _ h => by cases h

theorem triple_observeFor (started milliseconds turns : Nat) :
    Triple (probing i (L * since started) none)
      (observeFor i (started + milliseconds) turns).record
      (observed i (L * waited milliseconds)) := by
  induction turns with
  | zero =>
    rw [observeFor, record_bind]
    exact triple_hang.bind (Q := fun _ => lives i) others_refl fun _ => .ret false fun _ h => h
  | succ turns ih =>
    rw [observeFor, record_bind]
    refine (triple_load fun h hh x _ => since_concat hh x).bind others_refl fun desired => ?_
    cases desired with
    | false => exact .ret false fun _ h => h.1
    | true =>
      rw [if_neg (by decide), record_bind]
      -- the reading may be the one that ends the wait
      have hnow : Triple (probing i (L * since started) none)
          (nowMilliseconds : Session n Nat).record fun now => probing i {h | h ∈ L * since started ∧
            (started + milliseconds ≤ now → h ∈ L * waited milliseconds)} none :=
        triple_now fun h hh x now hx => ⟨since_concat hh x, fun hle => waited_concat hh hx hle⟩
      refine hnow.bind others_refl fun now => ?_
      split
      · rename_i hle
        exact .ret true fun x hx => ⟨hx.1, hx.2.1, fun hd =>
          ⟨(hx.2.2 hd).1.2 hle, (hx.2.2 hd).2⟩⟩
      · refine Triple.weaken (P := probing i (L * since started) none) ?_ (fun x hx =>
          ⟨hx.1, hx.2.1, fun hd => ⟨(hx.2.2 hd).1.1, (hx.2.2 hd).2⟩⟩) fun _ _ h => h
        rw [record_bind]
        refine (triple_receive (fun h hh x => since_concat hh x) _).bind others_refl fun result => ?_
        rw [record_bind]
        have hload : ∀ held, Triple (probing i (L * since started) held)
            (load i (·.desired)).record (looks i (L * since started) held) :=
          fun held => triple_load fun h hh x _ => since_concat hh x
        cases result with
        | timeout =>
          refine (hload none).bind others_refl fun desired => ?_
          cases desired with
          | false => exact .ret false fun _ h => h.1
          | true => exact ih
        | error =>
          refine (hload none).bind others_refl fun desired => ?_
          cases desired with
          | false => exact .ret false fun _ h => h.1
          | true =>
            rw [if_neg (by decide), record_bind]
            exact triple_receiveFailed.bind others_refl fun _ => .ret false fun _ h => h
        | packet datagram =>
          refine (hload (some datagram)).bind others_refl fun desired => ?_
          cases desired with
          | false => exact .ret false fun _ h => h.1
          | true =>
            rw [if_neg (by decide), record_bind]
            refine (triple_handle (fun h hh x => since_concat hh x) datagram).bind others_refl
              fun more => ?_
            cases more with
            | false => exact .ret false fun _ h => h.1
            | true => exact ih

/-- `ObserveFor` returns true only when so much time has passed. -/
theorem triple_observe (milliseconds turns : Nat) :
    Triple (probing i L none) (observe i milliseconds turns).record
      (observed i (L * waited milliseconds)) := by
  rw [observe, record_bind]
  exact (triple_now fun h hh x now hx => since_now hh hx).bind others_refl fun started =>
    triple_observeFor started milliseconds turns

/-- What was read before a scheduled probe. -/
def looked : Language (Step (Lan n) Outside) := {h | ∃ y, h = [y] ∧ y.after = y.before}

theorem sendsProbe_probeLocked (h : (probeLocked i e l).1 = true) :
    SendsProbe i ⟨l, e, (probeLocked i e l).2⟩ := by
  have hgone : (!(l.responders i).desired) = false := by
    cases hd : (l.responders i).desired with
    | true => rfl
    | false => simp [probeLocked, hd] at h
  have hsent : e.sends = true := by
    cases he : e.sends with
    | true => rfl
    | false => simp [probeLocked, hgone, orFail, he] at h
  have hprobe : (probeLocked i e l).2 = (sendProbeLocked i e l).2 := by
    simp only [probeLocked, hgone, Bool.false_eq_true, if_false, orFail, sendProbeLocked_sent,
      hsent, if_true]
  rw [hprobe]
  refine ⟨hsent, ?_, fun j hj hopen => ?_⟩
  · dsimp only
    rw [sendProbeLocked_same, if_pos hsent]
    rfl
  · have hreach : (l.responders j).isOpen = true := hopen
    simp [sendProbeLocked, buildAProbe_ne_nil, Lan.send, hsent, hj, Lan.deliver, hreach,
      Lan.datagramOf]

theorem scheduled_concat (hh : h ∈ L * looked) {x : Step (Lan n) Outside}
    (hx : SendsProbe i x) : h ++ [x] ∈ L * scheduled i := by
  obtain ⟨a, ha, b, ⟨y, rfl, hy⟩, rfl⟩ := Language.mem_mul.mp hh
  exact Language.mem_mul.mpr ⟨a, ha, _, ⟨y, x, rfl, hy, hx⟩, by simp⟩

theorem triple_probeLocked :
    Triple (probing i (L * looked) none) (Program.critical (probeLocked i)).record
      (observed i (L * scheduled i)) := by
  refine .recorded fun e x hx => ?_
  have hs := silent_probeLocked (i := i) e x.1
  have hh : ((probeLocked i e x.1).2.responders i).handling = (x.1.responders i).handling := by
    unfold probeLocked
    split
    · rfl
    · exact (quietly_fail (quietly_sendProbeLocked e)).handling
  cases hsent : (probeLocked i e x.1).1 with
  | false => exact ⟨hs.lives.trans hx.1.1, fun ha => hx.1.2 (hs.silent ha)⟩
  | true =>
    refine probing_after hx hs (hh ▸ hx.2.1) fun _ hmem =>
      ⟨scheduled_concat hmem (sendsProbe_probeLocked hsent),
        fun p hp => absurd hp (not_handles hh p)⟩

theorem lives_publishLocked (e : Outside) (l : Lan n) :
    ((publishLocked i e l).2.responders i).workerLives = (l.responders i).workerLives := by
  have hsend : ((orFail i (sendAnnouncementLocked i e l)).2.responders i).workerLives =
      (l.responders i).workerLives := by
    rw [sendAnnouncementLocked_eq]
    exact (quietly_fail (quietly_send _ e)).lives
  unfold publishLocked
  split
  · rfl
  · dsimp only
    split
    · rw [Lan.update_same]
      exact hsend
    · exact hsend

theorem lives_published {x : Bool × Lan n} (h : PublishedOutcome i datagram e l x) :
    (x.2.responders i).workerLives = (l.responders i).workerLives := by
  cases h with
  | ignored more h => rfl
  | query h => exact (step_answer (answerQuery_outcome i datagram e l)).2.lives
  | defended hd =>
    rw [sendAnnouncementLocked_eq]
    exact (quietly_fail (quietly_send _ e)).lives
  | conflict hd ho hk => exact (quietly_conflict true e).lives

theorem lives_handlePublishedDatagram (datagram : MdnsDatagram) (e : Outside) (l : Lan n) :
    ((handlePublishedDatagram i datagram e l).2.responders i).workerLives =
      (l.responders i).workerLives := by
  simp only [handlePublishedDatagram, handled, Lan.update_same]
  exact lives_published (publishedDatagram_outcome i datagram e l)

theorem turning_lives : Turning i fun l m =>
    (m.responders i).workerLives = (l.responders i).workerLives where
  read _ := rfl
  await milliseconds e l := (silent_awaitLocked milliseconds e l).lives
  receive e l := (silent_receiveLocked e l).lives
  fail l := by rw [failLocked, Lan.update_same]; rfl

theorem triple_publishedLoop (turns : Nat) :
    Triple (passed i) (publishedLoop i turns).record fun _ => passed i :=
  .every (turning_lives.every_publishedLoop lives_handlePublishedDatagram turns).record
    fun _ _ hx hg => ⟨hg.1.trans hx.1, hx.2.imp fun _ hp => ⟨hp.1.trans hg.2, hp.2⟩⟩

/-- The name is published behind a probe phase. -/
theorem triple_publishLocked :
    Triple (probing i (afterProbes i kProbeCount) none)
      (Program.critical (publishLocked i)).record
      fun published => match published with
        | true => passed i
        | false => ending i := by
  refine .recorded fun e x hx => ?_
  have hlives : ((publishLocked i e x.1).2.responders i).workerLives = true :=
    (lives_publishLocked e x.1).trans hx.1.1
  cases hd : (x.1.responders i).desired with
  | false =>
    have hnone : publishLocked i e x.1 = (false, x.1) := by
      unfold publishLocked
      rw [if_pos (by simp [hd])]
    rw [hnone]
    exact ⟨hx.1.1, fun ha => absurd ha hx.1.2⟩
  | true =>
    have hphase : ∃ phase, phase <+: x.2 ++ [⟨x.1, e, (publishLocked i e x.1).2⟩] ∧
        ProbesCompleted i phase := ⟨x.2, List.prefix_append _ _, hx.2.2 hd⟩
    cases (publishLocked i e x.1).1 with
    | true => exact ⟨hlives, hphase⟩
    | false => exact ⟨hlives, fun _ => hphase⟩

theorem triple_publish (turns : Nat) :
    Triple (probing i (afterProbes i kProbeCount) none) (publish i turns).record
      fun _ => ending i := by
  rw [publish, record_bind]
  refine triple_publishLocked.bind others_refl fun published => ?_
  cases published with
  | false => exact .ret () fun _ h => h
  | true => exact (triple_publishedLoop turns).weaken (fun _ h => h) fun _ _ h => ⟨h.1, fun _ => h.2⟩

theorem triple_probeLoop (turns probes : Nat) {sent : Nat} (hsent : sent + probes = kProbeCount) :
    Triple (probing i (afterProbes i sent) none) (probeLoop i turns probes).record
      fun _ => ending i := by
  induction probes generalizing sent with
  | zero =>
    obtain rfl : sent = kProbeCount := hsent
    exact triple_publish turns
  | succ probes ih =>
    rw [probeLoop, record_bind]
    have hload : Triple (probing i (afterProbes i sent) none) (load i (·.desired)).record
        (looks i (afterProbes i sent * looked) none) :=
      triple_load fun h hh x hx => Language.append_mem_mul hh ⟨x, rfl, hx⟩
    refine hload.bind others_refl fun desired => ?_
    cases desired with
    | false =>
      exact (triple_publish turns).weaken (fun x hx => ⟨hx.1, hx.2.1, fun hd => (hx.2.2 hd).1.elim⟩)
        fun _ _ h => h
    | true =>
      rw [if_neg (by decide), record_bind]
      refine triple_probeLocked.bind others_refl fun sent' => ?_
      cases sent' with
      | false => exact .ret () fun _ h => ⟨h.1, fun ha => absurd ha h.2⟩
      | true =>
        rw [if_neg (by decide), record_bind]
        refine (triple_observe _ turns).bind others_refl fun more => ?_
        cases more with
        | false => exact .ret () fun _ h => ⟨h.1, fun ha => absurd ha h.2⟩
        | true =>
          have hnext : afterProbes i sent * scheduled i * waited kProbeIntervalMilliseconds =
              afterProbes i (sent + 1) := by
            rw [afterProbes, afterProbes, pow_succ, mul_assoc, mul_assoc]
          exact hnext ▸ ih (by omega)

/-- The section that chooses the initial delay. -/
def chosen (delay : Nat) : Language (Step (Lan n) Outside) :=
  {h | ∃ x, h = [x] ∧ x.after = x.before ∧
    (max 0 (min x.learned.randomDelay kMaximumInitialProbeDelayMilliseconds)).toNat = delay}

theorem delayed_of_chosen {delay : Nat} (hh : h ∈ chosen delay * waited delay) :
    h ∈ afterProbes i 0 := by
  obtain ⟨a, ⟨x, rfl, hx, hdelay⟩, b, hb, rfl⟩ := Language.mem_mul.mp hh
  rw [afterProbes, pow_zero, mul_one]
  exact ⟨x, b, rfl, hx, hdelay ▸ hb⟩

theorem triple_run (turns : Nat) :
    Triple (probing i 1 none) (run i turns).record fun _ => ending i := by
  rw [run, record_bind]
  have hdelay : Triple (probing i 1 none) (Program.critical fun (e : Outside) (l : Lan n) =>
      ((max 0 (min e.randomDelay kMaximumInitialProbeDelayMilliseconds)).toNat, l)).record
      fun delay => probing i (chosen delay) none := by
    refine .recorded fun e x hx => probing_after hx (.refl _) hx.2.1 fun _ hmem => ⟨?_, ?_⟩
    · rw [(Language.mem_one _).mp hmem]
      exact ⟨_, rfl, rfl, rfl⟩
    · exact fun p hp => absurd hp (not_handles rfl p)
  refine hdelay.bind others_refl fun delay => ?_
  rw [record_bind]
  refine (triple_observe delay turns).bind others_refl fun more => ?_
  cases more with
  | false => exact .ret () fun _ h => ⟨h.1, fun ha => absurd ha h.2⟩
  | true =>
    have hloop : Triple (probing i (afterProbes i 0) none)
        (probeLoop i turns kProbeCount).record fun _ => ending i :=
      triple_probeLoop turns kProbeCount rfl
    exact hloop.weaken
      (fun x hx => ⟨hx.1, hx.2.1, fun hd => ⟨delayed_of_chosen (hx.2.2 hd).1, (hx.2.2 hd).2⟩⟩)
      fun _ _ h => h

/-- The worker, from its first section to its last. -/
theorem triple_worker (turns : Nat) :
    Triple (probing i 1 none) (worker i turns).record fun _ => resting i := by
  rw [worker, record_bind]
  refine (triple_run turns).bind others_refl fun _ => .recorded fun e x hx => ?_
  dsimp only
  refine ⟨fun ha => ?_, fun hlives => ?_⟩
  · rw [Lan.update_same] at ha
    obtain ⟨phase, hprefix, hphase⟩ := hx.2 ha
    exact ⟨phase, hprefix.trans (List.prefix_append _ _), hphase⟩
  · rw [Lan.update_same] at hlives
    cases hlives

/-- The runs of the responders with the sections of their threads, whatever they
receive, whatever time it is and whatever fails. -/
abbrev Traced (taken : LanThread n → List (Step (Lan n) Outside))
    (c : Config (LanThread n) (Lan n) Outside) : Prop :=
  Config.Traced Lan.spawn Lan.launched (fun _ _ _ => True) (Config.idle {}) taken c

theorem not_announced_initial : ¬ Announced ({} : MdnsResponder n) := by
  rintro (h | ⟨_, h⟩) <;> cases h

/-- A worker that begins a job has taken no section and its name is not announced. -/
theorem safe_job (job : LanJob) {h : List (Step (Lan n) Outside)} (hr : rest (.worker i) l)
    (hI : (resting i).holds (l, h)) (hlaunched : Lan.launched l (.worker i) job) :
    (Lan.spawn (.worker i) job).record.Safe (Others i) (Promised i)
      (fun _ => (resting i).holds) (l, []) := by
  have hlives : (l.responders i).workerLives = true := hlaunched i rfl
  have hsilent : ¬ Announced (l.responders i) := hI.2 hlives
  have hnothing : (Program.ret () : Session n Unit).record.Safe (Others i) (Promised i)
      (fun _ => (resting i).holds) (l, []) := fun y hy =>
    have hrest := (resting i).stable (s := (l, [])) ⟨fun ha => absurd ha hsilent, fun _ => hsilent⟩ hy
    ⟨hrest.1, hrest⟩
  cases job with
  | run turns =>
    refine triple_worker turns (l, []) ⟨⟨hlives, hsilent⟩, ?_, fun _ => ⟨?_, ?_⟩⟩
    · simp [(hr hlives).1.handling]
    · exact Language.nil_mem_one
    · exact fun x hx => by cases hx
  | _ => exact hnothing

theorem promised {taken : LanThread n → List (Step (Lan n) Outside)}
    {c : Config (LanThread n) (Lan n) Outside} (hc : Traced taken c) (i : Fin n) :
    Promised i (c.state, taken (.worker i)) := by
  have hoffered : Config.Traced Lan.spawn Lan.launched (discipline (n := n) none).offers
      (Config.idle {}) taken c := hc.weaken (fun _ _ _ h => h) fun _ _ _ _ G hG => by cases hG
  refine hoffered.safe (Leaves.refl i) (fun h h' => h.trans h') invariant_initial
    (fun u => rest_stable u) rest_initial (fun u job l hi hr hl => ?_)
    (fun x y hx hy => ⟨(resting i).safe ((resting i).stable hx hy), (resting i).stable hx hy⟩)
    ⟨fun ha => absurd ha not_announced_initial, fun _ => not_announced_initial⟩
    (fun job l h _ hr hI hl => safe_job job hr hI hl) fun u job hu => leaves_others i u job hu
  refine meets_job u job l hi hr ⟨hl, ?_⟩
  cases u <;> cases job <;> first | trivial | exact fun _ _ G hG => by cases hG

/-- The name is published only behind a probe phase that was not disturbed, and a
datagram that is not accepted is done with as if it had not arrived. -/
theorem published_after_probes {taken : LanThread n → List (Step (Lan n) Outside)}
    {c : Config (LanThread n) (Lan n) Outside} (hc : Traced taken c) (i : Fin n) :
    (Announced (c.state.responders i) →
      ∃ phase, phase <+: taken (.worker i) ∧ ProbesCompleted i phase) ∧
    ∀ datagram e l, ¬ (acceptDatagramMetadata datagram (l.responders i).selectedInterface = true ∧
        acceptMessageHopLimit datagram (classifyMessage datagram.bytes) = true) →
      handleProbingDatagram i datagram e l = (true, handled i l) ∧
        handlePublishedDatagram i datagram e l = (true, handled i l) :=
  ⟨promised hc i, fun _ _ _ h => handle_rejected h⟩

/-- A candidate alone on its interface. -/
theorem published_after_probes_alone : ∃ taken, ∃ c : Config (LanThread 1) (Lan 1) Outside,
    Traced taken c ∧ Announced (c.state.responders 0) ∧
      ∃ phase, phase <+: taken (.worker 0) ∧ ProbesCompleted 0 phase := by
  have hrun : (Config.follow Lan.spawn (Placed none) (fun _ => Offered none)
      (startCall (0 : Fin 1) (ascii "192.168.1.10") ++ publishes 0) (Config.idle {})).any
      (fun c => (c.state.responders 0).state = .published) = true := by
    decide
  obtain ⟨c, hc, hpublished⟩ := (Option.any_eq_true _ _).mp hrun
  have hreach : Config.ReachesOffered Lan.spawn (Placed none) (fun _ => Offered none)
      (Config.idle {}) c := Config.ReachesOffered.follow .refl _ hc
  have hlaunched : Config.ReachesOffered Lan.spawn Lan.launched (fun _ _ _ => True)
      (Config.idle {}) c := hreach.weaken (fun _ _ _ h => h.1) fun _ _ _ _ => trivial
  obtain ⟨taken, htaken⟩ := hlaunched.traced
  have hannounced : Announced (c.state.responders 0) := .inl (of_decide_eq_true hpublished)
  exact ⟨taken, c, htaken, hannounced, (published_after_probes htaken 0).1 hannounced⟩

end HarmonyScreen.Proofs.ProbePhase
