import HarmonyScreen.Proofs.MdnsEffects
import HarmonyScreen.Proofs.MdnsPackets

namespace HarmonyScreen.Proofs.MdnsOwner
open Lib Receiver Mdns MdnsResponder MdnsEffects MdnsPackets

variable {n : Nat}

/-- One interface, whose responders have different trusted addresses. -/
structure Segment (n : Nat) where
  address : Fin n → Ipv4Address
  index : Nat
  trusted : ∀ i, isTrustedLanAddress (address i) = true
  distinct : Function.Injective address

/-- A packet of a responder as the others receive it. -/
def Segment.packet (S : Segment n) (i : Fin n) (bytes : Bytes) : Packet n where
  datagram := ⟨bytes, S.address i, kMulticastAddress, kMulticastPort, S.index,
    kRequiredResponseHopLimit⟩
  sender := some i

variable {S : Segment n} {i j k : Fin n} {r s t : MdnsResponder n} {l m : Lan n} {e : Outside}
  {clock : Nat} {probers : List (Fin n)} {p : Packet n}

/-- With such a packet the responder claims the name. -/
def ClaimOf (S : Segment n) (i : Fin n) (p : Packet n) : Prop :=
  p = S.packet i (buildAProbe (S.address i)) ∨
    p = S.packet i (buildARecord (S.address i) kRecordTtlSeconds)

/-- What an open responder may have received and not yet handled. -/
inductive Known (S : Segment n) (i : Fin n) (probers : List (Fin n)) : Packet n → Prop where
  | foreign (datagram : MdnsDatagram)
      (h : classifyMessage datagram.bytes = .query ∨ classifyMessage datagram.bytes = .invalid) :
      Known S i probers ⟨datagram, none⟩
  | goodbye (k : Fin n) (other : k ≠ i) :
      Known S i probers (S.packet k (buildARecord (S.address k) 0))
  | announcement (k : Fin n) (other : k ≠ i) :
      Known S i probers (S.packet k (buildARecord (S.address k) kRecordTtlSeconds))
  | probe (k : Fin n) (other : k ≠ i) (probed : k ∈ probers) :
      Known S i probers (S.packet k (buildAProbe (S.address k)))

theorem Known.mono {more : List (Fin n)} (h : Known S i probers p) (hsub : probers ⊆ more) :
    Known S i more p := by
  cases h with
  | foreign datagram h => exact .foreign datagram h
  | goodbye k other => exact .goodbye k other
  | announcement k other => exact .announcement k other
  | probe k other probed => exact .probe k other (hsub probed)

def unhandled (r : MdnsResponder n) : List (Packet n) := r.handling.toList ++ r.inbox

/-- It has a claim of the other one still to handle. -/
def Faces (S : Segment n) (i : Fin n) (s : MdnsResponder n) : Prop :=
  ∃ p ∈ unhandled s, ClaimOf S i p

/-- It has probed, and it is open or still `Published` while it is stopped. -/
def Contender (r : MdnsResponder n) : Prop :=
  r.probed = true ∧ (r.isOpen = true ∨ r.state = .published)

/-- Of two contenders one has a claim of the other to handle before the clock
advances, or one was closed before the other probed. -/
def Rivals (S : Segment n) (clock : Nat) (i j : Fin n) (r s : MdnsResponder n) : Prop :=
  Contender r → Contender s →
    (r.isOpen = true ∧ s.isOpen = true ∧ (Faces S i s ∨ Faces S j r) ∧
      (r.probedAt = clock ∨ s.probedAt = clock)) ∨
    (r.isOpen = false ∧ r.closedAt ≤ s.probedAt) ∨ (s.isOpen = false ∧ s.closedAt ≤ r.probedAt)

theorem Rivals.symm (h : Rivals S clock i j r s) : Rivals S clock j i s r := by
  intro hs hr
  rcases h hr hs with ⟨ho, ho', hf, hp⟩ | h | h
  · exact .inl ⟨ho', ho, hf.symm, hp.symm⟩
  · exact .inr (.inr h)
  · exact .inr (.inl h)

theorem Faces.beside (h : Faces S i r) (hb : Beside r s) : Faces S i s := by
  obtain ⟨more, rfl⟩ := hb
  obtain ⟨p, hmem, hclaim⟩ := h
  refine ⟨p, ?_, hclaim⟩
  simp only [unhandled, List.mem_append] at hmem ⊢
  tauto

/-- What is delivered to the other one changes nothing. -/
theorem Rivals.beside (h : Rivals S clock i j r s) (hb : Beside s t) : Rivals S clock i j r t := by
  intro hr ht
  have hmore : Faces S i s → Faces S i t := fun hf => hf.beside hb
  obtain ⟨more, rfl⟩ := hb
  rcases h hr ht with ⟨ho, ho', hf, hp⟩ | h | h
  · exact .inl ⟨ho, ho', hf.imp_left hmore, hp⟩
  · exact .inr (.inl h)
  · exact .inr (.inr h)

/-- No contender has a rival. -/
theorem Rivals.of_not (h : ¬ Contender r) : Rivals S clock i j r s := fun hr => absurd hr h

/-- What a responder's own fields say, at this time. -/
structure Timely (S : Segment n) (i : Fin n) (clock : Nat) (probers : List (Fin n))
    (r : MdnsResponder n) : Prop where
  selected : r.isOpen = true → r.selectedInterface = ⟨S.address i, S.index⟩
  probed : r.probed = true → r.probedAt ≤ clock
  published : r.state = .published →
    r.probed = true ∧ r.probedAt + kProbeCount * kProbeIntervalMilliseconds ≤ clock
  closing : r.isOpen = false → r.closedAt ≤ clock ∧
    (r.state = .published → clock ≤ r.closedAt + kPublishedReceiveMilliseconds)
  waits : ∀ d ∈ r.waiting, r.workerLives = true →
    d ≤ (if r.isOpen then clock else r.closedAt) + kPublishedReceiveMilliseconds
  packets : r.isOpen = true → ∀ p ∈ unhandled r, Known S i probers p

/-- The invariant of the interface. -/
structure Owner (S : Segment n) (l : Lan n) : Prop where
  timely : ∀ i, Timely S i l.clock l.probers (l.responders i)
  rivals : ∀ i j, i ≠ j → Rivals S l.clock i j (l.responders i) (l.responders j)
  losers : ∀ x ∈ l.losers, ∃ k ∈ x.2, (S.address x.1).bytes < (S.address k).bytes

theorem Owner.initial : Owner S ({} : Lan n) where
  timely _ := ⟨fun h => (by cases h), fun h => (by cases h), fun h => (by cases h),
    fun _ => ⟨Nat.zero_le _, fun h => (by cases h)⟩, fun _ h => (by cases h), fun h => (by cases h)⟩
  rivals _ _ _ := .of_not fun h => (by cases h.1)
  losers _ h := by cases h

/-- A section that changes one responder alone. -/
theorem Owner.update (h : Owner S l) {f : MdnsResponder n → MdnsResponder n}
    (ht : Timely S i l.clock l.probers (f (l.responders i)))
    (hr : ∀ j, j ≠ i → Rivals S l.clock i j (l.responders i) (l.responders j) →
      Rivals S l.clock i j (f (l.responders i)) (l.responders j)) : Owner S (l.update i f) where
  timely j := by
    by_cases hj : j = i
    · subst hj
      rw [Lan.update_same]
      exact ht
    · rw [Lan.update_other i hj]
      exact h.timely j
  rivals j k hjk := by
    by_cases hj : j = i
    · subst hj
      rw [Lan.update_same, Lan.update_other j (Ne.symm hjk)]
      exact hr k (Ne.symm hjk) (h.rivals j k hjk)
    · by_cases hk : k = i
      · subst hk
        rw [Lan.update_same, Lan.update_other k hjk]
        exact (hr j hjk (h.rivals k j (Ne.symm hjk))).symm
      · rw [Lan.update_other i hj, Lan.update_other i hk]
        exact h.rivals j k hjk
  losers := h.losers

/-- As `Owner.update`, where the responder is no contender afterwards. -/
theorem Owner.leaves (h : Owner S l) {f : MdnsResponder n → MdnsResponder n}
    (ht : Timely S i l.clock l.probers (f (l.responders i)))
    (hr : ¬ Contender (f (l.responders i))) : Owner S (l.update i f) :=
  h.update ht fun _ _ _ => .of_not hr

/-- Every other open responder has a claim of this one to handle. -/
def Answered (S : Segment n) (i : Fin n) (l : Lan n) : Prop :=
  ∀ j, j ≠ i → (l.responders j).isOpen = true → Faces S i (l.responders j)

section Send
variable {packet : Bytes}

theorem datagramOf_packet (h : (l.responders i).selectedInterface = ⟨S.address i, S.index⟩) :
    (⟨l.datagramOf i packet, some i⟩ : Packet n) = S.packet i packet := by
  simp [Lan.datagramOf, Segment.packet, h]

theorem responders_deliver (h : (l.responders i).selectedInterface = ⟨S.address i, S.index⟩)
    (hj : j ≠ i) : (l.deliver i packet).responders j =
      if (l.responders j).isOpen then
        { l.responders j with inbox := (l.responders j).inbox ++ [S.packet i packet] }
      else l.responders j := by
  simp only [Lan.deliver, hj, ne_eq, not_false_eq_true, true_and, datagramOf_packet h]

/-- The packet reaches every other open responder. -/
theorem Owner.deliver (h : Owner S l) (hopen : (l.responders i).isOpen = true)
    (hp : ∀ j, j ≠ i → Known S j l.probers (S.packet i packet)) :
    Owner S (l.deliver i packet) where
  timely j := by
    have hj := h.timely j
    by_cases hji : j = i
    · subst hji
      rw [Lan.deliver_same]
      exact hj
    · rw [responders_deliver ((h.timely i).selected hopen) hji]
      split
      · refine ⟨hj.selected, hj.probed, hj.published, hj.closing, hj.waits, fun ho q hmem => ?_⟩
        simp only [unhandled, ← List.append_assoc] at hmem
        rcases List.mem_append.mp hmem with hmem | hmem
        · exact hj.packets ho q hmem
        · rw [List.mem_singleton.mp hmem]
          exact hp j hji
      · exact hj
  rivals j k hjk := by
    have hbeside : ∀ j, Beside (l.responders j) ((l.deliver i packet).responders j) := by
      intro j
      by_cases hji : j = i
      · subst hji
        rw [Lan.deliver_same]
        exact .refl _
      · exact apart_deliver l packet j hji
    exact (((h.rivals j k hjk).beside (hbeside k)).symm.beside (hbeside j)).symm
  losers := h.losers

theorem Owner.hand (h : Owner S l) :
    Owner S (l.update i fun r => { r with handed := r.handed ++ [packet] }) := by
  have hi := h.timely i
  exact h.update ⟨hi.selected, hi.probed, hi.published, hi.closing, hi.waits, hi.packets⟩
    fun _ _ hr => hr

theorem Owner.send (h : Owner S l) (hopen : (l.responders i).isOpen = true)
    (hp : ∀ j, j ≠ i → Known S j l.probers (S.packet i packet)) (e : Outside) :
    Owner S (l.send i packet e).2 := by
  unfold Lan.send
  cases e.sends with
  | false => exact h.hand
  | true => exact h.hand.deliver (by rw [Lan.update_same]; exact hopen) hp

/-- A claim that was sent is before every other open responder. -/
theorem answered_send (h : Owner S l) (hopen : (l.responders i).isOpen = true)
    (hp : ClaimOf S i (S.packet i packet)) (hsent : e.sends = true) :
    Answered S i (l.send i packet e).2 := by
  intro j hj ho
  have hselected := (h.timely i).selected hopen
  simp only [Lan.send, hsent, if_true] at ho ⊢
  rw [responders_deliver (by rw [Lan.update_same]; exact hselected) hj] at ho ⊢
  split at ho
  · rename_i hopen'
    rw [if_pos hopen']
    exact ⟨_, by simp [unhandled], hp⟩
  · rename_i hclosed
    exact absurd ho hclosed

end Send

/-- A probe is known everywhere once its sender counts among those that probed. -/
theorem Owner.probes (h : Owner S l) (i : Fin n) :
    Owner S { l with probers := l.probers ++ [i] } where
  timely j := by
    have hj := h.timely j
    exact ⟨hj.selected, hj.probed, hj.published, hj.closing, hj.waits,
      fun ho p hmem => (hj.packets ho p hmem).mono (List.subset_append_left _ _)⟩
  rivals := h.rivals
  losers := h.losers

/-- The first probe is before everybody when it is recorded. -/
theorem Owner.markProbed (h : Owner S l) (hopen : (l.responders i).isOpen = true)
    (hanswered : Answered S i l) : Owner S (l.update i (MdnsResponder.markProbed l.clock)) := by
  have hi := h.timely i
  refine h.update ?_ fun j hj hrivals hr hs => ?_
  · refine ⟨hi.selected, fun _ => ?_, fun hs => ?_, hi.closing, hi.waits, hi.packets⟩
    · simp only [MdnsResponder.markProbed]
      split
      · rename_i hp
        exact hi.probed hp
      · exact Nat.le_refl _
    · obtain ⟨hp, hle⟩ := hi.published hs
      simp only [MdnsResponder.markProbed, hp, if_true, true_and]
      exact hle
  · by_cases hp : (l.responders i).probed = true
    · have hat : (MdnsResponder.markProbed l.clock (l.responders i)).probedAt =
          (l.responders i).probedAt := by
        simp [MdnsResponder.markProbed, hp]
      rcases hrivals ⟨hp, .inl hopen⟩ hs with ⟨ho, ho', hf, hc⟩ | ⟨ho, -⟩ | ⟨ho, hc⟩
      · exact .inl ⟨ho, ho', hf, by rwa [hat]⟩
      · rw [hopen] at ho
        cases ho
      · exact .inr (.inr ⟨ho, by rwa [hat]⟩)
    · have hat : (MdnsResponder.markProbed l.clock (l.responders i)).probedAt = l.clock := by
        simp [MdnsResponder.markProbed, hp]
      by_cases ho : (l.responders j).isOpen = true
      · exact .inl ⟨hopen, ho, .inl (hanswered j hj ho), .inl hat⟩
      · rw [Bool.not_eq_true] at ho
        exact .inr (.inr ⟨ho, by rw [hat]; exact ((h.timely j).closing ho).1⟩)

theorem Owner.sendProbeLocked (h : Owner S l) (hopen : (l.responders i).isOpen = true) :
    Owner S (MdnsResponder.sendProbeLocked i e l).2 ∧
      (e.sends = true → Answered S i (MdnsResponder.sendProbeLocked i e l).2) := by
  have hselected := (h.timely i).selected hopen
  cases hsent : e.sends with
  | false =>
    refine ⟨?_, fun h => (by cases h)⟩
    have hnot : (MdnsResponder.sendProbeLocked i e l).2 = (l.update i fun r => { r with
        handed := r.handed ++ [buildAProbe (l.responders i).selectedInterface.address] }) := by
      unfold MdnsResponder.sendProbeLocked
      rw [if_neg (buildAProbe_ne_nil _)]
      simp only [Lan.send, hsent, Bool.false_eq_true, if_false]
    rw [hnot]
    exact h.hand
  | true =>
    have hopen' : (({ l with probers := l.probers ++ [i] } : Lan n).responders i).isOpen = true :=
      hopen
    have hknown : ∀ j, j ≠ i → Known S j (l.probers ++ [i])
        (S.packet i (buildAProbe (S.address i))) :=
      fun j hj => .probe i (Ne.symm hj) (by simp)
    have hsend := (h.probes i).send hopen' hknown e
    have hanswered : Answered S i _ := answered_send (h.probes i) hopen' (.inl rfl) hsent
    have hmark := hsend.markProbed (by rw [Lan.send_same]; exact hopen) hanswered
    have heq : (MdnsResponder.sendProbeLocked i e l).2 = ((({ l with probers := l.probers ++ [i] } :
        Lan n).send i (buildAProbe (S.address i)) e).2.update i
          (MdnsResponder.markProbed l.clock)) := by
      unfold MdnsResponder.sendProbeLocked
      rw [if_neg (buildAProbe_ne_nil _), hselected]
      simp only [Lan.send, hsent, if_true]
      rfl
    rw [Lan.send_clock] at hmark
    rw [heq]
    refine ⟨hmark, fun _ j hj ho => ?_⟩
    rw [Lan.update_other i hj] at ho ⊢
    exact hanswered j hj ho

theorem Owner.sendAnnouncementLocked (h : Owner S l) (hopen : (l.responders i).isOpen = true) :
    Owner S (MdnsResponder.sendAnnouncementLocked i e l).2 ∧
      (e.sends = true → Answered S i (MdnsResponder.sendAnnouncementLocked i e l).2) := by
  rw [sendAnnouncementLocked_eq, (h.timely i).selected hopen]
  exact ⟨h.send hopen (fun j hj => .announcement i (Ne.symm hj)) e,
    answered_send h hopen (.inr rfl)⟩

/-- Fields that the invariant does not look at. -/
theorem Owner.silent (h : Owner S l) {f : MdnsResponder n → MdnsResponder n}
    (hf : ∀ r : MdnsResponder n, (f r).isOpen = r.isOpen ∧
      (f r).selectedInterface = r.selectedInterface ∧ (f r).state = r.state ∧
      (f r).probed = r.probed ∧ (f r).probedAt = r.probedAt ∧ (f r).closedAt = r.closedAt ∧
      (f r).waiting = r.waiting ∧ ((f r).workerLives = true → r.workerLives = true) ∧
      (f r).inbox = r.inbox ∧ (f r).handling = r.handling) : Owner S (l.update i f) := by
  have hi := h.timely i
  obtain ⟨ho, hsel, hst, hp, hpa, hca, hw, hlives, hin, hhand⟩ := hf (l.responders i)
  have hun : unhandled (f (l.responders i)) = unhandled (l.responders i) := by
    rw [unhandled, unhandled, hin, hhand]
  refine h.update ?_ fun j _ hrivals => ?_
  · constructor
    · rw [ho, hsel]
      exact hi.selected
    · rw [hp, hpa]
      exact hi.probed
    · rw [hst, hp, hpa]
      exact hi.published
    · rw [ho, hca, hst]
      exact hi.closing
    · rw [hw, ho, hca]
      exact fun d hd hl => hi.waits d hd (hlives hl)
    · rw [ho, hun]
      exact hi.packets
  · unfold Rivals Contender Faces at hrivals ⊢
    rw [ho, hp, hpa, hca, hst, hun]
    exact hrivals

section Close

/-- A responder that closes and is not `Published` any more has left. -/
theorem Owner.withdraw (h : Owner S l) (departure : Departure) (state : MdnsPublisherState)
    (hopen : (l.responders i).isOpen = true) (hd : (l.responders i).desired = true)
    (hs : state ≠ .published) :
    Owner S (l.update i fun r => { r.withdraw departure l.clock with state := state }) := by
  have hi := h.timely i
  refine h.leaves ?_ fun hc => hc.2.elim (fun ho => (by cases ho)) hs
  refine ⟨fun ho => (by cases ho), hi.probed, fun h => absurd h hs,
    fun _ => ⟨?_, fun h => absurd h hs⟩, fun d hd' hl => ?_, fun ho => (by cases ho)⟩
  · simp [MdnsResponder.withdraw, hd]
  · have := hi.waits d hd' hl
    simpa [MdnsResponder.withdraw, hd, hopen] using this

theorem Owner.failLocked (h : Owner S l) (hopen : (l.responders i).isOpen = true)
    (hd : (l.responders i).desired = true) : Owner S (MdnsResponder.failLocked i l) :=
  h.withdraw .failed .error hopen hd (by decide)

theorem Owner.sendGoodbyeLocked (h : Owner S l) (hopen : (l.responders i).isOpen = true) :
    Owner S (MdnsResponder.sendGoodbyeLocked i e l) := by
  by_cases hg : (l.responders i).goodbyeSent = true
  · rw [sendGoodbyeLocked_again i l e hg]
    exact h
  · rw [sendGoodbyeLocked_eq i l e (by simpa using hg), (h.timely i).selected hopen]
    have hmark : Owner S (l.update i fun r => { r with goodbyeSent := true }) :=
      h.silent fun _ => ⟨rfl, rfl, rfl, rfl, rfl, rfl, rfl, id, rfl, rfl⟩
    exact hmark.send (by rw [Lan.update_same]; exact hopen)
      (fun j hj => .goodbye i (Ne.symm hj)) e

theorem Owner.conflictLocked (h : Owner S l) (hopen : (l.responders i).isOpen = true)
    (hl : Sound (l.responders i)) (hd : (l.responders i).desired = true) (wasPublished : Bool) :
    Owner S (MdnsResponder.conflictLocked i wasPublished e l) := by
  cases wasPublished with
  | false =>
    rw [conflictLocked_false]
    exact h.withdraw .conflicted .conflict hopen hd (by decide)
  | true =>
    have hsame := sendGoodbyeLocked_same i l e (hl.alive hd).1
    have hsend := (h.sendGoodbyeLocked (e := e) hopen).withdraw .conflicted .conflict
      (by rw [hsame]; exact hopen) (by rw [hsame]; exact hd) (by decide)
    rw [conflictLocked_true, ← sendGoodbyeLocked_clock i l e]
    exact hsend

end Close

/-- A packet may be forgotten that was no claim, or was answered. -/
theorem Owner.handled (h : Owner S l)
    (hanswered : (l.responders i).isOpen = true →
      (∀ p ∈ (l.responders i).handling, ∀ k, ¬ ClaimOf S k p) ∨ Answered S i l) :
    Owner S (MdnsResponder.handled i l) := by
  have hi := h.timely i
  have hsub : ∀ p, p ∈ unhandled { l.responders i with handling := none } →
      p ∈ unhandled (l.responders i) := fun p hp => List.mem_append_right _ hp
  refine h.update ⟨hi.selected, hi.probed, hi.published, hi.closing, hi.waits,
    fun ho p hp => hi.packets ho p (hsub p hp)⟩ fun j hj hrivals hr hs => ?_
  rcases hrivals hr hs with ⟨ho, ho', hf, hc⟩ | h | h
  · refine .inl ⟨ho, ho', ?_, hc⟩
    rcases hanswered ho with hno | hall
    · refine hf.imp_right fun ⟨p, hmem, hclaim⟩ => ⟨p, ?_, hclaim⟩
      rcases List.mem_append.mp hmem with hmem | hmem
      · exact absurd hclaim (hno p (Option.mem_toList.mp hmem) j)
      · exact List.mem_append_right _ hmem
    · exact .inl (hall j hj ho')
  · exact .inr (.inl h)
  · exact .inr (.inr h)

end HarmonyScreen.Proofs.MdnsOwner
