import HarmonyScreen.Proofs.MdnsSections

namespace HarmonyScreen.Proofs.ProbeSections
open Lib Program Receiver Mdns MdnsResponder MdnsEffects MdnsPackets MdnsSections

variable {n : Nat} {i j : Fin n} {k : Nat} {l m : Lan n} {r s t : MdnsResponder n} {e : Outside}
  {datagram : MdnsDatagram} {x : Bool × Lan n}

/-- The name is published or was announced, since the last successful `Start`. -/
def Announced (r : MdnsResponder n) : Prop :=
  r.state = .published ∨ ∃ address, buildARecord address kRecordTtlSeconds ∈ r.handed

/-- The datagram is accepted, and it is a response with a different address or a
probe with a greater one. -/
def Disturbs (datagram : MdnsDatagram) (selected : MdnsInterface) : Prop :=
  acceptDatagramMetadata datagram selected = true ∧
    acceptMessageHopLimit datagram (classifyMessage datagram.bytes) = true ∧
    (classifyMessage datagram.bytes = .response ∧
        (∃ a ∈ extractARecords datagram.bytes, a ≠ selected.address) ∨
      classifyMessage datagram.bytes = .probe ∧
        ∃ a ∈ extractARecords datagram.bytes, 0 < compareAddresses a selected.address)

theorem probe_ne_announcement (a b : Ipv4Address) :
    buildARecord a kRecordTtlSeconds ≠ buildAProbe b := by
  intro h
  have hclass : classifyMessage (buildARecord a kRecordTtlSeconds) = .response :=
    classify_announcement a
  rw [h, classify_probe] at hclass
  cases hclass

theorem goodbye_ne_announcement (a b : Ipv4Address) :
    buildARecord a kRecordTtlSeconds ≠ buildARecord b 0 :=
  fun h => not_isGoodbye_record a ⟨b, h⟩

/-- A section that does not announce the name. -/
structure Silent (r s : MdnsResponder n) : Prop where
  lives : s.workerLives = r.workerLives
  wanted : s.desired = true → r.desired = true
  silent : Announced s → Announced r

theorem Silent.refl (r : MdnsResponder n) : Silent r r := ⟨rfl, id, id⟩

theorem Silent.trans (h : Silent r s) (h' : Silent s t) : Silent r t :=
  ⟨h'.lives.trans h.lives, fun hd => h.wanted (h'.wanted hd), fun ha => h.silent (h'.silent ha)⟩

theorem Silent.beside (h : Beside r s) : Silent r s := by
  obtain ⟨more, rfl⟩ := h
  exact ⟨rfl, id, id⟩

theorem silent_state {state : MdnsPublisherState} (hs : state ≠ .published) :
    Silent r { r with state := state } :=
  ⟨rfl, id, fun ha => .inr (ha.resolve_left hs)⟩

theorem silent_hand {packet : Bytes}
    (hp : ∀ address, buildARecord address kRecordTtlSeconds ≠ packet) :
    Silent r { r with handed := r.handed ++ [packet] } := by
  refine ⟨rfl, id, ?_⟩
  rintro (hs | ⟨address, hmem⟩)
  · exact .inl hs
  · rcases List.mem_append.mp hmem with hmem | hmem
    · exact .inr ⟨address, hmem⟩
    · exact absurd (List.mem_singleton.mp hmem) (hp address)

theorem silent_withdraw (departure : Departure) (clock : Nat) {state : MdnsPublisherState}
    (hs : state ≠ .published) : Silent r { r.withdraw departure clock with state := state } :=
  ⟨rfl, fun hd => (by cases hd), fun ha => .inr (ha.resolve_left hs)⟩

theorem silent_fail (h : Silent (l.responders i) (x.2.responders i)) :
    Silent (l.responders i) ((orFail i x).2.responders i) := by
  unfold orFail
  split
  · exact h
  · simp only [failLocked, Lan.update_same]
    exact h.trans (silent_withdraw .failed _ (by decide))

theorem silent_sendProbeLocked :
    Silent (l.responders i) ((sendProbeLocked i e l).2.responders i) := by
  rw [sendProbeLocked_same]
  have hhand := silent_hand (r := l.responders i)
    fun a => probe_ne_announcement a (l.responders i).selectedInterface.address
  cases e.sends with
  | false => exact hhand
  | true => exact hhand.trans ⟨rfl, id, id⟩

theorem silent_sendGoodbyeLocked :
    Silent (l.responders i) ((sendGoodbyeLocked i e l).responders i) := by
  by_cases hg : (l.responders i).goodbyeSent = true
  · rw [sendGoodbyeLocked_again i l e hg]
    exact .refl _
  · rw [sendGoodbyeLocked_same i l e (by simpa using hg)]
    exact (silent_hand (r := l.responders i) fun a => goodbye_ne_announcement a _).trans
      ⟨rfl, id, id⟩

theorem silent_conflict :
    Silent (l.responders i) ((conflictLocked i false e l).responders i) := by
  rw [conflictLocked_false, Lan.update_same]
  exact silent_withdraw .conflicted _ (by decide)

theorem silent_probing (h : ProbingOutcome i datagram e l x) :
    Silent (l.responders i) (x.2.responders i) := by
  cases h with
  | ignored more h => exact .refl _
  | lost hd hk ha => exact silent_conflict (e := e)
  | taken hd ho hk => exact silent_conflict
  | defended hd => exact silent_fail silent_sendProbeLocked

theorem silent_handleProbingDatagram (datagram : MdnsDatagram) (e : Outside) (l : Lan n) :
    Silent (l.responders i) ((handleProbingDatagram i datagram e l).2.responders i) := by
  have h := silent_probing (probingDatagram_outcome i datagram e l)
  simp only [handleProbingDatagram, handled, Lan.update_same]
  exact h.trans ⟨rfl, id, id⟩

theorem silent_probeLocked (e : Outside) (l : Lan n) :
    Silent (l.responders i) ((probeLocked i e l).2.responders i) := by
  unfold probeLocked
  split
  · exact .refl _
  · exact silent_fail silent_sendProbeLocked

theorem silent_awaitLocked (milliseconds : Nat) (e : Outside) (l : Lan n) :
    Silent (l.responders i) ((awaitLocked i milliseconds e l).2.responders i) := by
  simp only [awaitLocked, Lan.update_same]
  exact ⟨rfl, id, id⟩

theorem silent_receiveLocked (e : Outside) (l : Lan n) :
    Silent (l.responders i) ((receiveLocked i e l).2.responders i) := by
  unfold receiveLocked
  cases e.received with
  | timeout | error | foreign datagram => simpa using ⟨rfl, id, id⟩
  | next =>
    dsimp only
    split <;> simpa using ⟨rfl, id, id⟩

/-- A greater address is a different one. -/
theorem ne_of_compareAddresses {a b : Ipv4Address} (h : 0 < compareAddresses a b) : a ≠ b := by
  rintro rfl
  exact List.lt_irrefl a.bytes (lt_of_compareBytes h)

/-- After a datagram that disturbs the responder is not wanted. -/
theorem unwanted_of_disturbs (h : Disturbs datagram (l.responders i).selectedInterface) :
    ((probingDatagram i datagram e l).2.responders i).desired = false := by
  obtain ⟨hmeta, hhop, hkind⟩ := h
  have hany : (extractARecords datagram.bytes).any
      (· != (l.responders i).selectedInterface.address) = true := by
    rcases hkind with ⟨-, a, hmem, hne⟩ | ⟨-, a, hmem, hlt⟩
    · exact List.any_eq_true.mpr ⟨a, hmem, by simpa using hne⟩
    · exact List.any_eq_true.mpr ⟨a, hmem, by simpa using ne_of_compareAddresses hlt⟩
  unfold probingDatagram
  dsimp only
  rw [if_neg (by simp [hmeta, hhop]), if_neg (by simp [hany])]
  rcases hkind with ⟨hk, -⟩ | ⟨hk, a, hmem, hlt⟩
  · rw [hk]
    dsimp only
    split
    · rw [conflictLocked_false, Lan.update_same]
      rfl
    · rename_i hd
      simpa using hd
  · have hloses : (extractARecords datagram.bytes).any (fun candidate => decide
        (compareAddresses candidate (l.responders i).selectedInterface.address > 0)) = true :=
      List.any_eq_true.mpr ⟨a, hmem, decide_eq_true hlt⟩
    rw [hk]
    dsimp only
    rw [if_pos hloses]
    split
    · rename_i hd
      simpa using hd
    · simp only [conflictLocked_false, Lan.update_same]
      rfl

/-- What is not accepted is done with at once. -/
theorem handle_rejected (h : ¬ (acceptDatagramMetadata datagram
      (l.responders i).selectedInterface = true ∧
      acceptMessageHopLimit datagram (classifyMessage datagram.bytes) = true)) :
    handleProbingDatagram i datagram e l = (true, handled i l) ∧
      handlePublishedDatagram i datagram e l = (true, handled i l) := by
  have hreject : (!acceptDatagramMetadata datagram (l.responders i).selectedInterface ||
      !acceptMessageHopLimit datagram (classifyMessage datagram.bytes)) = true := by
    rw [← Bool.not_and, Bool.not_eq_true', ← Bool.not_eq_true, Bool.and_eq_true]
    exact h
  constructor
  · simp only [handleProbingDatagram, probingDatagram, if_pos hreject]
  · simp only [handlePublishedDatagram, publishedDatagram, if_pos hreject]

end HarmonyScreen.Proofs.ProbeSections
