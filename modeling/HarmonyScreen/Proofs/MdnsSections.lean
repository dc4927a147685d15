import HarmonyScreen.Proofs.MdnsOwner

namespace HarmonyScreen.Proofs.MdnsSections
open Lib Receiver Mdns MdnsResponder MdnsEffects MdnsPackets MdnsOwner

variable {n : Nat} {i k : Fin n} {l m : Lan n} {r s t : MdnsResponder n} {e : Outside}
  {datagram : MdnsDatagram} {S : Option (Segment n)} {G : Segment n}

/-- The comparison is that of the bytes, the first one first. -/
theorem lt_of_compareBytes {left right : Bytes} (h : 0 < compareBytes left right) :
    right < left := by
  induction left generalizing right with
  | nil => simp [compareBytes] at h
  | cons a left ih =>
    cases right with
    | nil => simp [compareBytes] at h
    | cons b right =>
      rw [compareBytes] at h
      split at h
      · omega
      · split at h
        · rename_i hlt
          exact List.cons_lt_cons_iff.mpr (.inl hlt)
        · rename_i hle hge
          exact List.cons_lt_cons_iff.mpr (.inr ⟨UInt8.le_antisymm (UInt8.not_lt.mp hle)
            (UInt8.not_lt.mp hge), ih h⟩)

/-- The datagram has to be looked at, and says that the name is somebody else's. -/
def Opposes (datagram : MdnsDatagram) (selected : MdnsInterface) : Prop :=
  acceptDatagramMetadata datagram selected = true ∧
    acceptMessageHopLimit datagram (classifyMessage datagram.bytes) = true ∧
    (extractARecords datagram.bytes).any (· != selected.address) = true ∧
    (classifyMessage datagram.bytes = .probe ∨ classifyMessage datagram.bytes = .response)

/-- What a candidate does about a datagram. -/
inductive ProbingOutcome (i : Fin n) (datagram : MdnsDatagram) (e : Outside) (l : Lan n) :
    Bool × Lan n → Prop where
  | ignored (more : Bool) (h : (l.responders i).desired = true →
      more = true ∧ ¬ Opposes datagram (l.responders i).selectedInterface) :
      ProbingOutcome i datagram e l (more, l)
  | lost (hd : (l.responders i).desired = true) (hk : classifyMessage datagram.bytes = .probe)
      (ha : ∃ a ∈ extractARecords datagram.bytes,
        0 < compareAddresses a (l.responders i).selectedInterface.address) :
      ProbingOutcome i datagram e l
        (false, { conflictLocked i false e l with losers := l.losers ++ [(i, l.probers)] })
  | taken (hd : (l.responders i).desired = true)
      (ho : Opposes datagram (l.responders i).selectedInterface)
      (hk : classifyMessage datagram.bytes = .response) :
      ProbingOutcome i datagram e l (false, conflictLocked i false e l)
  | defended (hd : (l.responders i).desired = true) :
      ProbingOutcome i datagram e l (orFail i (sendProbeLocked i e l))

theorem probingDatagram_outcome (i : Fin n) (datagram : MdnsDatagram) (e : Outside) (l : Lan n) :
    ProbingOutcome i datagram e l (probingDatagram i datagram e l) := by
  unfold probingDatagram
  dsimp only
  split
  · rename_i hreject
    exact .ignored true fun _ => ⟨rfl, fun ho => by simp [ho.1, ho.2.1] at hreject⟩
  · rename_i haccept
    simp only [Bool.or_eq_true, Bool.not_eq_true', not_or, Bool.not_eq_false] at haccept
    split
    · rename_i hnone
      exact .ignored true fun _ => ⟨rfl, fun ho => by simp [ho.2.2.1] at hnone⟩
    · rename_i hany
      simp only [Bool.not_eq_true', Bool.not_eq_false] at hany
      cases hk : classifyMessage datagram.bytes with
      | probe =>
        dsimp only
        split
        · rename_i hd
          exact .ignored false fun h => by simp [h] at hd
        · rename_i hd
          simp only [Bool.not_eq_true', Bool.not_eq_false] at hd
          split
          · rename_i hloses
            obtain ⟨a, hmem, hgt⟩ := List.any_eq_true.mp hloses
            exact .lost hd hk ⟨a, hmem, by simpa using hgt⟩
          · exact .defended hd
      | response =>
        dsimp only
        split
        · rename_i hd
          exact .taken hd ⟨haccept.1, haccept.2, hany, .inr hk⟩ hk
        · rename_i hd
          exact .ignored false fun h => absurd h hd
      | query => exact .ignored true fun _ => ⟨rfl, fun ho => by simp [Opposes, hk] at ho⟩
      | invalid => exact .ignored true fun _ => ⟨rfl, fun ho => by simp [Opposes, hk] at ho⟩

theorem allowQueryResponse_eq (now : Nat) (r : MdnsResponder n) :
    ∃ initialized started responses, (allowQueryResponse now r).2 = { r with
      responseWindowInitialized := initialized
      responseWindowStartedMs := started
      responsesInWindow := responses } := by
  unfold allowQueryResponse responseWindow
  dsimp only
  split <;> split <;> exact ⟨_, _, _, rfl⟩

/-- What an owner does about a query. -/
inductive AnswerOutcome (i : Fin n) (e : Outside) (l : Lan n) : Bool × Lan n → Prop where
  | silent : AnswerOutcome i e l (true, l)
  | counted (more : Bool) (h : (l.responders i).desired = true → more = true) :
      AnswerOutcome i e l
        (more, l.update i fun _ => (allowQueryResponse e.now (l.responders i)).2)
  | answered (hd : (l.responders i).desired = true) : AnswerOutcome i e l (orFail i
      ((l.update i fun _ => (allowQueryResponse e.now (l.responders i)).2).send i
        (buildARecord (l.responders i).selectedInterface.address kRecordTtlSeconds) e))

theorem answerQuery_outcome (i : Fin n) (datagram : MdnsDatagram) (e : Outside) (l : Lan n) :
    AnswerOutcome i e l (answerQuery i datagram e l) := by
  have hd : ((l.update i fun _ => (allowQueryResponse e.now (l.responders i)).2).responders
      i).desired = (l.responders i).desired := by
    obtain ⟨_, _, _, hwindow⟩ := allowQueryResponse_eq e.now (l.responders i)
    rw [Lan.update_same, hwindow]
  unfold answerQuery
  dsimp only
  rcases buildAResponse_cases datagram.bytes (l.responders i).selectedInterface.address with h | h
  · rw [if_pos h]
    exact .silent
  · rw [h, if_neg (buildARecord_ne_nil _ _), hd]
    split
    · exact .counted true fun _ => rfl
    · split
      · rename_i hno
        exact .counted false fun h => by simp [h] at hno
      · rename_i hyes
        exact .answered (by simpa using hyes)

/-- What an owner does about a datagram. -/
inductive PublishedOutcome (i : Fin n) (datagram : MdnsDatagram) (e : Outside) (l : Lan n) :
    Bool × Lan n → Prop where
  | ignored (more : Bool) (h : (l.responders i).desired = true →
      more = true ∧ ¬ Opposes datagram (l.responders i).selectedInterface) :
      PublishedOutcome i datagram e l (more, l)
  | query (h : (l.responders i).desired = true →
      ¬ Opposes datagram (l.responders i).selectedInterface) :
      PublishedOutcome i datagram e l (answerQuery i datagram e l)
  | defended (hd : (l.responders i).desired = true) :
      PublishedOutcome i datagram e l (orFail i (sendAnnouncementLocked i e l))
  | conflict (hd : (l.responders i).desired = true)
      (ho : Opposes datagram (l.responders i).selectedInterface)
      (hk : classifyMessage datagram.bytes = .response) :
      PublishedOutcome i datagram e l (false, conflictLocked i true e l)

theorem publishedDatagram_outcome (i : Fin n) (datagram : MdnsDatagram) (e : Outside)
    (l : Lan n) : PublishedOutcome i datagram e l (publishedDatagram i datagram e l) := by
  unfold publishedDatagram
  dsimp only
  split
  · rename_i hreject
    exact .ignored true fun _ => ⟨rfl, fun ho => by simp [ho.1, ho.2.1] at hreject⟩
  · rename_i haccept
    simp only [Bool.or_eq_true, Bool.not_eq_true', not_or, Bool.not_eq_false] at haccept
    split
    · rename_i hany
      split
      · rename_i hd
        exact .ignored false fun h => by simp [h] at hd
      · rename_i hd
        simp only [Bool.not_eq_true', Bool.not_eq_false] at hd
        cases hk : classifyMessage datagram.bytes with
        | probe => exact .defended hd
        | response => exact .conflict hd ⟨haccept.1, haccept.2, hany, .inr hk⟩ hk
        | query => exact .query fun _ ho => by simp [Opposes, hk] at ho
        | invalid => exact .query fun _ ho => by simp [Opposes, hk] at ho
    · rename_i hany
      exact .query fun _ ho => hany ho.2.2.1

/-- A claim of another responder opposes. -/
theorem opposes_claim {p : Packet n} (hsel : r.selectedInterface = ⟨G.address i, G.index⟩)
    (hk : k ≠ i) (hp : ClaimOf G k p) : Opposes p.datagram r.selectedInterface := by
  have hne : G.address k ≠ G.address i := fun h => hk (G.distinct h)
  have htrusted := G.trusted k
  rw [hsel]
  rcases hp with rfl | rfl
  · refine ⟨?_, ?_, ?_, ?_⟩ <;> simp only [Segment.packet]
    · simp [acceptDatagramMetadata, length_buildAProbe, htrusted, kMaximumQueryBytes]
    · simp [acceptMessageHopLimit, classify_probe]
    · simp [extract_probe, hne]
    · exact .inl (classify_probe _)
  · refine ⟨?_, ?_, ?_, ?_⟩ <;> simp only [Segment.packet]
    · simp [acceptDatagramMetadata, length_buildARecord, htrusted, kMaximumQueryBytes]
    · simp [acceptMessageHopLimit, classify_announcement]
    · simp [extract_announcement, hne]
    · exact .inr (classify_announcement _)

/-- What lies before a responder and is a claim comes from another one. -/
theorem known_claim_other {probers : List (Fin n)} {p : Packet n} (h : Known G i probers p)
    (hp : ClaimOf G k p) : k ≠ i := by
  have hsender : p.sender = some k := by rcases hp with rfl | rfl <;> rfl
  cases h with
  | foreign datagram h => cases hsender
  | goodbye j other => exact Option.some.inj hsender ▸ other
  | announcement j other => exact Option.some.inj hsender ▸ other
  | probe j other probed => exact Option.some.inj hsender ▸ other

/-- A probe that beats the responder comes from one that has probed and is greater. -/
theorem known_prober {probers : List (Fin n)} {p : Packet n} (h : Known G i probers p)
    (hk : classifyMessage p.datagram.bytes = .probe) {a : Ipv4Address}
    (ha : a ∈ extractARecords p.datagram.bytes) : ∃ k ∈ probers, a = G.address k := by
  cases h with
  | foreign datagram h => rcases h with h | h <;> rw [hk] at h <;> cases h
  | goodbye j other =>
    rw [Segment.packet, classify_goodbye] at hk
    cases hk
  | announcement j other =>
    rw [Segment.packet, classify_announcement] at hk
    cases hk
  | probe j other probed =>
    rw [Segment.packet, extract_probe] at ha
    exact ⟨j, probed, List.mem_singleton.mp ha⟩

/-- The worker's own fields after a section: a responder that is still wanted is in
the same state. -/
structure Quietly (r s : MdnsResponder n) : Prop where
  stays : s.desired = true → s.state = r.state
  waiting : s.waiting = r.waiting
  handling : s.handling = r.handling
  lives : s.workerLives = r.workerLives

theorem Quietly.refl (r : MdnsResponder n) : Quietly r r := ⟨fun _ => rfl, rfl, rfl, rfl⟩

theorem quietly_fail {x : Bool × Lan n} (h : Quietly (l.responders i) (x.2.responders i)) :
    Quietly (l.responders i) ((orFail i x).2.responders i) := by
  unfold orFail
  split
  · exact h
  · simp only [failLocked, Lan.update_same]
    exact ⟨fun hd => (by cases hd), h.waiting, h.handling, h.lives⟩

theorem quietly_send (packet : Bytes) (e : Outside) :
    Quietly (l.responders i) ((l.send i packet e).2.responders i) := by
  rw [Lan.send_same]
  exact ⟨fun _ => rfl, rfl, rfl, rfl⟩

theorem quietly_sendProbeLocked (e : Outside) :
    Quietly (l.responders i) ((sendProbeLocked i e l).2.responders i) := by
  rw [sendProbeLocked_same]
  cases e.sends <;> exact ⟨fun _ => rfl, rfl, rfl, rfl⟩

theorem quietly_conflict (wasPublished : Bool) (e : Outside) :
    Quietly (l.responders i) ((conflictLocked i wasPublished e l).responders i) := by
  cases wasPublished with
  | false =>
    rw [conflictLocked_false, Lan.update_same]
    exact ⟨fun hd => (by cases hd), rfl, rfl, rfl⟩
  | true =>
    rw [conflictLocked_true, Lan.update_same]
    by_cases hg : (l.responders i).goodbyeSent = true
    · rw [sendGoodbyeLocked_again i l e hg]
      exact ⟨fun hd => (by cases hd), rfl, rfl, rfl⟩
    · rw [sendGoodbyeLocked_same i l e (by simpa using hg)]
      exact ⟨fun hd => (by cases hd), rfl, rfl, rfl⟩

theorem step_answer {x : Bool × Lan n} (h : AnswerOutcome i e l x) :
    WorkerStep i l x.2 ∧ Quietly (l.responders i) (x.2.responders i) := by
  obtain ⟨_, _, _, hwindow⟩ := allowQueryResponse_eq e.now (l.responders i)
  have hcount : WorkerStep i l (l.update i fun _ => (allowQueryResponse e.now (l.responders i)).2) :=
    .update l (by rw [hwindow]; exact effect_private _ _ _ _ _ _)
  have hquiet : Quietly (l.responders i) ((l.update i fun _ =>
      (allowQueryResponse e.now (l.responders i)).2).responders i) := by
    rw [Lan.update_same, hwindow]
    exact ⟨fun _ => rfl, rfl, rfl, rfl⟩
  cases h with
  | silent => exact ⟨.refl i l, .refl _⟩
  | counted more h => exact ⟨hcount, hquiet⟩
  | answered hd =>
    have hd' : ((l.update i fun _ => (allowQueryResponse e.now (l.responders i)).2).responders
        i).desired = true := by
      rw [Lan.update_same, hwindow]
      exact hd
    refine ⟨hcount.trans (step_orFail (step_send e hd' (not_isGoodbye_record _)) ?_), ?_⟩
    · rw [Lan.send_same]
      exact hd'
    · have hsent := quietly_send (i := i)
        (l := l.update i fun _ => (allowQueryResponse e.now (l.responders i)).2)
        (buildARecord (l.responders i).selectedInterface.address kRecordTtlSeconds) e
      exact quietly_fail ⟨fun hd => (hsent.stays hd).trans (hquiet.stays hd'),
        hsent.waiting.trans hquiet.waiting, hsent.handling.trans hquiet.handling,
        hsent.lives.trans hquiet.lives⟩

theorem step_probing {x : Bool × Lan n} (h : ProbingOutcome i datagram e l x)
    (hs : (l.responders i).desired = true → (l.responders i).state = .probing) :
    WorkerStep i l x.2 ∧ Quietly (l.responders i) (x.2.responders i) := by
  cases h with
  | ignored more h => exact ⟨.refl i l, .refl _⟩
  | lost hd hk ha =>
    have hstep := step_conflict_probing e hd (hs hd)
    exact ⟨⟨hstep.apart, hstep.own, hstep.clock⟩, quietly_conflict false e⟩
  | taken hd ho hk => exact ⟨step_conflict_probing e hd (hs hd), quietly_conflict false e⟩
  | defended hd =>
    refine ⟨step_orFail (step_sendProbeLocked e hd) ?_, quietly_fail (quietly_sendProbeLocked e)⟩
    rw [sendProbeLocked_same]
    cases e.sends <;> exact hd

theorem step_published {x : Bool × Lan n} (h : PublishedOutcome i datagram e l x)
    (hl : Sound (l.responders i))
    (hs : (l.responders i).desired = true → (l.responders i).state = .published) :
    WorkerStep i l x.2 ∧ Quietly (l.responders i) (x.2.responders i) := by
  cases h with
  | ignored more h => exact ⟨.refl i l, .refl _⟩
  | query h => exact step_answer (answerQuery_outcome i datagram e l)
  | defended hd =>
    rw [sendAnnouncementLocked_eq]
    refine ⟨step_orFail (step_send e hd (not_isGoodbye_record _)) ?_,
      quietly_fail (quietly_send _ e)⟩
    rw [Lan.send_same]
    exact hd
  | conflict hd ho hk => exact ⟨step_conflict_published e hl hd (hs hd), quietly_conflict true e⟩

/-- The datagram that the worker holds is the one it has received. -/
def Holds (datagram : MdnsDatagram) (r : MdnsResponder n) : Prop :=
  r.desired = true → ∃ p ∈ r.handling, p.datagram = datagram

section Owner
variable {x : Bool × Lan n}

/-- What does not oppose is no claim. -/
theorem no_claim (h : Owner G l) (hl : Sound (l.responders i))
    (hheld : Holds datagram (l.responders i)) (ho : (l.responders i).isOpen = true)
    (hno : (l.responders i).desired = true →
      ¬ Opposes datagram (l.responders i).selectedInterface) :
    ∀ p ∈ (l.responders i).handling, ∀ k, ¬ ClaimOf G k p := by
  intro p hmem k hclaim
  have hd : (l.responders i).desired = true := hl.opens ▸ ho
  obtain ⟨q, hq, rfl⟩ := hheld hd
  obtain rfl : q = p := Option.mem_unique hq hmem
  have hknown := (h.timely i).packets ho q
    (List.mem_append_left _ (Option.mem_toList.mpr hmem))
  exact hno hd (opposes_claim ((h.timely i).selected ho) (known_claim_other hknown hclaim) hclaim)

theorem closed_conflict (wasPublished : Bool) (e : Outside) :
    ((conflictLocked i wasPublished e l).responders i).isOpen = false := by
  cases wasPublished <;> simp [conflictLocked, MdnsResponder.withdraw]

theorem closed_failLocked : ((failLocked i l).responders i).isOpen = false := by
  simp [failLocked, MdnsResponder.withdraw]

/-- A responder that has closed may forget what it holds. -/
theorem owner_handled_closed (h : Owner G m) (hclosed : (m.responders i).isOpen = false) :
    Owner G (handled i m) :=
  h.handled fun ho => by rw [hclosed] at ho; cases ho

/-- Either the answer went out, or the responder has closed. -/
theorem owner_handled_orFail (h : Owner G x.2) (hopen : (x.2.responders i).isOpen = true)
    (hd : (x.2.responders i).desired = true) (hanswered : x.1 = true → Answered G i x.2) :
    Owner G (handled i (orFail i x).2) := by
  unfold orFail
  split
  · rename_i hsent
    exact h.handled fun _ => .inr (hanswered hsent)
  · exact owner_handled_closed (h.failLocked hopen hd) closed_failLocked

theorem owner_probing (h : Owner G l) (hl : Sound (l.responders i))
    (hx : ProbingOutcome i datagram e l x) (hheld : Holds datagram (l.responders i)) :
    Owner G (handled i x.2) := by
  cases hx with
  | ignored more hno =>
    exact h.handled fun ho => .inl (no_claim h hl hheld ho fun hd => (hno hd).2)
  | lost hd hk ha =>
    have ho : (l.responders i).isOpen = true := hl.opens ▸ hd
    have hsel := (h.timely i).selected ho
    obtain ⟨p, hp, rfl⟩ := hheld hd
    obtain ⟨a, ha, hgt⟩ := ha
    obtain ⟨k, hk, rfl⟩ := known_prober ((h.timely i).packets ho p
      (List.mem_append_left _ (Option.mem_toList.mpr hp))) hk ha
    rw [hsel] at hgt
    have hconflict := h.conflictLocked (e := e) ho hl hd false
    have hlost : Owner G { conflictLocked i false e l with
        losers := l.losers ++ [(i, l.probers)] } := by
      refine ⟨hconflict.timely, hconflict.rivals, fun y hy => ?_⟩
      rcases List.mem_append.mp hy with hy | hy
      · exact h.losers y hy
      · rw [List.mem_singleton.mp hy]
        exact ⟨k, hk, lt_of_compareBytes hgt⟩
    exact owner_handled_closed hlost (closed_conflict false e)
  | taken hd ho hk =>
    exact owner_handled_closed (h.conflictLocked (hl.opens ▸ hd) hl hd false) (closed_conflict false e)
  | defended hd =>
    have ho : (l.responders i).isOpen = true := hl.opens ▸ hd
    obtain ⟨howner, hanswered⟩ := h.sendProbeLocked (e := e) ho
    refine owner_handled_orFail howner ?_ ?_ fun hsent => hanswered ?_
    · rw [sendProbeLocked_same]
      cases e.sends <;> exact ho
    · rw [sendProbeLocked_same]
      cases e.sends <;> exact hd
    · rwa [sendProbeLocked_sent] at hsent

/-- An answer to a query keeps the invariant, and what is not a claim is forgotten. -/
theorem owner_answer (h : Owner G l) (hl : Sound (l.responders i)) (hx : AnswerOutcome i e l x)
    (hheld : Holds datagram (l.responders i)) (hno : (l.responders i).desired = true →
      ¬ Opposes datagram (l.responders i).selectedInterface) : Owner G (handled i x.2) := by
  obtain ⟨_, _, _, hwindow⟩ := allowQueryResponse_eq e.now (l.responders i)
  have hcounted : Owner G (l.update i fun _ => (allowQueryResponse e.now (l.responders i)).2) := by
    have hi := h.timely i
    refine h.update ?_ fun j _ hr => ?_ <;> rw [hwindow]
    · exact ⟨hi.selected, hi.probed, hi.published, hi.closing, hi.waits, hi.packets⟩
    · exact hr
  have hsame : (l.update i fun _ => (allowQueryResponse e.now (l.responders i)).2).responders i =
      (allowQueryResponse e.now (l.responders i)).2 := Lan.update_same ..
  cases hx with
  | silent => exact h.handled fun ho => .inl (no_claim h hl hheld ho hno)
  | counted more _ =>
    refine hcounted.handled fun ho => .inl ?_
    rw [hsame, hwindow] at ho ⊢
    exact no_claim h hl hheld ho hno
  | answered hd =>
    have ho : (l.responders i).isOpen = true := hl.opens ▸ hd
    have hopen : ((l.update i fun _ => (allowQueryResponse e.now (l.responders i)).2).responders
        i).isOpen = true := by
      rw [hsame, hwindow]
      exact ho
    rw [(h.timely i).selected ho]
    refine owner_handled_orFail
      (hcounted.send hopen (fun j hj => .announcement i (Ne.symm hj)) e) ?_ ?_ fun hsent => answered_send hcounted hopen (.inr rfl) (by rwa [Lan.send_sent] at hsent)
    · rw [Lan.send_same]
      exact hopen
    · rw [Lan.send_same, hsame, hwindow]
      exact hd

theorem owner_published (h : Owner G l) (hl : Sound (l.responders i))
    (hx : PublishedOutcome i datagram e l x) (hheld : Holds datagram (l.responders i)) :
    Owner G (handled i x.2) := by
  cases hx with
  | ignored more hno =>
    exact h.handled fun ho => .inl (no_claim h hl hheld ho fun hd => (hno hd).2)
  | query hno => exact owner_answer h hl (answerQuery_outcome i datagram e l) hheld hno
  | defended hd =>
    have ho : (l.responders i).isOpen = true := hl.opens ▸ hd
    obtain ⟨howner, hanswered⟩ := h.sendAnnouncementLocked (e := e) ho
    rw [sendAnnouncementLocked_eq] at howner hanswered ⊢
    refine owner_handled_orFail howner ?_ ?_ fun hsent => hanswered (by rwa [Lan.send_sent] at hsent)
    · rw [Lan.send_same]
      exact ho
    · rw [Lan.send_same]
      exact hd
  | conflict hd ho hk =>
    exact owner_handled_closed (h.conflictLocked (hl.opens ▸ hd) hl hd true) (closed_conflict true e)

end Owner

end HarmonyScreen.Proofs.MdnsSections
