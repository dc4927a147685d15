import HarmonyScreen.Receiver.MdnsResponder

namespace HarmonyScreen.Proofs.MdnsEffects
open Lib Program Receiver Mdns MdnsResponder

variable {n : Nat} {i : Fin n} {r s t : MdnsResponder n} {l m : Lan n} {e : Outside}

/-- A responder that something was delivered to, at most. -/
def Beside (r s : MdnsResponder n) : Prop := ∃ more, s = { r with inbox := r.inbox ++ more }

theorem Beside.refl (r : MdnsResponder n) : Beside r r := ⟨[], by simp⟩

theorem Beside.trans (h : Beside r s) (h' : Beside s t) : Beside r t := by
  obtain ⟨more, rfl⟩ := h
  obtain ⟨rest, rfl⟩ := h'
  exact ⟨more ++ rest, by simp⟩

/-- The others are left alone, apart from what is delivered to them. -/
def Apart (i : Fin n) (l m : Lan n) : Prop :=
  ∀ j, j ≠ i → Beside (l.responders j) (m.responders j)

theorem Apart.refl (i : Fin n) (l : Lan n) : Apart i l l := fun _ _ => .refl _

theorem Apart.trans {m' : Lan n} (h : Apart i l m) (h' : Apart i m m') : Apart i l m' :=
  fun j hj => (h j hj).trans (h' j hj)

theorem apart_update (l : Lan n) (f : MdnsResponder n → MdnsResponder n) :
    Apart i l (l.update i f) := by
  intro j hj
  rw [Lan.update_other i hj]
  exact .refl _

theorem apart_deliver (l : Lan n) (packet : Bytes) : Apart i l (l.deliver i packet) := by
  intro j _
  by_cases h : j ≠ i ∧ (l.responders j).isOpen = true
  · refine ⟨[⟨l.datagramOf i packet, some i⟩], ?_⟩
    simp only [Lan.deliver, if_pos h]
  · refine ⟨[], ?_⟩
    simp only [Lan.deliver, if_neg h, List.append_nil]

theorem apart_send (l : Lan n) (packet : Bytes) (e : Outside) :
    Apart i l (l.send i packet e).2 := by
  have hhand : Apart i l (l.update i fun r => { r with handed := r.handed ++ [packet] }) :=
    apart_update l _
  unfold Lan.send
  cases e.sends with
  | false => exact hhand
  | true => exact hhand.trans (apart_deliver _ packet)

/-- It left `Published` because of a stop or a conflict. -/
def Withdrawn (d : Option Departure) : Prop := d = some .stopped ∨ d = some .conflicted

/-- Exactly one goodbye was handed over when the name was withdrawn, and nothing
behind it; none otherwise. -/
def Accounted (r : MdnsResponder n) : Prop :=
  (Withdrawn r.departure ∧ ∃ earlier, r.handed = earlier ++ [buildARecord r.startedAddress 0] ∧
    ∀ p ∈ earlier, ¬ IsGoodbye p) ∨
  (¬ Withdrawn r.departure ∧ ∀ p ∈ r.handed, ¬ IsGoodbye p)

/-- What every section keeps true of a responder. -/
structure Sound (r : MdnsResponder n) : Prop where
  alive : r.desired = true → r.goodbyeSent = false ∧ r.departure = none ∧
    r.startedAddress = r.selectedInterface.address ∧
    (r.state = .probing ∨ r.state = .published ∧ r.probed = true)
  gone : r.state = .published → r.desired = false →
    r.goodbyeSent = true ∧ r.departure ≠ none ∧ r.calls ≠ []
  opens : r.isOpen = r.desired
  accounted : Accounted r
  owned : r.workerLives = true → r.handle ≠ .none
  moved : ∀ k, r.handle = .movedTo k → k ∈ r.calls

theorem Sound.initial : Sound ({} : MdnsResponder n) where
  alive h := by cases h
  gone h := by cases h
  opens := rfl
  accounted := .inr ⟨fun h => by cases h <;> contradiction, fun _ h => by cases h⟩
  owned h := by cases h
  moved _ h := by cases h

theorem Sound.beside (hr : Sound r) (h : Beside r s) : Sound s := by
  obtain ⟨more, rfl⟩ := h
  exact ⟨hr.alive, hr.gone, hr.opens, hr.accounted, hr.owned, hr.moved⟩

/-- While the responder is wanted no goodbye was handed over. -/
theorem Sound.silent (hr : Sound r) (hd : r.desired = true) : ∀ p ∈ r.handed, ¬ IsGoodbye p := by
  have hnone := (hr.alive hd).2.1
  rcases hr.accounted with ⟨hw, -⟩ | ⟨-, h⟩
  · rw [hnone] at hw
    cases hw <;> contradiction
  · exact h

theorem silent_concat {handed : List Bytes} {packet : Bytes} (h : ∀ p ∈ handed, ¬ IsGoodbye p)
    (hp : ¬ IsGoodbye packet) : ∀ p ∈ handed ++ [packet], ¬ IsGoodbye p := by
  intro p hmem
  rcases List.mem_append.mp hmem with hmem | hmem
  · exact h p hmem
  · rw [List.mem_singleton.mp hmem]
    exact hp

theorem not_withdrawn_none : ¬ Withdrawn none := by rintro (h | h) <;> cases h

theorem still {d : Bool} {p : Prop} (h : d = true) (h' : d = false) : p := by
  rw [h] at h'
  cases h'

/-- What the worker may do to its responder. -/
structure WorkerEffect (r s : MdnsResponder n) : Prop where
  calls : s.calls = r.calls
  starting : s.starting = r.starting
  handle : s.handle = r.handle
  selected : s.selectedInterface = r.selectedInterface
  lives : s.workerLives = true → r.workerLives = true
  idle : r.desired = false → s.desired = false ∧ s.state = r.state
  closes : r.desired = true → s.desired = false → s.state ≠ .published
  probed : r.probed = true → s.probed = true ∧ s.probedAt = r.probedAt
  sound : Sound r → Sound s

theorem WorkerEffect.refl (r : MdnsResponder n) : WorkerEffect r r :=
  ⟨rfl, rfl, rfl, rfl, id, fun h => ⟨h, rfl⟩, still,
    fun h => ⟨h, rfl⟩, id⟩

theorem WorkerEffect.trans (h : WorkerEffect r s) (h' : WorkerEffect s t) : WorkerEffect r t where
  calls := h'.calls.trans h.calls
  starting := h'.starting.trans h.starting
  handle := h'.handle.trans h.handle
  selected := h'.selected.trans h.selected
  lives ht := h.lives (h'.lives ht)
  idle hd := ⟨(h'.idle (h.idle hd).1).1, (h'.idle (h.idle hd).1).2.trans (h.idle hd).2⟩
  closes hd ht := by
    by_cases hs : s.desired = true
    · exact h'.closes hs ht
    · rw [Bool.not_eq_true] at hs
      rw [(h'.idle hs).2]
      exact h.closes hd hs
  probed hp := ⟨(h'.probed (h.probed hp).1).1,
    (h'.probed (h.probed hp).1).2.trans (h.probed hp).2⟩
  sound hr := h'.sound (h.sound hr)

theorem WorkerEffect.wanted (h : WorkerEffect r s) (hs : s.desired = true) : r.desired = true := by
  by_contra hr
  rw [(h.idle (Bool.not_eq_true _ ▸ hr)).1] at hs
  cases hs

/-- What was received and handled, and the window of the responses, are the worker's own. -/
theorem effect_private (inbox : List (Packet n)) (handling : Option (Packet n))
    (waiting : Option Nat) (initialized : Bool) (started responses : Nat) :
    WorkerEffect r { r with
      inbox := inbox
      handling := handling
      waiting := waiting
      responseWindowInitialized := initialized
      responseWindowStartedMs := started
      responsesInWindow := responses } :=
  ⟨rfl, rfl, rfl, rfl, id, fun h => ⟨h, rfl⟩, still, fun h => ⟨h, rfl⟩,
    fun h => ⟨h.alive, h.gone, h.opens, h.accounted, h.owned, h.moved⟩⟩

theorem effect_ended : WorkerEffect r { r with workerLives := false } :=
  ⟨rfl, rfl, rfl, rfl, fun h => (by cases h), fun h => ⟨h, rfl⟩, still, fun h => ⟨h, rfl⟩,
    fun h => ⟨h.alive, h.gone, h.opens, h.accounted, fun hl => (by cases hl), h.moved⟩⟩

/-- A packet that is no goodbye is handed over while the responder is wanted. -/
theorem effect_hand (hd : r.desired = true) {packet : Bytes} (hp : ¬ IsGoodbye packet) :
    WorkerEffect r { r with handed := r.handed ++ [packet] } := by
  refine ⟨rfl, rfl, rfl, rfl, id, fun h => ⟨h, rfl⟩, still, fun h => ⟨h, rfl⟩, fun h => ?_⟩
  refine ⟨h.alive, h.gone, h.opens, .inr ⟨?_, silent_concat (h.silent hd) hp⟩, h.owned, h.moved⟩
  simp only [(h.alive hd).2.1]
  exact not_withdrawn_none

theorem effect_markProbed (clock : Nat) : WorkerEffect r (r.markProbed clock) := by
  refine ⟨rfl, rfl, rfl, rfl, id, fun h => ⟨h, rfl⟩, still, fun h => ⟨rfl, by simp [markProbed, h]⟩,
    fun h => ?_⟩
  refine ⟨fun hd => ?_, h.gone, h.opens, h.accounted, h.owned, h.moved⟩
  obtain ⟨hg, hn, ha, hs⟩ := h.alive hd
  exact ⟨hg, hn, ha, hs.imp_right fun hs => ⟨hs.1, rfl⟩⟩

/-- The responder closes because something failed. -/
theorem effect_fail (hd : r.desired = true) (clock : Nat) :
    WorkerEffect r { r.withdraw .failed clock with state := .error } := by
  refine ⟨rfl, rfl, rfl, rfl, id, fun h => ?_, fun _ _ h => (by cases h), fun h => ⟨h, rfl⟩,
    fun h => ?_⟩
  · rw [hd] at h
    cases h
  · refine ⟨fun h => (by cases h), fun h => (by cases h), rfl, .inr ⟨?_, h.silent hd⟩, h.owned, h.moved⟩
    have hn := (h.alive hd).2.1
    simp only [withdraw, leaving, hn]
    split
    · rintro (h | h) <;> cases h
    · exact not_withdrawn_none

/-- A candidate that loses says no goodbye. -/
theorem effect_conflict_probing (hd : r.desired = true) (hs : r.state = .probing) (clock : Nat) :
    WorkerEffect r { r.withdraw .conflicted clock with state := .conflict } := by
  refine ⟨rfl, rfl, rfl, rfl, id, fun h => ?_, fun _ _ h => (by cases h), fun h => ⟨h, rfl⟩,
    fun h => ?_⟩
  · rw [hd] at h
    cases h
  · refine ⟨fun h => (by cases h), fun h => (by cases h), rfl, .inr ⟨?_, h.silent hd⟩, h.owned, h.moved⟩
    simp only [withdraw, leaving, hs, (h.alive hd).2.1]
    exact not_withdrawn_none

/-- An owner that meets a conflict says its goodbye. -/
theorem effect_conflict_published (hd : r.desired = true) (hs : r.state = .published)
    (clock : Nat) :
    WorkerEffect r { withdraw .conflicted clock { r with
        goodbyeSent := true
        handed := r.handed ++ [buildARecord r.selectedInterface.address 0] } with
      state := .conflict } := by
  refine ⟨rfl, rfl, rfl, rfl, id, fun h => ?_, fun _ _ h => (by cases h), fun h => ⟨h, rfl⟩,
    fun h => ?_⟩
  · rw [hd] at h
    cases h
  · obtain ⟨-, hn, ha, -⟩ := h.alive hd
    refine ⟨fun h => (by cases h), fun h => (by cases h), rfl,
      .inl ⟨?_, r.handed, by rw [← ha]; rfl, h.silent hd⟩, h.owned, h.moved⟩
    simp [Withdrawn, withdraw, leaving, hs, hn]

/-- A candidate that has probed becomes the owner. -/
theorem effect_publish (hd : r.desired = true) (hp : r.probed = true) :
    WorkerEffect r { r with state := .published } := by
  refine ⟨rfl, rfl, rfl, rfl, id, fun h => ?_, still,
    fun h => ⟨h, rfl⟩, fun h => ?_⟩
  · rw [hd] at h
    cases h
  · obtain ⟨hg, hn, ha, -⟩ := h.alive hd
    refine ⟨fun _ => ⟨hg, hn, ha, .inr ⟨rfl, hp⟩⟩, fun _ h => ?_, h.opens, h.accounted, h.owned, h.moved⟩
    rw [show r.desired = false from h] at hd
    cases hd

/-- A section of the worker, as the whole interface sees it. -/
structure WorkerStep (i : Fin n) (l m : Lan n) : Prop where
  apart : Apart i l m
  own : WorkerEffect (l.responders i) (m.responders i)
  clock : m.clock = l.clock

theorem WorkerStep.refl (i : Fin n) (l : Lan n) : WorkerStep i l l := ⟨.refl i l, .refl _, rfl⟩

theorem WorkerStep.trans {m' : Lan n} (h : WorkerStep i l m) (h' : WorkerStep i m m') :
    WorkerStep i l m' :=
  ⟨h.apart.trans h'.apart, h.own.trans h'.own, h'.clock.trans h.clock⟩

theorem WorkerStep.update {f : MdnsResponder n → MdnsResponder n} (l : Lan n)
    (h : WorkerEffect (l.responders i) (f (l.responders i))) : WorkerStep i l (l.update i f) :=
  ⟨apart_update l f, by rwa [Lan.update_same], rfl⟩

section Sections
variable (i l e)

@[simp] theorem sendProbeLocked_sent : (sendProbeLocked i e l).1 = e.sends := by
  unfold sendProbeLocked
  rw [if_neg (buildAProbe_ne_nil _)]
  cases h : e.sends <;> simp [h]

@[simp] theorem sendProbeLocked_same :
    (sendProbeLocked i e l).2.responders i =
      (if e.sends then markProbed l.clock else id) { l.responders i with
        handed := (l.responders i).handed ++
          [buildAProbe (l.responders i).selectedInterface.address] } := by
  unfold sendProbeLocked
  rw [if_neg (buildAProbe_ne_nil _)]
  cases h : e.sends
  · simp [h]
  · simp only [Lan.send_sent, h, if_true, Lan.send_clock]
    rw [← Lan.send_same i _ e l]
    exact Lan.update_same i _ _

@[simp] theorem sendAnnouncementLocked_eq : sendAnnouncementLocked i e l =
    l.send i (buildARecord (l.responders i).selectedInterface.address kRecordTtlSeconds) e := by
  unfold sendAnnouncementLocked
  rw [if_neg (buildARecord_ne_nil _ _)]

theorem sendGoodbyeLocked_eq (h : (l.responders i).goodbyeSent = false) :
    sendGoodbyeLocked i e l = ((l.update i fun r => { r with goodbyeSent := true }).send i
      (buildARecord (l.responders i).selectedInterface.address 0) e).2 := by
  unfold sendGoodbyeLocked
  rw [if_neg (by simp [h])]
  dsimp only
  rw [if_neg (buildARecord_ne_nil _ _), Lan.update_same]

theorem sendGoodbyeLocked_same (h : (l.responders i).goodbyeSent = false) :
    (sendGoodbyeLocked i e l).responders i = { l.responders i with
      goodbyeSent := true
      handed := (l.responders i).handed ++
        [buildARecord (l.responders i).selectedInterface.address 0] } := by
  rw [sendGoodbyeLocked_eq i l e h, Lan.send_same, Lan.update_same]

theorem sendGoodbyeLocked_again (h : (l.responders i).goodbyeSent = true) :
    sendGoodbyeLocked i e l = l := by
  unfold sendGoodbyeLocked
  rw [if_pos h]

theorem apart_sendGoodbyeLocked : Apart i l (sendGoodbyeLocked i e l) := by
  by_cases h : (l.responders i).goodbyeSent = true
  · rw [sendGoodbyeLocked_again i l e h]
    exact .refl i l
  · rw [sendGoodbyeLocked_eq i l e (by simpa using h)]
    exact (apart_update l _).trans (apart_send _ _ e)

@[simp] theorem sendGoodbyeLocked_clock : (sendGoodbyeLocked i e l).clock = l.clock := by
  by_cases h : (l.responders i).goodbyeSent = true
  · rw [sendGoodbyeLocked_again i l e h]
  · rw [sendGoodbyeLocked_eq i l e (by simpa using h), Lan.send_clock, Lan.update_clock]

theorem conflictLocked_false : conflictLocked i false e l =
    l.update i fun r => { r.withdraw .conflicted l.clock with state := .conflict } := rfl

theorem conflictLocked_true : conflictLocked i true e l =
    (sendGoodbyeLocked i e l).update i fun r =>
      { r.withdraw .conflicted l.clock with state := .conflict } := by
  rw [← sendGoodbyeLocked_clock i l e]
  rfl

variable {i l}

theorem step_send (hd : (l.responders i).desired = true) {packet : Bytes}
    (hp : ¬ IsGoodbye packet) : WorkerStep i l (l.send i packet e).2 :=
  ⟨apart_send l packet e, by rw [Lan.send_same]; exact effect_hand hd hp, Lan.send_clock ..⟩

theorem step_sendProbeLocked (hd : (l.responders i).desired = true) :
    WorkerStep i l (sendProbeLocked i e l).2 := by
  have hsend := step_send e hd (not_isGoodbye_probe (l.responders i).selectedInterface.address)
  have hmark := hsend.trans (.update _ (effect_markProbed l.clock))
  rw [← Lan.send_clock i (buildAProbe (l.responders i).selectedInterface.address) e l] at hmark
  unfold sendProbeLocked
  rw [if_neg (buildAProbe_ne_nil _)]
  dsimp only
  split
  · exact ⟨hmark.apart, hmark.own, hmark.clock⟩
  · exact hsend

theorem step_failLocked (hd : (l.responders i).desired = true) :
    WorkerStep i l (failLocked i l) :=
  .update l (effect_fail hd _)

theorem step_orFail {r : Bool × Lan n} (h : WorkerStep i l r.2)
    (hd : (r.2.responders i).desired = true) : WorkerStep i l (orFail i r).2 := by
  unfold orFail
  split
  · exact h
  · exact h.trans (step_failLocked hd)

theorem step_conflict_probing (hd : (l.responders i).desired = true)
    (hs : (l.responders i).state = .probing) : WorkerStep i l (conflictLocked i false e l) := by
  rw [conflictLocked_false]
  exact .update l (effect_conflict_probing hd hs _)

theorem step_conflict_published (hl : Sound (l.responders i))
    (hd : (l.responders i).desired = true) (hs : (l.responders i).state = .published) :
    WorkerStep i l (conflictLocked i true e l) := by
  rw [conflictLocked_true]
  refine ⟨(apart_sendGoodbyeLocked i l e).trans (apart_update _ _), ?_, by simp⟩
  rw [Lan.update_same, sendGoodbyeLocked_same i l e (hl.alive hd).1]
  exact effect_conflict_published hd hs _

end Sections

end HarmonyScreen.Proofs.MdnsEffects
