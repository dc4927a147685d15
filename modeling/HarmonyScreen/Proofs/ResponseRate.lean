import HarmonyScreen.Lib.Window
import HarmonyScreen.Proofs.MdnsSections

namespace HarmonyScreen.Proofs.ResponseRate
open Lib Window Receiver Mdns MdnsResponder MdnsPackets MdnsSections

variable {n : Nat} (i : Fin n)

/-- A response went out for the query in a datagram. -/
def answered (datagram : MdnsDatagram) (l m : Lan n) : Bool :=
  classifyMessage datagram.bytes = .query ∧ (m.responders i).handed ≠ (l.responders i).handed

/-- The responder handles datagrams until it leaves `Published`: the clock values at
which it answered a query. -/
def responseTimes : List (MdnsDatagram × Outside) → Lan n → List Nat
  | [], _ => []
  | (datagram, e) :: rest, l =>
    let r := handlePublishedDatagram i datagram e l
    (if answered i datagram l r.2 then [e.now] else []) ++
      if r.1 then responseTimes rest r.2 else []

def limiterOf (r : MdnsResponder n) : Limiter :=
  if r.responseWindowInitialized then some (r.responseWindowStartedMs, r.responsesInWindow) else none

variable {i} {l : Lan n} {e : Outside} {datagram : MdnsDatagram}

theorem window_current (now : Nat) (r : MdnsResponder n) :
    (r.responseWindow now).responseWindowInitialized = true ∧
      ((r.responseWindow now).responseWindowStartedMs, (r.responseWindow now).responsesInWindow) =
        current 1000 now (limiterOf r) := by
  unfold responseWindow limiterOf
  cases hinit : r.responseWindowInitialized with
  | false => simp [current]
  | true =>
    by_cases hold : r.responseWindowStartedMs + 1000 ≤ now
    · have hover : now - r.responseWindowStartedMs ≥ 1000 := by omega
      simp [current, kResponseWindowMilliseconds, hold, hover]
    · have hin : ¬ now - r.responseWindowStartedMs ≥ 1000 := by omega
      simp only [Bool.not_true, Bool.false_or, kResponseWindowMilliseconds, hin, decide_false,
        Bool.false_eq_true, if_false, if_true, current, hold, hinit, and_self]

theorem allow_limited (now : Nat) (r : MdnsResponder n) :
    (allowQueryResponse now r).1 = (allow 1000 10 now (limiterOf r)).1 ∧
      limiterOf (allowQueryResponse now r).2 = (allow 1000 10 now (limiterOf r)).2 := by
  obtain ⟨hinit, hcurrent⟩ := window_current now r
  unfold allowQueryResponse allow
  rw [← hcurrent]
  dsimp only
  by_cases hfull : (r.responseWindow now).responsesInWindow < 10
  · rw [if_neg (by simpa [kMaximumResponsesPerSecond] using hfull), if_pos hfull]
    simp [limiterOf, hinit]
  · rw [if_pos (by simpa [kMaximumResponsesPerSecond] using hfull), if_neg hfull]
    simp [limiterOf, hinit]

theorem limiter_failLocked (l : Lan n) :
    limiterOf ((failLocked i l).responders i) = limiterOf (l.responders i) ∧
      ((failLocked i l).responders i).handed = (l.responders i).handed := by
  rw [failLocked, Lan.update_same]
  exact ⟨rfl, rfl⟩

theorem limiter_orFail (x : Bool × Lan n) :
    limiterOf ((orFail i x).2.responders i) = limiterOf (x.2.responders i) := by
  unfold orFail
  split
  · rfl
  · exact (limiter_failLocked x.2).1

theorem limiter_send (packet : Bytes) (e : Outside) (l : Lan n) :
    limiterOf ((l.send i packet e).2.responders i) = limiterOf (l.responders i) := by
  rw [Lan.send_same]
  rfl

theorem limiter_conflictLocked (e : Outside) (l : Lan n) :
    limiterOf ((conflictLocked i true e l).responders i) = limiterOf (l.responders i) := by
  rw [conflictLocked, Lan.update_same, if_pos rfl]
  change limiterOf ((sendGoodbyeLocked i e l).responders i) = _
  unfold sendGoodbyeLocked
  split
  · rfl
  dsimp only
  split
  · rw [Lan.update_same]
    rfl
  · rw [limiter_send, Lan.update_same]
    rfl

/-- What an answer does to the limiter; without one nothing was handed over. -/
theorem answerQuery_step (datagram : MdnsDatagram) (e : Outside) (l : Lan n) :
    (limiterOf ((answerQuery i datagram e l).2.responders i) = limiterOf (l.responders i) ∧
      ((answerQuery i datagram e l).2.responders i).handed = (l.responders i).handed) ∨
    (limiterOf ((answerQuery i datagram e l).2.responders i) =
        (allow 1000 10 e.now (limiterOf (l.responders i))).2 ∧
      (((answerQuery i datagram e l).2.responders i).handed ≠ (l.responders i).handed →
        (allow 1000 10 e.now (limiterOf (l.responders i))).1 = true)) := by
  obtain ⟨hallowed, hlimiter⟩ := allow_limited e.now (l.responders i)
  obtain ⟨_, _, _, hkept⟩ := allowQueryResponse_eq e.now (l.responders i)
  have hhanded : (allowQueryResponse e.now (l.responders i)).2.handed = (l.responders i).handed := by
    rw [hkept]
  unfold answerQuery
  dsimp only
  split
  · exact .inl ⟨rfl, rfl⟩
  refine .inr ?_
  split
  · rw [Lan.update_same]
    exact ⟨hlimiter, fun hne => absurd hhanded hne⟩
  rename_i hok
  split
  · rw [Lan.update_same]
    exact ⟨hlimiter, fun hne => absurd hhanded hne⟩
  · rw [limiter_orFail, limiter_send, Lan.update_same]
    refine ⟨hlimiter, fun _ => ?_⟩
    rw [← hallowed]
    simpa using hok

/-- A datagram counts in the window, or neither counts nor is answered. -/
theorem limiter_step (datagram : MdnsDatagram) (e : Outside) (l : Lan n) :
    (limiterOf ((handlePublishedDatagram i datagram e l).2.responders i) = limiterOf (l.responders i) ∧
      answered i datagram l (handlePublishedDatagram i datagram e l).2 = false) ∨
    (limiterOf ((handlePublishedDatagram i datagram e l).2.responders i) =
        (allow 1000 10 e.now (limiterOf (l.responders i))).2 ∧
      (answered i datagram l (handlePublishedDatagram i datagram e l).2 = true →
        (allow 1000 10 e.now (limiterOf (l.responders i))).1 = true)) := by
  have hforget : ∀ m : Lan n, limiterOf ((handled i m).responders i) = limiterOf (m.responders i) ∧
      ((handled i m).responders i).handed = (m.responders i).handed := by
    intro m
    rw [handled, Lan.update_same]
    exact ⟨rfl, rfl⟩
  unfold handlePublishedDatagram answered
  dsimp only
  rw [(hforget _).1, (hforget _).2]
  have hanswer := answerQuery_step (i := i) datagram e l
  have hquery : (limiterOf ((answerQuery i datagram e l).2.responders i) =
        limiterOf (l.responders i) ∧
      decide (classifyMessage datagram.bytes = .query ∧
        ((answerQuery i datagram e l).2.responders i).handed ≠ (l.responders i).handed) = false) ∨
      (limiterOf ((answerQuery i datagram e l).2.responders i) =
        (allow 1000 10 e.now (limiterOf (l.responders i))).2 ∧
      (decide (classifyMessage datagram.bytes = .query ∧
        ((answerQuery i datagram e l).2.responders i).handed ≠ (l.responders i).handed) = true →
        (allow 1000 10 e.now (limiterOf (l.responders i))).1 = true)) := by
    rcases hanswer with ⟨hsame, hhanded⟩ | ⟨hcounted, hallowed⟩
    · exact .inl ⟨hsame, by simp [hhanded]⟩
    · exact .inr ⟨hcounted, fun h => hallowed (of_decide_eq_true h).2⟩
  unfold publishedDatagram
  dsimp only
  split
  · exact .inl ⟨rfl, by simp⟩
  split
  · split
    · exact .inl ⟨rfl, by simp⟩
    · cases hkind : classifyMessage datagram.bytes with
      | probe =>
        refine .inl ⟨?_, by simp⟩
        rw [limiter_orFail, sendAnnouncementLocked]
        split
        · rfl
        · exact limiter_send _ _ _
      | response =>
        exact .inl ⟨limiter_conflictLocked e l, by simp⟩
      | query =>
        rw [hkind] at hquery
        exact hquery
      | invalid =>
        rw [hkind] at hquery
        exact hquery
  · exact hquery

theorem responses_admitted (events : List (MdnsDatagram × Outside)) (l : Lan n) :
    ∃ times, times.Sublist (events.map (·.2.now)) ∧
      (responseTimes i events l).Sublist (admitted 1000 10 times (limiterOf (l.responders i))) := by
  induction events generalizing l with
  | nil => exact ⟨[], .slnil, .slnil⟩
  | cons event events ih =>
    obtain ⟨datagram, e⟩ := event
    rw [responseTimes]
    have hrest : ∃ times, times.Sublist (events.map (·.2.now)) ∧
        (if (handlePublishedDatagram i datagram e l).1 then
          responseTimes i events (handlePublishedDatagram i datagram e l).2 else []).Sublist
          (admitted 1000 10 times
            (limiterOf ((handlePublishedDatagram i datagram e l).2.responders i))) := by
      split
      · exact ih _
      · exact ⟨[], List.nil_sublist _, .slnil⟩
    obtain ⟨times, htimes, hresponses⟩ := hrest
    rcases limiter_step (i := i) datagram e l with ⟨hsame, hsilent⟩ | ⟨hcounted, hallowed⟩
    · rw [hsame] at hresponses
      refine ⟨times, htimes.cons _, ?_⟩
      simpa [hsilent] using hresponses
    · rw [hcounted] at hresponses
      refine ⟨e.now :: times, htimes.cons_cons _, ?_⟩
      rw [admitted]
      refine List.Sublist.append ?_ hresponses
      split
      · rename_i hanswered
        rw [if_pos (hallowed hanswered)]
      · exact List.nil_sublist _

/-- From the limiter that `Start` leaves on, no 1000 ms of the clock hold more than nineteen
responses to queries: less than two windows of ten. -/
theorem responses_limited (events : List (MdnsDatagram × Outside)) (l : Lan n)
    (hsorted : (events.map (·.2.now)).Pairwise (· ≤ ·))
    (hfresh : (l.responders i).responseWindowInitialized = false) (start : Nat) :
    within 1000 start (responseTimes i events l) ≤ 19 := by
  obtain ⟨times, htimes, hresponses⟩ := responses_admitted (i := i) events l
  have hnone : limiterOf (l.responders i) = none := by
    rw [limiterOf, hfresh]
    rfl
  rw [hnone] at hresponses
  calc within 1000 start (responseTimes i events l)
      ≤ within 1000 start (admitted 1000 10 times none) := hresponses.countP_le
    _ ≤ 19 := within_admitted (by decide) (hsorted.sublist htimes) start

section Burst

def publisher : Lan 1 where
  responders _ := { ({} : MdnsResponder 1).launch ⟨⟨192, 168, 1, 10⟩, 3⟩ with state := .published }

def queryFrom : MdnsDatagram := ⟨buildAQuery, ⟨192, 168, 1, 20⟩, kMulticastAddress, 5353, 3, 255⟩

/-- One query, nine at the end of its second, and ten when it is over. -/
def burst : List (MdnsDatagram × Outside) :=
  ([0] ++ List.replicate 9 999 ++ List.replicate 10 1000).map fun now => (queryFrom, { now := now })

theorem burst_answered : (publisher.responders 0).state = .published ∧
    (burst.map (·.2.now)).Pairwise (· ≤ ·) ∧
    ¬ within 1000 999 (responseTimes 0 burst publisher) ≤ 10 :=
  ⟨rfl, by decide, by decide⟩

theorem burst_limited : (burst.map (·.2.now)).Pairwise (· ≤ ·) ∧
    (publisher.responders 0).responseWindowInitialized = false ∧
    within 1000 999 (responseTimes 0 burst publisher) ≤ 19 :=
  ⟨by decide, rfl, responses_limited burst publisher (by decide) rfl 999⟩

end Burst

end HarmonyScreen.Proofs.ResponseRate
