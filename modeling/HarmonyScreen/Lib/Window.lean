import Mathlib.Data.List.Count

namespace HarmonyScreen.Lib

namespace Window

/-- A limiter that counts from the first event on: the start of the window and what was
admitted in it. -/
abbrev Limiter := Option (Nat × Nat)

variable (width limit : Nat)

/-- The window an event at this time falls into; a new one when the old has run out. -/
def current (now : Nat) : Limiter → Nat × Nat
  | none => (now, 0)
  | some (started, count) => if started + width ≤ now then (now, 0) else (started, count)

def allow (now : Nat) (limiter : Limiter) : Bool × Limiter :=
  let w := current width now limiter
  if w.2 < limit then (true, some (w.1, w.2 + 1)) else (false, some w)

/-- The times of the events that are admitted. -/
def admitted : List Nat → Limiter → List Nat
  | [], _ => []
  | now :: times, limiter =>
    let r := allow width limit now limiter
    (if r.1 then [now] else []) ++ admitted times r.2

/-- How many times lie in the half-open interval of this width. -/
def within (start : Nat) (times : List Nat) : Nat :=
  times.countP fun t => start ≤ t ∧ t < start + width

variable {width limit} {now start started count : Nat} {times : List Nat}

theorem admitted_open (hnew : started + width ≤ now) (hlimit : 0 < limit) :
    admitted width limit (now :: times) (some (started, count)) =
      now :: admitted width limit times (some (now, 1)) := by
  simp [admitted, allow, current, hnew, hlimit]

theorem admitted_counted (hold : now < started + width) (hroom : count < limit) :
    admitted width limit (now :: times) (some (started, count)) =
      now :: admitted width limit times (some (started, count + 1)) := by
  simp [admitted, allow, current, Nat.not_le.mpr hold, hroom]

theorem admitted_full (hold : now < started + width) (hfull : limit ≤ count) :
    admitted width limit (now :: times) (some (started, count)) =
      admitted width limit times (some (started, count)) := by
  simp [admitted, allow, current, Nat.not_le.mpr hold, Nat.not_lt.mpr hfull]

theorem admitted_first (hlimit : 0 < limit) : admitted width limit (now :: times) none =
    now :: admitted width limit times (some (now, 1)) := by
  simp [admitted, allow, current, hlimit]

theorem admitted_sublist (times : List Nat) (limiter : Limiter) :
    (admitted width limit times limiter).Sublist times := by
  induction times generalizing limiter with
  | nil => exact .slnil
  | cons now times ih =>
    rw [admitted]
    cases (allow width limit now limiter).1 with
    | false => exact (ih _).cons _
    | true => exact (ih _).cons_cons _

theorem within_cons (now : Nat) (times : List Nat) :
    within width start (now :: times) =
      within width start times + if start ≤ now ∧ now < start + width then 1 else 0 := by
  simp [within, List.countP_cons]

/-- What lies behind the interval does not count. -/
theorem within_late (h : ∀ t ∈ times, start + width ≤ t) : within width start times = 0 := by
  rw [within, List.countP_eq_zero]
  intro t ht hin
  have hlate := h t ht
  simp only [decide_eq_true_eq] at hin
  omega

/-- Up to the end of a window no more is admitted than it has room for. -/
theorem within_window (hlimit : 0 < limit) (hsorted : times.Pairwise (· ≤ ·))
    (hcount : count ≤ limit) (hstart : start ≤ started) :
    within width start (admitted width limit times (some (started, count))) ≤ limit - count := by
  induction times generalizing count with
  | nil => exact Nat.zero_le _
  | cons now times ih =>
    obtain ⟨hnow, hsorted⟩ := List.pairwise_cons.mp hsorted
    rcases Nat.lt_or_ge now (started + width) with hold | hnew
    · rcases Nat.lt_or_ge count limit with hroom | hfull
      · have hnext : count + 1 ≤ limit := hroom
        have hrest := ih hsorted hnext
        rw [admitted_counted hold hroom, within_cons]
        split <;> omega
      · rw [admitted_full hold hfull]
        exact ih hsorted hcount
    · rw [admitted_open hnew hlimit, within_late]
      · exact Nat.zero_le _
      · intro t ht
        rcases List.mem_cons.mp ht with rfl | ht
        · omega
        · have := hnow t ((admitted_sublist times _).subset ht)
          omega

/-- From the interval's start on, the window and the next one at most. -/
theorem within_two (hlimit : 0 < limit) (hsorted : times.Pairwise (· ≤ ·)) (hcount : count ≤ limit)
    (hfrom : ∀ t ∈ times, start ≤ t) :
    within width start (admitted width limit times (some (started, count))) ≤ 2 * limit - count := by
  induction times generalizing count with
  | nil => exact Nat.zero_le _
  | cons now times ih =>
    obtain ⟨hnow, hsorted⟩ := List.pairwise_cons.mp hsorted
    have hrest := fun t ht => hfrom t (List.mem_cons_of_mem now ht)
    rcases Nat.lt_or_ge now (started + width) with hold | hnew
    · rcases Nat.lt_or_ge count limit with hroom | hfull
      · have hnext : count + 1 ≤ limit := hroom
        have htail := ih hsorted hnext hrest
        rw [admitted_counted hold hroom, within_cons]
        split <;> omega
      · rw [admitted_full hold hfull]
        exact ih hsorted hcount hrest
    · rw [admitted_open hnew hlimit, within_cons]
      have : within width start (admitted width limit times (some (now, 1))) ≤ limit - 1 :=
        within_window hlimit hsorted hlimit (hfrom now (List.mem_cons_self ..))
      split <;> omega

theorem within_started (hlimit : 0 < limit) (hsorted : times.Pairwise (· ≤ ·)) (hpos : 0 < count)
    (hcount : count ≤ limit) :
    within width start (admitted width limit times (some (started, count))) ≤ 2 * limit - 1 := by
  induction times generalizing started count with
  | nil => exact Nat.zero_le _
  | cons now times ih =>
    rcases Nat.lt_or_ge now start with hbefore | hfrom
    · obtain ⟨-, hsorted⟩ := List.pairwise_cons.mp hsorted
      have hskip : ∀ times, within width start (now :: times) = within width start times := by
        intro times
        rw [within_cons, if_neg (by omega), Nat.add_zero]
      rcases Nat.lt_or_ge now (started + width) with hold | hnew
      · rcases Nat.lt_or_ge count limit with hroom | hfull
        · rw [admitted_counted hold hroom, hskip]
          exact ih hsorted (Nat.succ_pos count) hroom
        · rw [admitted_full hold hfull]
          exact ih hsorted hpos hcount
      · rw [admitted_open hnew hlimit, hskip]
        exact ih hsorted (by decide) hlimit
    · have hlater : ∀ t ∈ now :: times, start ≤ t := by
        intro t ht
        rcases List.mem_cons.mp ht with rfl | ht
        · exact hfrom
        · exact Nat.le_trans hfrom ((List.pairwise_cons.mp hsorted).1 t ht)
      have htwo : within width start (admitted width limit (now :: times) (some (started, count))) ≤
          2 * limit - count := within_two hlimit hsorted hcount hlater
      omega

/-- Wherever an interval of the width lies, it holds less than two windows may. -/
theorem within_admitted (hlimit : 0 < limit) (hsorted : times.Pairwise (· ≤ ·)) (start : Nat) :
    within width start (admitted width limit times none) ≤ 2 * limit - 1 := by
  cases times with
  | nil => exact Nat.zero_le _
  | cons now times =>
    obtain ⟨hnow, hsorted⟩ := List.pairwise_cons.mp hsorted
    rw [admitted_first hlimit, within_cons]
    split
    · rename_i hin
      have : within width start (admitted width limit times (some (now, 1))) ≤ limit - 1 :=
        within_window hlimit hsorted hlimit hin.1
      omega
    · exact within_started hlimit hsorted (by decide) hlimit

end Window

end HarmonyScreen.Lib
