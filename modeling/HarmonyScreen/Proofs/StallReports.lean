import HarmonyScreen.Extension.FrameMonitor

namespace HarmonyScreen.Proofs.StallReports
open Extension FrameMonitor

variable {m : FrameMonitor} {frameAt sampledAt : ℚ}

/-- The report that has to follow. -/
def other : Transition → Transition
  | .stalled => .recovered
  | .recovered => .stalled

/-- The reports alternate, from a given one on. -/
def Alternate : Transition → List Transition → Prop
  | _, [] => True
  | next, report :: reports => report = next ∧ Alternate (other next) reports

/-- What the monitor has to report next. -/
def due (m : FrameMonitor) : Transition :=
  if m.stalled || m.pendingTransition == some .recovered then .recovered else .stalled

/-- What holds between two calls: only a recovery can be pending, behind a frame. -/
structure Settled (m : FrameMonitor) : Prop where
  reported : m.pendingTransition ≠ some .stalled
  silent : m.stalled = true → m.pendingTransition = none
  seen : m.pendingTransition = some .recovered → m.lastFrameAt ≠ none

/-- A sample finds the last frame too old while the recovery is not reported yet. -/
def Overtakes : Call → FrameMonitor → Prop
  | .onFrame _, _ => False
  | .sample sampledAt, m =>
    m.pendingTransition = some .recovered ∧ m.frameExpired sampledAt = true

/-- No sample of the sequence overtakes a recovery. -/
def Timely : List Call → FrameMonitor → Prop
  | [], _ => True
  | c :: calls, m => ¬ Overtakes c m ∧ Timely calls (m.call c).2

theorem settled_reset (startedAt : ℚ) (m : FrameMonitor) : Settled (m.reset startedAt) :=
  ⟨nofun, nofun, nofun⟩

theorem due_reset (startedAt : ℚ) (m : FrameMonitor) : due (m.reset startedAt) = .stalled := rfl

theorem settled_onFrame (h : Settled m) : Settled (m.onFrame frameAt) := by
  unfold onFrame prune
  dsimp only
  split
  · exact ⟨nofun, nofun, fun _ => nofun⟩
  · exact ⟨h.reported, h.silent, fun _ => nofun⟩

theorem due_onFrame : due (m.onFrame frameAt) = due m := by
  unfold onFrame prune due
  dsimp only
  split
  · rename_i hs
    simp [hs]
  · rfl

/-- What a sample does: the monitor is stalled from now on, or it reports what was pending. -/
theorem sample_cases (m : FrameMonitor) (sampledAt : ℚ) :
    (m.stalled = false ∧ (m.waitingForFirstFrame sampledAt || m.frameExpired sampledAt) = true ∧
      (m.sample sampledAt).1.transition = some .stalled ∧ (m.sample sampledAt).2.stalled = true ∧
      (m.sample sampledAt).2.stallEvents = m.stallEvents + 1) ∨
    ((m.stalled = true ∨ m.frameExpired sampledAt = false) ∧
      (m.sample sampledAt).1.transition = m.pendingTransition ∧
      (m.sample sampledAt).2.stalled = m.stalled ∧
      (m.sample sampledAt).2.stallEvents = m.stallEvents) := by
  have hw : (m.prune sampledAt).waitingForFirstFrame sampledAt = m.waitingForFirstFrame sampledAt := rfl
  have he : (m.prune sampledAt).frameExpired sampledAt = m.frameExpired sampledAt := rfl
  have hs : (m.prune sampledAt).stalled = m.stalled := rfl
  unfold sample
  dsimp only
  rw [hw, he, hs]
  cases hstalled : m.stalled with
  | true => exact .inr ⟨.inl rfl, rfl, hstalled, rfl⟩
  | false =>
    cases hexpires : m.waitingForFirstFrame sampledAt || m.frameExpired sampledAt with
    | true => exact .inl ⟨rfl, rfl, rfl, rfl, rfl⟩
    | false => exact .inr ⟨.inr (Bool.or_eq_false_iff.mp hexpires).2, rfl, hstalled, rfl⟩

theorem settled_sample : Settled (m.sample sampledAt).2 :=
  ⟨nofun, fun _ => rfl, nofun⟩

theorem due_sample : due (m.sample sampledAt).2 =
    if (m.sample sampledAt).2.stalled then .recovered else .stalled := by
  have hnone : (m.sample sampledAt).2.pendingTransition = none := rfl
  simp [due, hnone]

/-- A stall that is found when a recovery is pending is found behind an old frame. -/
theorem overtakes_of_expires (h : Settled m) (hp : m.pendingTransition = some .recovered)
    (he : (m.waitingForFirstFrame sampledAt || m.frameExpired sampledAt) = true) :
    Overtakes (.sample sampledAt) m := by
  refine ⟨hp, ?_⟩
  have hseen : m.lastFrameAt.isNone = false := by
    simpa [Option.isSome_iff_ne_none] using h.seen hp
  simpa [waitingForFirstFrame, hseen] using he

/-- One call: what it reports is due exactly when it does not overtake. -/
theorem call_alternates (h : Settled m) (c : Call) (rest : List Transition) :
    Alternate (due m) ((m.call c).1 ++ rest) ↔ ¬ Overtakes c m ∧ Alternate (due (m.call c).2) rest := by
  cases c with
  | onFrame frameAt =>
    simp [call, Overtakes, due_onFrame]
  | sample sampledAt =>
    simp only [call, due_sample]
    rcases sample_cases m sampledAt with
      ⟨hs, hexpires, htransition, hstalled, -⟩ | ⟨hquiet, htransition, hstalled, -⟩
    · rw [htransition, hstalled]
      cases hp : m.pendingTransition with
      | none => simp [due, hs, hp, Alternate, Overtakes, other]
      | some pending =>
        cases pending with
        | stalled => exact absurd hp h.reported
        | recovered =>
          have hover := overtakes_of_expires h hp hexpires
          simp [due, hp, Alternate, hover]
    · rw [htransition, hstalled]
      have hnot : ¬ Overtakes (.sample sampledAt) m := by
        rintro ⟨hp, he⟩
        rcases hquiet with hs | hfresh
        · rw [h.silent hs] at hp
          cases hp
        · rw [hfresh] at he
          cases he
      cases hs : m.stalled with
      | true => simp [due, hs, h.silent hs, hnot]
      | false =>
        cases hp : m.pendingTransition with
        | none => simp [due, hs, hp, hnot]
        | some pending =>
          cases pending with
          | stalled => exact absurd hp h.reported
          | recovered => simp [due, hp, hnot, Alternate, other]

theorem settled_call (h : Settled m) (c : Call) : Settled (m.call c).2 := by
  cases c with
  | onFrame frameAt => exact settled_onFrame h
  | sample sampledAt => exact settled_sample

theorem run_alternates (calls : List Call) (h : Settled m) :
    Alternate (due m) (m.run calls).1 ↔ Timely calls m := by
  induction calls generalizing m with
  | nil => simp [run, Alternate, Timely]
  | cons c calls ih =>
    simp only [run, Timely]
    rw [call_alternates h, ih (settled_call h c)]

/-- Every stall that is counted is reported once. -/
theorem count_call (h : Settled m) (c : Call) :
    (m.call c).2.stallEvents = m.stallEvents + (m.call c).1.count .stalled := by
  cases c with
  | onFrame frameAt =>
    unfold call onFrame prune
    dsimp only
    split <;> rfl
  | sample sampledAt =>
    simp only [call]
    rcases sample_cases m sampledAt with
      ⟨-, -, htransition, -, hcount⟩ | ⟨-, htransition, -, hcount⟩
    · rw [htransition, hcount]
      rfl
    · rw [htransition, hcount]
      cases hp : m.pendingTransition with
      | none => rfl
      | some pending =>
        cases pending with
        | stalled => exact absurd hp h.reported
        | recovered => rfl

theorem count_run (calls : List Call) (h : Settled m) :
    (m.run calls).2.stallEvents = m.stallEvents + (m.run calls).1.count .stalled := by
  induction calls generalizing m with
  | nil => rfl
  | cons c calls ih =>
    simp only [run]
    rw [ih (settled_call h c), count_call h c, List.count_append, Nat.add_assoc]

/-- The reports after a reset alternate, and each counted stall is one of them, exactly when
no sample overtakes a recovery that was not reported. -/
theorem reports_alternate (m : FrameMonitor) (startedAt : ℚ) (calls : List Call) :
    (Alternate .stalled ((m.reset startedAt).run calls).1 ∧
      ((m.reset startedAt).run calls).2.stallEvents =
        ((m.reset startedAt).run calls).1.count .stalled) ↔
      Timely calls (m.reset startedAt) := by
  have hrun := run_alternates calls (settled_reset startedAt m)
  have hcount := count_run calls (settled_reset startedAt m)
  rw [due_reset] at hrun
  rw [← hrun, hcount]
  simp [reset]

/-- A frame ends a stall, and the next sample comes two seconds later. -/
theorem reports_two_stalls :
    (((({} : FrameMonitor).reset 0).run
      [.onFrame 0, .sample 2000, .onFrame 2500, .sample 4500]).1 = [.stalled, .stalled]) ∧
    ¬ Alternate .stalled ((({} : FrameMonitor).reset 0).run
      [.onFrame 0, .sample 2000, .onFrame 2500, .sample 4500]).1 := by
  have hrun : ((({} : FrameMonitor).reset 0).run
      [.onFrame 0, .sample 2000, .onFrame 2500, .sample 4500]).1 = [.stalled, .stalled] := by
    decide +kernel
  refine ⟨hrun, ?_⟩
  rw [hrun]
  rintro ⟨-, h, -⟩
  cases h

end HarmonyScreen.Proofs.StallReports
