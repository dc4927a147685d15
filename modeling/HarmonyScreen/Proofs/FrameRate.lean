import HarmonyScreen.Proofs.AutoContract

namespace HarmonyScreen.Proofs.FrameRate
open Receiver Extension VideoContract AutoContract

section Spacing
variable {α : Type} [Field α] [LinearOrder α] [IsStrictOrderedRing α] {gap : α}

/-- Frames that lie apart one from the next lie apart from all later ones. -/
theorem pairwise_of_apart (hgap : 0 ≤ gap) {frames : List α}
    (h : frames.IsChain fun a b => gap ≤ b - a) : frames.Pairwise fun a b => gap ≤ b - a := by
  have htrans : ∀ a b c : α, gap ≤ b - a → gap ≤ c - b → gap ≤ c - a := by
    intro a b c hab hbc
    linarith
  have : IsTrans α fun a b => gap ≤ b - a := ⟨htrans⟩
  exact List.isChain_iff_pairwise.mp h

/-- The span of some frames, from the gap between any two of them. -/
theorem span_of_pairwise {first : α} {frames : List α}
    (h : (first :: frames).Pairwise fun a b => gap ≤ b - a) :
    frames.length * gap ≤ (first :: frames).getLast (List.cons_ne_nil _ _) - first := by
  induction frames generalizing first with
  | nil => simp
  | cons second frames ih =>
    obtain ⟨hfirst, hrest⟩ := List.pairwise_cons.mp h
    have hnext := hfirst second (List.mem_cons_self ..)
    have hspan := ih hrest
    rw [List.getLast_cons (List.cons_ne_nil _ _), List.length_cons]
    push_cast
    linarith

end Spacing

/-- The timestamps that are accepted, in order. -/
def submitted (gate : MaxFrameRateGate) : List ℚ → List ℚ
  | [] => []
  | timestampUs :: later =>
    if (gate.shouldSubmit (.finite timestampUs)).1 then
      timestampUs :: submitted (gate.shouldSubmit (.finite timestampUs)).2 later
    else submitted (gate.shouldSubmit (.finite timestampUs)).2 later

section Gate
variable {gate : MaxFrameRateGate} {timestampUs last : ℚ} {times : List ℚ}

@[simp] theorem minimumIntervalUs_integer (maxFps : Int) (accepted : Option ℚ) :
    MaxFrameRateGate.minimumIntervalUs ⟨.integer maxFps, accepted⟩ = 1000000 / maxFps := rfl

@[simp] theorem minimumIntervalUs_accept :
    (gate.accept timestampUs).minimumIntervalUs = gate.minimumIntervalUs := rfl

theorem accept_last : (gate.accept timestampUs).lastAcceptedTimestampUs = some timestampUs := rfl

theorem submitted_accepted
    (h : gate.shouldSubmit (.finite timestampUs) = (true, gate.accept timestampUs)) :
    submitted gate (timestampUs :: times) =
      timestampUs :: submitted (gate.accept timestampUs) times := by
  rw [submitted, h]
  rfl

theorem submitted_refused (h : gate.shouldSubmit (.finite timestampUs) = (false, gate)) :
    submitted gate (timestampUs :: times) = submitted gate times := by
  rw [submitted, h]
  rfl

theorem shouldSubmit_first (hnone : gate.lastAcceptedTimestampUs = none) (hpos : 0 ≤ timestampUs) :
    gate.shouldSubmit (.finite timestampUs) = (true, gate.accept timestampUs) := by
  rw [MaxFrameRateGate.shouldSubmit, if_neg (not_lt.mpr hpos), hnone]

theorem shouldSubmit_near (hlast : gate.lastAcceptedTimestampUs = some last) (hpos : 0 ≤ timestampUs)
    (hle : last ≤ timestampUs)
    (hnear : timestampUs = last ∨ timestampUs - last + 1 < gate.minimumIntervalUs) :
    gate.shouldSubmit (.finite timestampUs) = (false, gate) := by
  rw [MaxFrameRateGate.shouldSubmit, if_neg (not_lt.mpr hpos), hlast]
  dsimp only
  rw [if_neg (not_lt.mpr hle)]
  rcases hnear with rfl | hnear
  · rw [if_pos rfl]
  · rw [if_pos hnear]
    exact ite_self _

theorem shouldSubmit_apart (hlast : gate.lastAcceptedTimestampUs = some last) (hpos : 0 ≤ timestampUs)
    (hlt : last < timestampUs) (hapart : gate.minimumIntervalUs ≤ timestampUs - last + 1) :
    gate.shouldSubmit (.finite timestampUs) = (true, gate.accept timestampUs) := by
  rw [MaxFrameRateGate.shouldSubmit, if_neg (not_lt.mpr hpos), hlast]
  dsimp only
  rw [if_neg (not_lt.mpr hlt.le), if_neg hlt.ne', if_neg (not_lt.mpr hapart)]

/-- Behind the frame that was accepted last, each accepted frame lies apart from the one before. -/
theorem submitted_apart (hlast : gate.lastAcceptedTimestampUs = some last)
    (hsorted : (last :: times).Pairwise (· ≤ ·)) (hpos : 0 ≤ last) :
    (last :: submitted gate times).IsChain fun a b => gate.minimumIntervalUs - 1 ≤ b - a := by
  induction times generalizing gate last with
  | nil => exact .singleton _
  | cons now times ih =>
    obtain ⟨hle, hrest⟩ := List.pairwise_cons.mp hsorted
    have hnow := hle now (List.mem_cons_self ..)
    by_cases hnear : now = last ∨ now - last + 1 < gate.minimumIntervalUs
    · rw [submitted_refused (shouldSubmit_near hlast (hpos.trans hnow) hnow hnear)]
      apply ih hlast ?_ hpos
      exact hsorted.sublist ((List.sublist_cons_self ..).cons_cons _)
    · rw [not_or, not_lt] at hnear
      have hlt := lt_of_le_of_ne hnow (Ne.symm hnear.1)
      rw [submitted_accepted (shouldSubmit_apart hlast (hpos.trans hnow) hlt hnear.2)]
      apply List.IsChain.cons_cons
      · linarith [hnear.2]
      · exact ih accept_last hrest (hpos.trans hnow)

theorem submitted_chain (hnone : gate.lastAcceptedTimestampUs = none)
    (hsorted : times.Pairwise (· ≤ ·)) (hpos : ∀ t ∈ times, 0 ≤ t) :
    (submitted gate times).IsChain fun a b => gate.minimumIntervalUs - 1 ≤ b - a := by
  cases times with
  | nil => exact .nil
  | cons now times =>
    have hnow := hpos now (List.mem_cons_self ..)
    rw [submitted_accepted (shouldSubmit_first hnone hnow)]
    exact submitted_apart accept_last hsorted hnow

/-- Where every frame is due, every frame is accepted. -/
theorem submitted_all (hone : 1 < gate.minimumIntervalUs)
    (hdue : ∀ l, gate.lastAcceptedTimestampUs = some l → ∀ t ∈ times,
      gate.minimumIntervalUs ≤ t - l + 1)
    (happart : times.Pairwise fun a b => gate.minimumIntervalUs ≤ b - a + 1) :
    submitted gate times = times := by
  induction times generalizing gate with
  | nil => rfl
  | cons now times ih =>
    obtain ⟨hnow, hrest⟩ := List.pairwise_cons.mp happart
    rcases lt_or_ge now 0 with hneg | hpos
    · have hkept : gate.shouldSubmit (.finite now) = (true, gate) := if_pos hneg
      rw [submitted, hkept, if_pos rfl]
      exact congrArg _ (ih hone (fun l hl t ht => hdue l hl t (List.mem_cons_of_mem _ ht)) hrest)
    · have haccept : gate.shouldSubmit (.finite now) = (true, gate.accept now) := by
        cases hlast : gate.lastAcceptedTimestampUs with
        | none => exact shouldSubmit_first hlast hpos
        | some last =>
          have hapart := hdue last hlast now (List.mem_cons_self ..)
          exact shouldSubmit_apart hlast hpos (by linarith) hapart
      rw [submitted_accepted haccept]
      apply congrArg
      refine ih ?_ ?_ hrest
      · exact hone
      · rintro _ ⟨⟩
        exact hnow

end Gate

theorem construct_ok {maxFps : Int} (hfps : 1 ≤ maxFps ∧ maxFps ≤ 60) :
    MaxFrameRateGate.construct (.integer maxFps) = .ok { maxFps := .integer maxFps } := by
  have hcontract : validateMediaContract ⟨.integer 2, .integer 2, .integer maxFps⟩ =
      .ok ⟨.integer 2, .integer 2, .integer maxFps⟩ := by
    rw [validateMediaContract_iff]
    exact ⟨by omega, rfl⟩
  rw [MaxFrameRateGate.construct, hcontract]
  rfl

section Source
variable {f phase : ℝ} {stamps : Nat → Int}

/-- Rounding takes at most a microsecond from the time between two frames. -/
theorem stamps_apart {maxFps : Int} (hpos : 0 < f) (hf : f ≤ maxFps)
    (hround : ∀ k : Nat, |(stamps k : ℝ) - (phase + k * (1000000 / f))| ≤ 1 / 2) {a b : Nat}
    (hab : a < b) : (1000000 / maxFps : ℚ) ≤ stamps b - stamps a + 1 := by
  have ha := abs_le.mp (hround a)
  have hb := abs_le.mp (hround b)
  have hperiod : (0 : ℝ) < 1000000 / f := by positivity
  have hstep : (a + 1 : ℝ) * (1000000 / f) ≤ b * (1000000 / f) := by
    apply mul_le_mul_of_nonneg_right ?_ hperiod.le
    exact_mod_cast hab
  have hshort : (1000000 / maxFps : ℝ) ≤ 1000000 / f :=
    div_le_div_of_nonneg_left (by norm_num) hpos hf
  have hreal : (1000000 / maxFps : ℝ) ≤ stamps b - stamps a + 1 := by linarith
  exact_mod_cast hreal

end Source

/-- The gate bounds the rate, and a source that keeps to the rate passes it whole. -/
theorem rate_bounded (maxFps : Int) (hfps : 1 ≤ maxFps ∧ maxFps ≤ 60) :
    ∃ gate, MaxFrameRateGate.construct (.integer maxFps) = .ok gate ∧
      (∀ times : List ℚ, times.Pairwise (· ≤ ·) → (∀ t ∈ times, 0 ≤ t) →
        ((submitted gate times).IsChain fun a b => (1000000 / maxFps - 1 : ℚ) ≤ b - a) ∧
        ∀ first frames, (first :: frames).Sublist (submitted gate times) →
          frames.length * (1000000 / maxFps - 1 : ℚ) ≤
            (first :: frames).getLast (List.cons_ne_nil _ _) - first) ∧
      ∀ (f phase : ℝ) (stamps : Nat → Int), 0 < f → f ≤ maxFps →
        (∀ k : Nat, |(stamps k : ℝ) - (phase + k * (1000000 / f))| ≤ 1 / 2) →
        ∀ n, submitted gate ((List.range n).map fun k => (stamps k : ℚ)) =
          (List.range n).map fun k => (stamps k : ℚ) := by
  have hpos : (0 : ℚ) < maxFps := by exact_mod_cast hfps.1
  have hone : (1 : ℚ) < 1000000 / maxFps := by
    rw [lt_div_iff₀ hpos]
    exact_mod_cast (show 1 * maxFps < 1000000 by omega)
  refine ⟨_, construct_ok hfps, ?_, ?_⟩
  · intro times hsorted htimes
    have hchain := @submitted_chain ⟨.integer maxFps, none⟩ times rfl hsorted htimes
    simp only [minimumIntervalUs_integer] at hchain
    refine ⟨hchain, fun first frames hsub => ?_⟩
    have hgap : (0 : ℚ) ≤ 1000000 / maxFps - 1 := by linarith
    exact span_of_pairwise ((pairwise_of_apart hgap hchain).sublist hsub)
  · intro f phase stamps hf hle hround n
    refine submitted_all ?_ ?_ ?_
    · exact hone
    · rintro _ ⟨⟩
    · rw [List.pairwise_map]
      exact List.pairwise_lt_range.imp fun hab => stamps_apart hf hle hround hab

theorem rate_bounded_sixty : ∃ gate, MaxFrameRateGate.construct (.integer 60) = .ok gate ∧
    ∀ n, submitted gate ((List.range n).map fun k => ((20000 * k : Nat) : ℚ)) =
      (List.range n).map fun k => ((20000 * k : Nat) : ℚ) := by
  obtain ⟨gate, hgate, -, hall⟩ := rate_bounded 60 (by decide)
  refine ⟨gate, hgate, fun n => ?_⟩
  have hfifty := hall 50 0 (fun k => 20000 * k) (by norm_num) (by norm_num) (fun k => ?_) n
  · exact_mod_cast hfifty
  · have : ((20000 * (k : Int) : Int) : ℝ) - (0 + k * (1000000 / 50)) = 0 := by
      push_cast
      ring
    rw [this]
    norm_num

end HarmonyScreen.Proofs.FrameRate
