import HarmonyScreen.Extension.Offscreen
import HarmonyScreen.Extension.VideoContract

namespace HarmonyScreen.Proofs.StableSize
open Receiver Extension VideoContract

/-- A call of the tracker, with the size that it is given. -/
inductive Call where
  | observe (width height : ℚ)
  | commit (width height : ℚ)

namespace Call

def Sized : Call → Prop
  | observe width height | commit width height => 2 ≤ width ∧ 2 ≤ height

/-- This is an observation of the size. -/
def observes (size : Int × Int) : Call → Bool
  | observe width height => decide ((⌊width⌋, ⌊height⌋) = size)
  | commit _ _ => false

def commits : Call → Option (Int × Int)
  | observe _ _ => none
  | commit width height => some (⌊width⌋, ⌊height⌋)

def run (t : StableFrameSizeTracker) :
    Call → Except String (Option (Int × Int) × StableFrameSizeTracker)
  | observe width height => t.observe (.finite width) (.finite height)
  | commit width height => (t.commit (.finite width) (.finite height)).map fun t => (none, t)

end Call

/-- The size of the last commit, the constructor's before one. -/
def committed (initial : Int × Int) (calls : List Call) : Int × Int :=
  (calls.reverse.findSome? Call.commits).getD initial

/-- The number of observations of the size that the calls end with. -/
def stableRun (size : Int × Int) (calls : List Call) : Nat :=
  (calls.reverse.takeWhile (Call.observes size)).length

def run (t : StableFrameSizeTracker) : List Call → Except String StableFrameSizeTracker
  | [] => .ok t
  | call :: calls =>
    match call.run t with
    | .error text => .error text
    | .ok (_, t) => run t calls

/-- What an observation returns after the calls. -/
def returned (t : StableFrameSizeTracker) (calls : List Call) (width height : ℚ) :
    Except String (Option (Int × Int)) :=
  match run t calls with
  | .error text => .error text
  | .ok t => (t.observe (.finite width) (.finite height)).map (·.1)

section History
variable {size initial : Int × Int} {calls more : List Call} {width height : ℚ}

theorem committed_observe :
    committed initial (calls ++ [.observe width height]) = committed initial calls := by
  rw [committed, List.reverse_append]
  rfl

theorem committed_commit :
    committed initial (calls ++ [.commit width height]) = (⌊width⌋, ⌊height⌋) := by
  rw [committed, List.reverse_append]
  rfl

theorem stableRun_append (call : Call) : stableRun size (calls ++ [call]) =
    if call.observes size then stableRun size calls + 1 else 0 := by
  rw [stableRun, List.reverse_append, List.reverse_singleton, List.singleton_append,
    List.takeWhile_cons]
  split <;> rfl

theorem stableRun_observe : stableRun size (calls ++ [.observe width height]) =
    if (⌊width⌋, ⌊height⌋) = size then stableRun size calls + 1 else 0 := by
  simp [stableRun_append, Call.observes]

end History

theorem normalizeSourceSize_ok {width height : ℚ} (h : 2 ≤ width ∧ 2 ≤ height) :
    normalizeSourceSize (.finite width) (.finite height) = .ok (⌊width⌋, ⌊height⌋) := by
  rw [normalizeSourceSize, if_neg (by simpa only [not_or, not_lt] using h)]

/-- The tracker holds what the calls before it come to. -/
structure Tracks (initial : Int × Int) (threshold : Int) (calls : List Call)
    (t : StableFrameSizeTracker) : Prop where
  committed : (t.width, t.height) = committed initial calls
  bound : t.threshold = threshold
  counted : ∀ size, size ≠ StableSize.committed initial calls →
    (stableRun size calls : Int) =
      if size = (t.pendingWidth, t.pendingHeight) then t.pendingCount else 0
  triggered : t.triggered = decide (threshold ≤ t.pendingCount)

section Tracks
variable {initial : Int × Int} {threshold : Int} {calls : List Call} {t : StableFrameSizeTracker}
  {width height : ℚ}

/-- A tracker that waits for no size. -/
theorem Tracks.of_reset (hthreshold : 2 ≤ threshold)
    (hcommitted : (t.width, t.height) = StableSize.committed initial calls)
    (hsame : t.threshold = threshold)
    (hnone : ∀ size, size ≠ StableSize.committed initial calls → stableRun size calls = 0) :
    Tracks initial threshold calls t.resetPending where
  committed := hcommitted
  bound := hsame
  counted := by
    intro size hsize
    rw [hnone size hsize]
    exact (ite_self _).symm
  triggered := by
    have : ¬threshold ≤ 0 := by omega
    simp [StableFrameSizeTracker.resetPending, this]

/-- What an observation that goes well comes to: the tracker keeps up, and the size is returned as
the run gets long enough. -/
def Observed (initial : Int × Int) (threshold : Int) (calls : List Call) (width height : ℚ)
    (r : Option (Int × Int) × StableFrameSizeTracker) : Prop :=
  Tracks initial threshold (calls ++ [.observe width height]) r.2 ∧
    ∀ size, r.1 = some size ↔ size ≠ StableSize.committed initial calls ∧
      (stableRun size (calls ++ [.observe width height]) : Int) = threshold

/-- The committed size breaks every run. -/
theorem Tracks.observe_committed (h : Tracks initial threshold calls t) (hthreshold : 2 ≤ threshold)
    (hback : (⌊width⌋, ⌊height⌋) = (t.width, t.height)) :
    Observed initial threshold calls width height (none, t.resetPending) := by
  have hcommitted := h.committed
  have hnone : ∀ size, size ≠ StableSize.committed initial calls →
      stableRun size (calls ++ [.observe width height]) = 0 := by
    intro size hne
    rw [stableRun_observe, if_neg]
    rintro rfl
    exact hne (hback.trans hcommitted)
  constructor
  · rw [← committed_observe] at hcommitted
    apply Tracks.of_reset hthreshold hcommitted h.bound
    rwa [committed_observe]
  · intro size
    constructor
    · rintro ⟨⟩
    · rintro ⟨hne, hrun⟩
      rw [hnone size hne] at hrun
      omega

/-- Another size than the one that was waited for begins a run. -/
theorem Tracks.observe_other (h : Tracks initial threshold calls t) (hthreshold : 2 ≤ threshold)
    (hnew : (⌊width⌋, ⌊height⌋) ≠ (t.width, t.height))
    (hother : (⌊width⌋, ⌊height⌋) ≠ (t.pendingWidth, t.pendingHeight)) :
    Observed initial threshold calls width height (none, { t with
      pendingWidth := ⌊width⌋, pendingHeight := ⌊height⌋, pendingCount := 1,
      triggered := false }) := by
  rw [h.committed] at hnew
  have hcount := h.counted _ hnew
  rw [if_neg hother] at hcount
  have hnext : ∀ size, (stableRun size (calls ++ [.observe width height]) : Int) =
      if size = (⌊width⌋, ⌊height⌋) then 1 else 0 := by
    intro size
    rw [stableRun_observe]
    by_cases heq : (⌊width⌋, ⌊height⌋) = size
    · subst heq
      rw [if_pos rfl, if_pos rfl]
      omega
    · rw [if_neg heq, if_neg (Ne.symm heq)]
      rfl
  constructor
  · constructor
    · rw [committed_observe]
      exact h.committed
    · exact h.bound
    · intro size _
      exact hnext size
    · have : ¬threshold ≤ 1 := by omega
      exact (decide_eq_false this).symm
  · intro size
    constructor
    · rintro ⟨⟩
    · rintro ⟨hne, hrun⟩
      rw [hnext size] at hrun
      split at hrun <;> omega

/-- The size that was waited for makes its run longer. -/
theorem Tracks.observe_pending (h : Tracks initial threshold calls t) (hthreshold : 2 ≤ threshold)
    (hnew : (⌊width⌋, ⌊height⌋) ≠ (t.width, t.height))
    (hpending : (⌊width⌋, ⌊height⌋) = (t.pendingWidth, t.pendingHeight)) :
    Observed initial threshold calls width height
      (if t.pendingCount + 1 < t.threshold ∨ t.triggered then
        (none, { t with pendingCount := t.pendingCount + 1 })
      else (some (t.pendingWidth, t.pendingHeight),
        { t with pendingCount := t.pendingCount + 1, triggered := true })) := by
  have hbound := h.bound
  have htriggered := h.triggered
  rw [h.committed] at hnew
  have hcount := h.counted _ hnew
  rw [if_pos hpending] at hcount
  have hnext : ∀ size, size ≠ StableSize.committed initial calls →
      (stableRun size (calls ++ [.observe width height]) : Int) =
        if size = (t.pendingWidth, t.pendingHeight) then t.pendingCount + 1 else 0 := by
    intro size hne
    rw [stableRun_observe, ← hpending]
    by_cases heq : (⌊width⌋, ⌊height⌋) = size
    · subst heq
      rw [if_pos rfl, if_pos rfl]
      omega
    · rw [if_neg heq, if_neg (Ne.symm heq)]
      rfl
  have hkept : ∀ fired, fired = decide (threshold ≤ t.pendingCount + 1) →
      Tracks initial threshold (calls ++ [.observe width height])
        { t with pendingCount := t.pendingCount + 1, triggered := fired } := by
    rintro _ rfl
    constructor
    · rw [committed_observe]
      exact h.committed
    · exact hbound
    · rw [committed_observe]
      exact hnext
    · rfl
  split
  · rename_i hquiet
    rw [hbound, htriggered, decide_eq_true_eq] at hquiet
    constructor
    · apply hkept
      rw [htriggered, decide_eq_decide]
      omega
    · intro size
      constructor
      · rintro ⟨⟩
      · rintro ⟨hne, hrun⟩
        rw [hnext size hne] at hrun
        split at hrun <;> omega
  · rename_i hfires
    rw [hbound, htriggered, decide_eq_true_eq, not_or] at hfires
    constructor
    · apply hkept
      have : threshold ≤ t.pendingCount + 1 := by omega
      exact (decide_eq_true this).symm
    · intro size
      constructor
      · rintro ⟨⟩
        rw [← hpending]
        refine ⟨hnew, ?_⟩
        rw [hnext _ hnew, if_pos hpending]
        omega
      · rintro ⟨hne, hrun⟩
        rw [hnext size hne] at hrun
        split at hrun
        · rename_i heq
          rw [heq]
        · omega

theorem Tracks.observe (h : Tracks initial threshold calls t) (hthreshold : 2 ≤ threshold)
    (hsize : 2 ≤ width ∧ 2 ≤ height) :
    ∃ r, t.observe (.finite width) (.finite height) = .ok r ∧
      Observed initial threshold calls width height r := by
  rw [StableFrameSizeTracker.observe, normalizeSourceSize_ok hsize]
  dsimp only
  split
  · rename_i hback
    rw [← Prod.mk.injEq] at hback
    exact ⟨_, rfl, h.observe_committed hthreshold hback⟩
  · rename_i hnew
    rw [← Prod.mk.injEq] at hnew
    split
    · rename_i hother
      rw [ne_eq, ne_eq, ← not_and_or, ← Prod.mk.injEq] at hother
      exact ⟨_, rfl, h.observe_other hthreshold hnew hother⟩
    · rename_i hpending
      rw [ne_eq, ne_eq, ← not_and_or, not_not, ← Prod.mk.injEq] at hpending
      refine ⟨_, ?_, h.observe_pending hthreshold hnew hpending⟩
      split <;> rfl

theorem Tracks.commit (hthreshold : 2 ≤ threshold) (h : Tracks initial threshold calls t)
    (hsize : 2 ≤ width ∧ 2 ≤ height) :
    ∃ t', t.commit (.finite width) (.finite height) = .ok t' ∧
      Tracks initial threshold (calls ++ [.commit width height]) t' := by
  rw [StableFrameSizeTracker.commit, normalizeSourceSize_ok hsize]
  refine ⟨_, rfl, ?_⟩
  apply Tracks.of_reset hthreshold
  · rw [committed_commit]
  · exact h.bound
  · intro size hne
    rw [stableRun_append]
    rfl

theorem Tracks.call (hthreshold : 2 ≤ threshold) (h : Tracks initial threshold calls t) {call : Call}
    (hsize : call.Sized) :
    ∃ result t', call.run t = .ok (result, t') ∧ Tracks initial threshold (calls ++ [call]) t' := by
  cases call with
  | observe width height =>
    obtain ⟨⟨result, t'⟩, hrun, htracks, -⟩ := h.observe hthreshold hsize
    exact ⟨result, t', hrun, htracks⟩
  | commit width height =>
    obtain ⟨t', hrun, htracks⟩ := h.commit hthreshold hsize
    refine ⟨none, t', ?_, htracks⟩
    rw [Call.run, hrun]
    rfl

theorem Tracks.run (hthreshold : 2 ≤ threshold) (h : Tracks initial threshold calls t)
    {more : List Call} (hsized : ∀ call ∈ more, call.Sized) :
    ∃ t', StableSize.run t more = .ok t' ∧ Tracks initial threshold (calls ++ more) t' := by
  induction more generalizing calls t with
  | nil => exact ⟨t, rfl, by simpa using h⟩
  | cons call more ih =>
    obtain ⟨result, t₁, hcall, htracks⟩ := h.call hthreshold (hsized call (List.mem_cons_self ..))
    obtain ⟨t₂, hrun, hrest⟩ := ih htracks fun call hmem => hsized call (List.mem_cons_of_mem _ hmem)
    rw [List.append_cons]
    refine ⟨t₂, ?_, hrest⟩
    rw [StableSize.run, hcall]
    exact hrun

end Tracks

section Constructed
variable {width height : ℚ} {threshold : Int} {t : StableFrameSizeTracker} {calls : List Call}

theorem tracks_construct (hthreshold : 2 ≤ threshold) (hsize : 2 ≤ width ∧ 2 ≤ height) :
    ∃ t, StableFrameSizeTracker.construct (.finite width) (.finite height) (.integer threshold) =
      .ok t ∧ Tracks (⌊width⌋, ⌊height⌋) threshold [] t := by
  rw [StableFrameSizeTracker.construct, normalizeSourceSize_ok hsize]
  dsimp only
  rw [if_neg (by omega)]
  refine ⟨_, rfl, rfl, rfl, fun size _ => ?_, ?_⟩
  · exact (ite_self _).symm
  · have : ¬threshold ≤ 0 := by omega
    exact (decide_eq_false this).symm

/-- What is returned after any calls. -/
theorem returned_iff {initial : Int × Int} (h : Tracks initial threshold [] t)
    (hthreshold : 2 ≤ threshold) (hsized : ∀ call ∈ calls, call.Sized) (hsize : 2 ≤ width ∧ 2 ≤ height) :
    ∃ result, returned t calls width height = .ok result ∧
      ∀ size, result = some size ↔ size ≠ committed initial calls ∧
        (stableRun size (calls ++ [.observe width height]) : Int) = threshold := by
  obtain ⟨t', hrun, htracks⟩ := h.run hthreshold hsized
  rw [List.nil_append] at htracks
  obtain ⟨r, hobserve, -, hr⟩ := htracks.observe hthreshold hsize
  refine ⟨r.1, ?_, hr⟩
  rw [returned, hrun]
  dsimp only
  rw [hobserve]
  rfl

end Constructed

section Captured
variable {width height : Nat}

def whole (size : Nat × Nat) : Int × Int := (size.1, size.2)

theorem whole_injective : Function.Injective whole := by
  rintro ⟨width, height⟩ ⟨width', height'⟩ h
  simpa only [whole, Prod.mk.injEq, Int.natCast_inj] using h

/-- The tracker of a capture, which works on whole sizes with the default threshold. -/
def lift (t : Offscreen.StableFrameSizeTracker) : StableFrameSizeTracker where
  width := t.width
  height := t.height
  threshold := videoDimensionStabilityFrames
  pendingWidth := t.pendingWidth
  pendingHeight := t.pendingHeight
  pendingCount := t.pendingCount
  triggered := t.triggered

theorem normalizeSourceSize_natCast (h : 2 ≤ width ∧ 2 ≤ height) :
    normalizeSourceSize (.finite (width : ℚ)) (.finite (height : ℚ)) =
      .ok ((width : Int), (height : Int)) := by
  have hsize : 2 ≤ (width : ℚ) ∧ 2 ≤ (height : ℚ) := by exact_mod_cast h
  rw [normalizeSourceSize_ok hsize, Int.floor_natCast, Int.floor_natCast]

theorem observe_lift (t : Offscreen.StableFrameSizeTracker) (h : 2 ≤ width ∧ 2 ≤ height) :
    (lift t).observe (.finite width) (.finite height) =
      .ok ((t.observe width height).1.map whole,
        lift (t.observe width height).2) := by
  rw [StableFrameSizeTracker.observe, normalizeSourceSize_natCast h]
  unfold Offscreen.StableFrameSizeTracker.observe
  by_cases hback : width = t.width ∧ height = t.height
  · simp [lift, hback, StableFrameSizeTracker.resetPending,
      Offscreen.StableFrameSizeTracker.resetPending]
  · by_cases hother : width ≠ t.pendingWidth ∨ height ≠ t.pendingHeight
    · simp only [lift, Int.natCast_inj, if_neg hback, ne_eq, if_pos hother]
      rfl
    · have hcount : (t.pendingCount : Int) + 1 < videoDimensionStabilityFrames ↔
          t.pendingCount + 1 < Offscreen.StableFrameSizeTracker.threshold := by
        rw [videoDimensionStabilityFrames, Offscreen.StableFrameSizeTracker.threshold]
        omega
      simp only [lift, Int.natCast_inj, if_neg hback, ne_eq, if_neg hother, hcount]
      split <;> rfl

theorem commit_lift (t : Offscreen.StableFrameSizeTracker) (h : 2 ≤ width ∧ 2 ≤ height) :
    (lift t).commit (.finite width) (.finite height) = .ok (lift (t.commit width height)) := by
  rw [StableFrameSizeTracker.commit, normalizeSourceSize_natCast h]
  rfl

/-- A call as a capture makes it. -/
inductive WholeCall where
  | observe (width height : Nat)
  | commit (width height : Nat)

namespace WholeCall

def Sized : WholeCall → Prop
  | observe width height | commit width height => 2 ≤ width ∧ 2 ≤ height

def call : WholeCall → Call
  | observe width height => .observe width height
  | commit width height => .commit width height

def run (t : Offscreen.StableFrameSizeTracker) : WholeCall → Offscreen.StableFrameSizeTracker
  | observe width height => (t.observe width height).2
  | commit width height => t.commit width height

end WholeCall

variable {initial : Int × Int} {calls : List Call} {t : Offscreen.StableFrameSizeTracker}

theorem Tracks.observe_whole (h : Tracks initial videoDimensionStabilityFrames calls (lift t))
    (hsize : 2 ≤ width ∧ 2 ≤ height) :
    Observed initial videoDimensionStabilityFrames calls width height
      ((t.observe width height).1.map whole,
        lift (t.observe width height).2) := by
  have hrational : 2 ≤ (width : ℚ) ∧ 2 ≤ (height : ℚ) := by exact_mod_cast hsize
  obtain ⟨r, hobserve, hobserved⟩ := h.observe (by decide) hrational
  rw [observe_lift t hsize] at hobserve
  cases hobserve
  exact hobserved

theorem Tracks.call_whole (h : Tracks initial videoDimensionStabilityFrames calls (lift t))
    {call : WholeCall} (hsized : call.Sized) :
    Tracks initial videoDimensionStabilityFrames (calls ++ [call.call]) (lift (call.run t)) := by
  cases call with
  | observe width height => exact (h.observe_whole hsized).1
  | commit width height =>
    have hrational : 2 ≤ (width : ℚ) ∧ 2 ≤ (height : ℚ) := by exact_mod_cast hsized
    obtain ⟨t', hcommit, htracks⟩ := h.commit (by decide) hrational
    rw [commit_lift t hsized] at hcommit
    cases hcommit
    exact htracks

theorem tracks_captured (first : Nat × Nat) {calls : List WholeCall}
    (hsized : ∀ call ∈ calls, call.Sized) :
    Tracks (whole first) videoDimensionStabilityFrames (calls.map WholeCall.call)
      (lift (calls.foldl WholeCall.run { width := first.1, height := first.2 })) := by
  induction calls using List.reverseRecOn with
  | nil => exact ⟨rfl, rfl, fun size _ => (ite_self _).symm, rfl⟩
  | append_singleton calls call ih =>
    rw [List.map_append, List.foldl_append]
    have hbefore := ih fun call hmem => hsized call (List.mem_append_left _ hmem)
    exact hbefore.call_whole (hsized call (by simp))

/-- The source of a capture is configured anew for a size as the third frame of it in a row comes. -/
theorem reconfigures_iff (first size : Nat × Nat) (calls : List WholeCall)
    (hsized : ∀ call ∈ calls, call.Sized) (hsize : 2 ≤ width ∧ 2 ≤ height) :
    ((calls.foldl WholeCall.run { width := first.1, height := first.2 }).observe width height).1 =
        some size ↔
      whole size ≠ committed (whole first) (calls.map WholeCall.call) ∧
        stableRun (whole size) (calls.map WholeCall.call ++ [.observe width height]) = 3 := by
  have hiff := ((tracks_captured first hsized).observe_whole hsize).2 (whole size)
  rw [← Option.map_some, (Option.map_injective whole_injective).eq_iff] at hiff
  rw [hiff, videoDimensionStabilityFrames]
  exact and_congr_right' Nat.cast_inj

end Captured

/-- A size is returned as the observations of it since the last commit reach the threshold. -/
theorem stable_size (width height : ℚ) (threshold : Int) (calls : List Call) (w h : ℚ)
    (hsize : 2 ≤ width ∧ 2 ≤ height) (hthreshold : 2 ≤ threshold)
    (hsized : ∀ call ∈ calls ++ [.observe w h], call.Sized) :
    ∃ t, StableFrameSizeTracker.construct (.finite width) (.finite height) (.integer threshold) =
        .ok t ∧
      ∃ result, returned t calls w h = .ok result ∧
        ∀ size, result = some size ↔ size ≠ committed (⌊width⌋, ⌊height⌋) calls ∧
          (stableRun size (calls ++ [.observe w h]) : Int) = threshold := by
  obtain ⟨t, ht, htracks⟩ := tracks_construct hthreshold hsize
  refine ⟨t, ht, returned_iff htracks hthreshold (fun call hmem => ?_) ?_⟩
  · exact hsized call (List.mem_append_left _ hmem)
  · exact hsized (.observe w h) (by simp)

/-- A flicker does not count; the third frame of a size does. -/
theorem stable_size_third : ∃ t,
    StableFrameSizeTracker.construct (.finite 1280) (.finite 720) (.integer 3) = .ok t ∧
      returned t [.observe 1920 1080, .observe 1280 720, .observe 1920 1080, .observe 1920 1080]
        1920 1080 = .ok (some (1920, 1080)) := by
  obtain ⟨t, ht, result, hresult, hiff⟩ := stable_size 1280 720 3
    [.observe 1920 1080, .observe 1280 720, .observe 1920 1080, .observe 1920 1080] 1920 1080
    (by norm_num) (by decide) (by norm_num [Call.Sized])
  refine ⟨t, ht, hresult.trans ?_⟩
  rw [(hiff (1920, 1080)).mpr (by decide)]

end HarmonyScreen.Proofs.StableSize
