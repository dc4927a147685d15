import HarmonyScreen.Lib.Discipline

namespace HarmonyScreen.Lib.Config
open Program

variable {ι σ ε ω : Type} [DecidableEq ι]

/-- As `ReachesOffered`, with the jobs that were started: each on a thread that had nothing left
to do, in their order. -/
inductive ReachesBy (spawn : ι → ω → Program σ ε Unit) (allowed : σ → ι → ω → Prop)
    (offers : ι → σ → ε → Prop) (c₀ : Config ι σ ε) : List (ι × ω) → Config ι σ ε → Prop where
  | refl : ReachesBy spawn allowed offers c₀ [] c₀
  | start (i : ι) (job : ω) (reached : ReachesBy spawn allowed offers c₀ jobs c)
      (rest : c.threads i = .ret ()) (ok : allowed c.state i job) :
      ReachesBy spawn allowed offers c₀ (jobs ++ [(i, job)]) (c.step spawn (.start i job))
  | step (i : ι) (e : ε) (reached : ReachesBy spawn allowed offers c₀ jobs c)
      (ok : offers i c.state e) : ReachesBy spawn allowed offers c₀ jobs (c.step spawn (.step i e))

variable {spawn : ι → ω → Program σ ε Unit} {allowed : σ → ι → ω → Prop}
  {offers : ι → σ → ε → Prop} {c₀ c d : Config ι σ ε} {jobs : List (ι × ω)} {i j m : ι} {job : ω}

theorem ReachesBy.reaches (h : ReachesBy spawn allowed offers c₀ jobs c) :
    ReachesOffered spawn allowed offers c₀ c := by
  induction h with
  | refl => exact .refl
  | start i job _ _ ok ih => exact .start i job ih ok
  | step i e _ ok ih => exact .step i e ih ok

theorem step_busy {ready : σ → Bool} {act : ε → σ → σ} {next : ε → σ → Program σ ε Unit}
    (h : c.threads i = .atomic ready act next) : c.step spawn (.start i job) = c := by
  simp only [Config.step, h]

theorem step_idle (h : c.threads i = .ret ()) : c.step spawn (.start i job) =
    { c with threads := Function.update c.threads i (spawn i job) } := by
  simp only [Config.step, h]

/-- The jobs that a schedule starts. -/
def performed (spawn : ι → ω → Program σ ε Unit) :
    List (Move ι ε ω) → Config ι σ ε → List (ι × ω)
  | [], _ => []
  | .start i job :: moves, c =>
    match c.threads i with
    | .ret _ => (i, job) :: performed spawn moves (c.step spawn (.start i job))
    | .atomic _ _ _ => performed spawn moves (c.step spawn (.start i job))
  | .step i e :: moves, c => performed spawn moves (c.step spawn (.step i e))

theorem ReachesBy.follow [∀ s i job, Decidable (allowed s i job)]
    [∀ i s e, Decidable (offers i s e)] (hc : ReachesBy spawn allowed offers c₀ jobs c)
    (moves : List (Move ι ε ω)) (h : Config.follow spawn allowed offers moves c = some d) :
    ReachesBy spawn allowed offers c₀ (jobs ++ performed spawn moves c) d := by
  induction moves generalizing jobs c with
  | nil =>
    cases h
    rwa [performed, List.append_nil]
  | cons move moves ih =>
    cases move with
    | start i job =>
      rw [Config.follow] at h
      split at h
      · rename_i ok
        cases hat : c.threads i with
        | ret a =>
          have hnext := ih (.start i job hc hat ok) h
          rw [List.append_assoc, List.singleton_append] at hnext
          simpa only [performed, hat] using hnext
        | atomic ready act next =>
          have hsame : c.step spawn (.start i job) = c := step_busy hat
          rw [hsame] at h
          simpa only [performed, hat, hsame] using ih hc h
      · cases h
    | step i e =>
      rw [Config.follow] at h
      split at h
      · rename_i ok
        exact ih (.step i e hc ok) h
      · cases h

/-- The jobs of one thread. -/
def given (i : ι) (jobs : List (ι × ω)) : List ω :=
  jobs.filterMap fun job => if job.1 = i then some job.2 else none

@[simp] theorem given_nil (i : ι) : given i ([] : List (ι × ω)) = [] := rfl

@[simp] theorem given_same (i : ι) (jobs : List (ι × ω)) (job : ω) :
    given i (jobs ++ [(i, job)]) = given i jobs ++ [job] := by
  simp [given]

theorem given_other (h : j ≠ i) (jobs : List (ι × ω)) (job : ω) :
    given i (jobs ++ [(j, job)]) = given i jobs := by
  simp [given, h]

section Separated
variable {R : σ → σ → Prop} {J J' I I' : σ → Prop}

/-- The main thread takes up a job. -/
theorem Separated.begins (hc : Separated R J I m c) (refl : ∀ s, R s s)
    (hret : c.threads m = .ret ())
    (main : ∀ s, I s → (spawn m job).Safe R J' (fun _ => I') s) :
    Separated R J' I' m (c.step spawn (.start m job)) := by
  obtain ⟨hm, ho⟩ := hc
  rw [hret] at hm
  rw [step_idle hret]
  refine ⟨?_, fun j hj => by simpa [Function.update_of_ne hj] using ho j hj⟩
  simpa using main c.state (hm c.state (refl _)).2

/-- Another one does. -/
theorem Separated.beside (hc : Separated R J I m c) (hi : i ≠ m) (hret : c.threads i = .ret ())
    (hjob : (spawn i job).Every R) : Separated R J I m (c.step spawn (.start i job)) := by
  obtain ⟨hm, ho⟩ := hc
  rw [step_idle hret]
  refine ⟨by simpa [Function.update_of_ne (Ne.symm hi)] using hm, fun j hj => ?_⟩
  by_cases hji : j = i
  · subst hji
    simpa using hjob
  · simpa [Function.update_of_ne hji] using ho j hj

/-- The run lemma where what holds of the main thread depends on the jobs that it was given. -/
theorem ReachesBy.separated {J I : List ω → σ → Prop} (refl : ∀ s, R s s)
    (trans : ∀ {s t u}, R s t → R t u → R s u) (hr : ∀ s t, I [] s → R s t → I [] t)
    (hj : ∀ s, I [] s → J [] s)
    (main : ∀ js job s, I js s → (spawn m job).Safe R (J (js ++ [job])) (fun _ => I (js ++ [job])) s)
    (others : ∀ i job, i ≠ m → (spawn i job).Every R) {s : σ} (hs : I [] s)
    (hc : ReachesBy spawn allowed offers (idle s) jobs c) :
    Separated R (J (given m jobs)) (I (given m jobs)) m c := by
  induction hc with
  | refl => exact .idle hr hj hs
  | start i job _ hret _ ih =>
    by_cases him : i = m
    · subst him
      rw [given_same]
      exact ih.begins refl hret (main _ job)
    · rw [given_other him]
      exact ih.beside him hret (others i job him)
  | step i e _ _ ih => exact ih.step refl trans i e

end Separated

section Kept
variable {D : Discipline ι σ ε} {rest rest' : ι → σ → Prop}

theorem Kept.begins (hc : Kept D rest c) (hret : c.threads i = .ret ())
    (hjob : ∀ s, D.invariant s → rest i s → (spawn i job).Meets D i (fun _ => rest' i) s)
    (hsame : ∀ j, j ≠ i → rest' j = rest j) : Kept D rest' (c.step spawn (.start i job)) := by
  obtain ⟨hi, ht⟩ := hc
  rw [step_idle hret]
  refine ⟨hi, fun j => ?_⟩
  by_cases hji : j = i
  · subst hji
    have hrest := ht j
    rw [hret] at hrest
    simpa using hjob c.state hi (hrest c.state (D.refl j _) hi)
  · simpa [Function.update_of_ne hji, hsame j hji] using ht j

/-- The run lemma where the threads rest in what their jobs have left. -/
theorem ReachesBy.kept {rest : ι → List ω → σ → Prop} {s : σ}
    (hc : ReachesBy spawn allowed D.offers (idle s) jobs c) (hs : D.invariant s)
    (stable : ∀ i, D.Stable i (rest i [])) (hrest : ∀ i, rest i [] s)
    (main : ∀ i js job s, D.invariant s → rest i js s →
      (spawn i job).Meets D i (fun _ => rest i (js ++ [job])) s) :
    Kept D (fun i => rest i (given i jobs)) c := by
  induction hc with
  | refl => exact ⟨hs, fun i t ht hi => stable i s t (hrest i) ht hi⟩
  | start i job _ hret _ ih =>
    refine ih.begins hret (fun s hs hrest => ?_) fun j hj => ?_
    · rw [given_same]
      exact main i _ job s hs hrest
    · rw [given_other (Ne.symm hj)]
  | step i e _ ok ih => exact ih.step i e ok

end Kept

end HarmonyScreen.Lib.Config
