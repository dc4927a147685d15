import HarmonyScreen.Lib.Discipline
import HarmonyScreen.Lib.Rely

namespace HarmonyScreen.Lib

namespace Program

/-- The program, beside the sections it has taken. -/
def record : Program σ ε α → Program (σ × List (Step σ ε)) ε α
  | ret a => ret a
  | atomic ready act next =>
    atomic (fun x => ready x.1) (fun e x => (act e x.1, x.2 ++ [⟨x.1, e, act e x.1⟩]))
      (fun e x => (next e x.1).record)

@[simp] theorem record_ret (a : α) : (ret a : Program σ ε α).record = ret a := rfl

@[simp] theorem record_critical (f : ε → σ → α × σ) : (critical f).record =
    critical fun e x => ((f e x.1).1, (f e x.1).2, x.2 ++ [⟨x.1, e, (f e x.1).2⟩]) := rfl

@[simp] theorem record_bind (p : Program σ ε α) (f : α → Program σ ε β) :
    (p >>= f).record = p.record >>= fun a => (f a).record := by
  induction p with
  | ret a => rfl
  | atomic ready act next ih =>
    simp only [atomic_bind, record]
    congr 1
    funext e x
    exact ih e x.1

/-- What a program does in each section it does in each that is recorded. -/
theorem Every.record {G : σ → σ → Prop} {p : Program σ ε α} (hp : p.Every G) :
    p.record.Every fun x y => G x.1 y.1 ∧ x.2 <+: y.2 := by
  induction p with
  | ret a => trivial
  | atomic ready act next ih =>
    intro x e hx
    obtain ⟨hg, hn⟩ := hp x.1 e hx
    exact ⟨⟨hg, List.prefix_append _ _⟩, ih e x.1 hn⟩

end Program

/-- A section, with itself among the sections that were taken. -/
theorem Triple.recorded {R : σ × List (Step σ ε) → σ × List (Step σ ε) → Prop}
    {J : σ × List (Step σ ε) → Prop} {P : Assertion R J} {f : ε → σ → α × σ}
    {Q : α → Assertion R J} (h : ∀ e x, P.holds x →
      (Q (f e x.1).1).holds ((f e x.1).2, x.2 ++ [⟨x.1, e, (f e x.1).2⟩])) :
    Triple P (Program.critical f).record Q := by
  rw [Program.record_critical]
  exact .critical h

namespace Config

variable {ι σ ε ω : Type} [DecidableEq ι]

/-- A thread that is idle begins a job; it has taken no section of it. -/
def begins (c : Config ι σ ε) (i : ι) (taken : ι → List (Step σ ε)) : ι → List (Step σ ε) :=
  match c.threads i with
  | .ret _ => Function.update taken i []
  | .atomic _ _ _ => taken

/-- A thread takes its next section, if it can. -/
def takes (c : Config ι σ ε) (i : ι) (e : ε) (taken : ι → List (Step σ ε)) :
    ι → List (Step σ ε) :=
  match c.threads i with
  | .ret _ => taken
  | .atomic ready act _ =>
    if ready c.state then Function.update taken i (taken i ++ [⟨c.state, e, act e c.state⟩])
    else taken

/-- A run, with the sections that each thread has taken of its present job. -/
inductive Traced (spawn : ι → ω → Program σ ε Unit) (allowed : σ → ι → ω → Prop)
    (offers : ι → σ → ε → Prop) (c₀ : Config ι σ ε) :
    (ι → List (Step σ ε)) → Config ι σ ε → Prop where
  | refl : Traced spawn allowed offers c₀ (fun _ => []) c₀
  | start (i : ι) (job : ω) (run : Traced spawn allowed offers c₀ taken c)
      (ok : allowed c.state i job) :
      Traced spawn allowed offers c₀ (c.begins i taken) (c.step spawn (.start i job))
  | step (i : ι) (e : ε) (run : Traced spawn allowed offers c₀ taken c)
      (ok : offers i c.state e) :
      Traced spawn allowed offers c₀ (c.takes i e taken) (c.step spawn (.step i e))

variable {spawn : ι → ω → Program σ ε Unit} {allowed : σ → ι → ω → Prop}
  {offers : ι → σ → ε → Prop} {c₀ c : Config ι σ ε} {taken : ι → List (Step σ ε)}

/-- Every run has its sections. -/
theorem ReachesOffered.traced (h : ReachesOffered spawn allowed offers c₀ c) :
    ∃ taken, Traced spawn allowed offers c₀ taken c := by
  induction h with
  | refl => exact ⟨_, .refl⟩
  | start i job _ ok ih =>
    obtain ⟨taken, hrun⟩ := ih
    exact ⟨_, .start i job hrun ok⟩
  | step i e _ ok ih =>
    obtain ⟨taken, hrun⟩ := ih
    exact ⟨_, .step i e hrun ok⟩

theorem Traced.weaken {allowed' : σ → ι → ω → Prop} {offers' : ι → σ → ε → Prop}
    (h : Traced spawn allowed offers c₀ taken c) (ha : ∀ s i job, allowed s i job → allowed' s i job)
    (ho : ∀ i s e, offers i s e → offers' i s e) : Traced spawn allowed' offers' c₀ taken c := by
  induction h with
  | refl => exact .refl
  | start i job _ ok ih => exact .start i job ih (ha _ _ _ ok)
  | step i e _ ok ih => exact .step i e ih (ho _ _ _ ok)

section Watching
variable {D : Discipline ι σ ε} {rest : ι → σ → Prop} {W : σ → σ → Prop} {m : ι}
  {J I : σ × List (Step σ ε) → Prop}

/-- What a thread relies on while its sections are recorded. -/
def Watches (D : Discipline ι σ ε) (W : σ → σ → Prop) (m : ι)
    (x y : σ × List (Step σ ε)) : Prop :=
  D.rely m x.1 y.1 ∧ W x.1 y.1 ∧ y.2 = x.2

/-- The threads keep the discipline, and thread `m` what it promises of its sections. -/
structure Watched (D : Discipline ι σ ε) (rest : ι → σ → Prop) (W : σ → σ → Prop) (m : ι)
    (J I : σ × List (Step σ ε) → Prop) (taken : ι → List (Step σ ε))
    (c : Config ι σ ε) : Prop where
  kept : Kept D rest c
  main : (c.threads m).record.Safe (Watches D W m) J (fun _ => I) (c.state, taken m)
  others : ∀ i, i ≠ m → (c.threads i).Every W

theorem Watched.start (hc : Watched D rest W m J I taken c) (refl : ∀ s, W s s)
    (jobs : ∀ i job s, D.invariant s → rest i s → allowed s i job →
      (spawn i job).Meets D i (fun _ => rest i) s)
    (main : ∀ job s h, D.invariant s → rest m s → I (s, h) → allowed s m job →
      (spawn m job).record.Safe (Watches D W m) J (fun _ => I) (s, []))
    (others : ∀ i job, i ≠ m → (spawn i job).Every W) (i : ι) (job : ω)
    (ok : allowed c.state i job) :
    Watched D rest W m J I (c.begins i taken) (c.step spawn (.start i job)) := by
  have hkept := hc.kept.start jobs i job ok
  obtain ⟨hk, hm, ho⟩ := hc
  simp only [Config.step, begins] at hkept ⊢
  cases hat : c.threads i with
  | atomic ready act next => exact ⟨hk, hm, ho⟩
  | ret a =>
    rw [hat] at hkept
    by_cases him : i = m
    · subst him
      have hrest := hk.2 i
      rw [hat] at hm hrest
      have hI := (hm (c.state, taken i) ⟨D.refl i _, refl _, rfl⟩).2
      refine ⟨hkept, ?_, fun j hj => by simpa [Function.update_of_ne hj] using ho j hj⟩
      simpa using main job c.state _ hk.1 (hrest c.state (D.refl i _) hk.1) hI ok
    · refine ⟨hkept, by simpa [Function.update_of_ne (Ne.symm him)] using hm, fun j hj => ?_⟩
      by_cases hji : j = i
      · subst hji
        simpa using others j job hj
      · simpa [Function.update_of_ne hji] using ho j hj

theorem Watched.step (hc : Watched D rest W m J I taken c) (refl : ∀ s, W s s)
    (trans : ∀ {s t u}, W s t → W t u → W s u) (i : ι) (e : ε) (ok : D.offers i c.state e) :
    Watched D rest W m J I (c.takes i e taken) (c.step spawn (.step i e)) := by
  have hkept : Kept D rest (c.step spawn (.step i e)) := hc.kept.step i e ok
  obtain ⟨hk, hm, ho⟩ := hc
  simp only [Config.step, takes] at hkept ⊢
  cases hat : c.threads i with
  | ret a => exact ⟨hk, hm, ho⟩
  | atomic ready act next =>
    rw [hat] at hkept
    by_cases go : ready c.state = true
    · simp only [if_pos go] at hkept ⊢
      by_cases him : i = m
      · subst him
        rw [hat] at hm
        refine ⟨hkept, ?_, fun j hj => by simpa [Function.update_of_ne hj] using ho j hj⟩
        simpa using (hm (c.state, taken i) ⟨D.refl i _, refl _, rfl⟩).2 go e
      · have hmeets := hk.2 i
        have hevery := ho i him
        rw [hat] at hmeets hevery
        obtain ⟨-, hgo, -⟩ := hmeets c.state (D.refl i _) hk.1 go e ok
        obtain ⟨hw, hnext⟩ := hevery c.state e go
        have hrely : Watches D W m (c.state, taken m) (act e c.state, taken m) :=
          ⟨D.compatible him hk.1 hgo, hw, rfl⟩
        have hsafe := hm.interfere (fun hx hy => ⟨D.trans m hx.1 hy.1, trans hx.2.1 hy.2.1,
          hy.2.2.trans hx.2.2⟩) hrely
        refine ⟨hkept, by simpa [Function.update_of_ne (Ne.symm him)] using hsafe, fun j hj => ?_⟩
        by_cases hji : j = i
        · subst hji
          simpa using hnext
        · simpa [Function.update_of_ne hji] using ho j hj
    · simp only [if_neg go] at hkept ⊢
      exact ⟨hkept, hm, ho⟩

/-- The run lemma: what the jobs of a thread promise of its sections holds in every run. -/
theorem Traced.safe {s : σ} (hc : Traced spawn allowed D.offers (idle s) taken c)
    (refl : ∀ s, W s s) (trans : ∀ {s t u}, W s t → W t u → W s u)
    (hs : D.invariant s) (stable : ∀ i, D.Stable i (rest i)) (hrest : ∀ i, rest i s)
    (jobs : ∀ i job s, D.invariant s → rest i s → allowed s i job →
      (spawn i job).Meets D i (fun _ => rest i) s)
    (hI : ∀ x y, I x → Watches D W m x y → J y ∧ I y) (hidle : I (s, []))
    (main : ∀ job s h, D.invariant s → rest m s → I (s, h) → allowed s m job →
      (spawn m job).record.Safe (Watches D W m) J (fun _ => I) (s, []))
    (others : ∀ i job, i ≠ m → (spawn i job).Every W) : J (c.state, taken m) := by
  have hwatched : Watched D rest W m J I taken c := by
    induction hc with
    | refl =>
      exact ⟨⟨hs, fun i t ht hi => stable i s t (hrest i) ht hi⟩, fun y hy => hI _ y hidle hy,
        fun _ _ => trivial⟩
    | start i job _ ok ih => exact ih.start refl jobs main others i job ok
    | step i e _ ok ih => exact ih.step refl trans i e ok
  exact hwatched.main.now ⟨D.refl m _, refl _, rfl⟩

end Watching

end Config

end HarmonyScreen.Lib
