import HarmonyScreen.Lib.Program

namespace HarmonyScreen.Lib

/-- What the threads of a process promise each other. Each thread keeps the
invariant and takes only steps it guarantees; what one guarantees is among what
every other relies on. `offers` is what a thread's sections may learn. -/
structure Discipline (ι σ ε : Type) where
  invariant : σ → Prop
  offers : ι → σ → ε → Prop
  rely : ι → σ → σ → Prop
  guarantee : ι → σ → σ → Prop
  refl : ∀ i s, rely i s s
  trans : ∀ i {s t u}, rely i s t → rely i t u → rely i s u
  compatible : ∀ {i j s t}, i ≠ j → invariant s → guarantee i s t → rely j s t

namespace Program

variable {ι σ ε α β : Type}

/-- Started in `s` by thread `i`, whatever the others do within the discipline,
the program keeps to it too, and `Q` holds of its result at the end. -/
def Meets (D : Discipline ι σ ε) (i : ι) : Program σ ε α → (α → σ → Prop) → σ → Prop
  | ret a, Q, s => ∀ t, D.rely i s t → D.invariant t → Q a t
  | atomic ready act next, Q, s => ∀ t, D.rely i s t → D.invariant t → ready t = true →
      ∀ e, D.offers i t e → D.invariant (act e t) ∧ D.guarantee i t (act e t) ∧
        Meets D i (next e t) Q (act e t)

variable {D : Discipline ι σ ε} {i : ι} {p : Program σ ε α} {Q Q' : α → σ → Prop} {s t : σ}

theorem Meets.interfere (hp : p.Meets D i Q s) (ht : D.rely i s t) : p.Meets D i Q t := by
  cases p with
  | ret a => exact fun u hu => hp u (D.trans i ht hu)
  | atomic ready act next => exact fun u hu => hp u (D.trans i ht hu)

theorem Meets.mono (hp : p.Meets D i Q s) (hq : ∀ a t, D.invariant t → Q a t → Q' a t) :
    p.Meets D i Q' s := by
  induction p generalizing s with
  | ret a => exact fun t ht hi => hq a t hi (hp t ht hi)
  | atomic ready act next ih =>
    intro t ht hi hr e he
    obtain ⟨hkeep, hgo, hn⟩ := hp t ht hi hr e he
    exact ⟨hkeep, hgo, ih e t hn⟩

theorem Meets.bind {f : α → Program σ ε β} {Q : β → σ → Prop} (hs : D.invariant s)
    (hp : p.Meets D i (fun a t => (f a).Meets D i Q t) s) : (p >>= f).Meets D i Q s := by
  induction p generalizing s with
  | ret a => exact hp s (D.refl i s) hs
  | atomic ready act next ih =>
    intro t ht hi hr e he
    obtain ⟨hkeep, hgo, hn⟩ := hp t ht hi hr e he
    exact ⟨hkeep, hgo, ih e t hkeep hn⟩

/-- Adequacy for one program: in every run against interference within the discipline the
sections are guaranteed ones, and what is left keeps its promise. -/
theorem Meets.runs {R : σ → σ → Prop} {q : Program σ ε α} {h : List (Step σ ε)}
    (hR : ∀ s t, D.invariant s → R s t → D.rely i s t ∧ D.invariant t) (hs : D.invariant s)
    (hp : p.Meets D i Q s) (hr : Runs R p s h q t)
    (ho : ∀ step ∈ h, D.offers i step.before step.learned) :
    D.invariant t ∧ q.Meets D i Q t ∧ ∀ step ∈ h, D.guarantee i step.before step.after := by
  induction hr with
  | refl => exact ⟨hs, hp, fun _ hmem => by cases hmem⟩
  | interfere _ other ih =>
    obtain ⟨hi, hq, hg⟩ := ih ho
    obtain ⟨hrely, hi'⟩ := hR _ _ hi other
    exact ⟨hi', hq.interfere hrely, hg⟩
  | own e _ go ih =>
    obtain ⟨hi, hq, hg⟩ := ih fun step hmem => ho step (List.mem_append_left _ hmem)
    have he := ho _ (List.mem_append_right _ (List.mem_singleton_self _))
    obtain ⟨hkeep, hgo, hn⟩ := hq _ (D.refl i _) hi go e he
    refine ⟨hkeep, hn, fun step hmem => ?_⟩
    rcases List.mem_append.mp hmem with hmem | hmem
    · exact hg step hmem
    · obtain rfl := List.mem_singleton.mp hmem
      exact hgo

end Program

/-- What the sections of an undisturbed run do, the run does. -/
theorem Runs.undisturbed {σ ε α : Type} {G : σ → σ → Prop} {p q : Program σ ε α} {s t : σ}
    {h : List (Step σ ε)} (refl : ∀ s, G s s) (trans : ∀ {s t u}, G s t → G t u → G s u)
    (hr : Runs Eq p s h q t) (hg : ∀ step ∈ h, G step.before step.after) : G s t := by
  induction hr with
  | refl => exact refl _
  | interfere _ other ih => exact other ▸ ih hg
  | own e _ go ih =>
    exact trans (ih fun step hmem => hg step (List.mem_append_left _ hmem))
      (hg _ (List.mem_append_right _ (List.mem_singleton_self _)))

namespace Discipline

variable {ι σ ε α β : Type} (D : Discipline ι σ ε) (i : ι)

/-- The other threads keep the assertion. -/
def Stable (P : σ → Prop) : Prop := ∀ s t, P s → D.rely i s t → D.invariant t → P t

/-- From `P`, the program of thread `i` keeps the discipline and ends with `Q`. -/
def Outline (P : σ → Prop) (p : Program σ ε α) (Q : α → σ → Prop) : Prop :=
  ∀ s, D.invariant s → P s → p.Meets D i Q s

variable {D i} {P P' : σ → Prop} {p : Program σ ε α} {Q Q' : α → σ → Prop}

theorem Stable.and (hp : D.Stable i P) (hp' : D.Stable i P') : D.Stable i fun s => P s ∧ P' s :=
  fun s t h r hi => ⟨hp s t h.1 r hi, hp' s t h.2 r hi⟩

theorem Stable.true : D.Stable i fun _ => True := fun _ _ _ _ _ => trivial

namespace Outline

theorem ret (a : α) (stable : D.Stable i P) (h : ∀ s, D.invariant s → P s → Q a s) :
    D.Outline i P (.ret a : Program σ ε α) Q :=
  fun s _ hs t ht hi => h t hi (stable s t hs ht hi)

theorem critical {f : ε → σ → α × σ} (stable : D.Stable i P) (after : ∀ a, D.Stable i (Q a))
    (h : ∀ e s, D.invariant s → P s → D.offers i s e →
      D.invariant (f e s).2 ∧ D.guarantee i s (f e s).2 ∧ Q (f e s).1 (f e s).2) :
    D.Outline i P (.critical f) Q := by
  intro s _ hs t ht hi _ e he
  obtain ⟨hkeep, hgo, hq⟩ := h e t hi (stable s t hs ht hi) he
  exact ⟨hkeep, hgo, fun u hu hiu => after _ _ u hq hu hiu⟩

/-- A section that waits may assume what it waited for. -/
theorem atomic {ready : σ → Bool} {act : ε → σ → σ} {next : ε → σ → Program σ ε α}
    (stable : D.Stable i P)
    (h : ∀ e s, D.invariant s → P s → D.offers i s e → ready s = true →
      D.invariant (act e s) ∧ D.guarantee i s (act e s) ∧ (next e s).Meets D i Q (act e s)) :
    D.Outline i P (.atomic ready act next) Q :=
  fun s _ hs t ht hi hr e he => h e t hi (stable s t hs ht hi) he hr

theorem bind {f : α → Program σ ε β} {Q' : β → σ → Prop} (hp : D.Outline i P p Q)
    (hf : ∀ a, D.Outline i (Q a) (f a) Q') : D.Outline i P (p >>= f) Q' :=
  fun s hi hs => .bind hi ((hp s hi hs).mono fun a t hit hq => hf a t hit hq)

theorem weaken (hp : D.Outline i P p Q) (hP : ∀ s, D.invariant s → P' s → P s)
    (hQ : ∀ a s, D.invariant s → Q a s → Q' a s) : D.Outline i P' p Q' :=
  fun s hi hs => (hp s hi (hP s hi hs)).mono hQ

/-- A condition on values that no thread changes may be assumed. -/
theorem when {c : Prop} (hp : c → D.Outline i P p Q) : D.Outline i (fun s => c ∧ P s) p Q :=
  fun s hi hs => hp hs.1 s hi hs.2

theorem any {P : κ → σ → Prop} (hp : ∀ k, D.Outline i (P k) p Q) :
    D.Outline i (fun s => ∃ k, P k s) p Q :=
  fun s hi ⟨k, hs⟩ => hp k s hi hs

/-- A program whose sections all keep the assertion keeps it. -/
theorem of_every {G : σ → σ → Prop} (hp : p.Every G) (stable : D.Stable i P)
    (hG : ∀ s t, D.invariant s → G s t → D.invariant t ∧ D.guarantee i s t)
    (hP : ∀ s t, P s → G s t → P t) : D.Outline i P p (fun _ => P) := by
  induction p with
  | ret a => exact fun s _ h t ht hi => stable s t h ht hi
  | atomic ready act next ih =>
    intro s hs h t ht hi hr e he
    obtain ⟨hg, hn⟩ := hp t e hr
    obtain ⟨hkeep, hgo⟩ := hG _ _ hi hg
    exact ⟨hkeep, hgo, ih e t hn _ hkeep (hP _ _ (stable s t h ht hi) hg)⟩

theorem either (hp : D.Outline i P p Q) (hp' : D.Outline i P' p Q) :
    D.Outline i (fun s => P s ∨ P' s) p Q :=
  fun s hi hs => hs.elim (hp s hi) (hp' s hi)

end Outline

end Discipline

namespace Config

variable {ι σ ε ω : Type} [DecidableEq ι]

/-- As `Reaches`, where a section learns only what is offered to its thread. -/
inductive ReachesOffered (spawn : ι → ω → Program σ ε Unit) (allowed : σ → ι → ω → Prop)
    (offers : ι → σ → ε → Prop) (c₀ : Config ι σ ε) : Config ι σ ε → Prop where
  | refl : ReachesOffered spawn allowed offers c₀ c₀
  | start (i : ι) (job : ω) (reached : ReachesOffered spawn allowed offers c₀ c)
      (ok : allowed c.state i job) :
      ReachesOffered spawn allowed offers c₀ (c.step spawn (.start i job))
  | step (i : ι) (e : ε) (reached : ReachesOffered spawn allowed offers c₀ c)
      (ok : offers i c.state e) : ReachesOffered spawn allowed offers c₀ (c.step spawn (.step i e))

theorem Reaches.offered {spawn : ι → ω → Program σ ε Unit} {allowed : σ → ι → ω → Prop}
    {c₀ c : Config ι σ ε} (h : Reaches spawn allowed c₀ c) :
    ReachesOffered spawn allowed (fun _ _ _ => True) c₀ c := by
  induction h with
  | refl => exact .refl
  | start i job _ ok ih => exact .start i job ih ok
  | step i e _ ih => exact .step i e ih trivial

theorem ReachesOffered.weaken {spawn : ι → ω → Program σ ε Unit}
    {allowed allowed' : σ → ι → ω → Prop} {offers offers' : ι → σ → ε → Prop}
    {c₀ c : Config ι σ ε} (h : ReachesOffered spawn allowed offers c₀ c)
    (ha : ∀ s i job, allowed s i job → allowed' s i job)
    (ho : ∀ i s e, offers i s e → offers' i s e) :
    ReachesOffered spawn allowed' offers' c₀ c := by
  induction h with
  | refl => exact .refl
  | start i job _ ok ih => exact .start i job ih (ha _ _ _ ok)
  | step i e _ ok ih => exact .step i e ih (ho _ _ _ ok)

theorem ReachesOffered.reaches {spawn : ι → ω → Program σ ε Unit} {allowed : σ → ι → ω → Prop}
    {offers : ι → σ → ε → Prop} {c₀ c : Config ι σ ε}
    (h : ReachesOffered spawn allowed offers c₀ c) : Reaches spawn allowed c₀ c := by
  induction h with
  | refl => exact .refl
  | start i job _ ok ih => exact .start i job ih ok
  | step i e _ _ ih => exact .step i e ih

/-- Follows a schedule; `none` when a job may not start or a section may not learn
what the schedule tells it. -/
def follow (spawn : ι → ω → Program σ ε Unit) (allowed : σ → ι → ω → Prop)
    (offers : ι → σ → ε → Prop) [∀ s i job, Decidable (allowed s i job)]
    [∀ i s e, Decidable (offers i s e)] : List (Move ι ε ω) → Config ι σ ε → Option (Config ι σ ε)
  | [], c => some c
  | .start i job :: moves, c =>
    if allowed c.state i job then follow spawn allowed offers moves (c.step spawn (.start i job))
    else none
  | .step i e :: moves, c =>
    if offers i c.state e then follow spawn allowed offers moves (c.step spawn (.step i e))
    else none

theorem ReachesOffered.follow {spawn : ι → ω → Program σ ε Unit} {allowed : σ → ι → ω → Prop}
    {offers : ι → σ → ε → Prop} [∀ s i job, Decidable (allowed s i job)]
    [∀ i s e, Decidable (offers i s e)] {c₀ c d : Config ι σ ε}
    (hc : ReachesOffered spawn allowed offers c₀ c) (moves : List (Move ι ε ω))
    (h : Config.follow spawn allowed offers moves c = some d) :
    ReachesOffered spawn allowed offers c₀ d := by
  induction moves generalizing c with
  | nil =>
    cases h
    exact hc
  | cons move moves ih =>
    cases move with
    | start i job =>
      rw [Config.follow] at h
      split at h
      · rename_i ok
        exact ih (.start i job hc ok) h
      · cases h
    | step i e =>
      rw [Config.follow] at h
      split at h
      · rename_i ok
        exact ih (.step i e hc ok) h
      · cases h

variable {spawn : ι → ω → Program σ ε Unit} {allowed : σ → ι → ω → Prop}
  {D : Discipline ι σ ε} {rest : ι → σ → Prop}

/-- Every thread is inside the discipline; one that has returned is at rest. -/
def Kept (D : Discipline ι σ ε) (rest : ι → σ → Prop) (c : Config ι σ ε) : Prop :=
  D.invariant c.state ∧ ∀ i, (c.threads i).Meets D i (fun _ => rest i) c.state

theorem Kept.start {c : Config ι σ ε} (hc : Kept D rest c)
    (jobs : ∀ i job s, D.invariant s → rest i s → allowed s i job →
      (spawn i job).Meets D i (fun _ => rest i) s)
    (i : ι) (job : ω) (ok : allowed c.state i job) :
    Kept D rest (c.step spawn (.start i job)) := by
  obtain ⟨hi, ht⟩ := hc
  simp only [Config.step]
  split
  · rename_i hret
    refine ⟨hi, fun j => ?_⟩
    by_cases hji : j = i
    · subst hji
      have hrest := ht j
      rw [hret] at hrest
      simpa using jobs j job c.state hi (hrest c.state (D.refl j _) hi) ok
    · simpa [Function.update_of_ne hji] using ht j
  · exact ⟨hi, ht⟩

theorem Kept.step {c : Config ι σ ε} (hc : Kept D rest c) (i : ι) (e : ε)
    (ok : D.offers i c.state e) : Kept D rest (c.step spawn (.step i e)) := by
  obtain ⟨hi, ht⟩ := hc
  simp only [Config.step]
  split
  · exact ⟨hi, ht⟩
  · rename_i ready act next hat
    split
    · rename_i hr
      have hown := ht i
      rw [hat] at hown
      obtain ⟨hkeep, hgo, hn⟩ := hown c.state (D.refl i _) hi hr e ok
      refine ⟨hkeep, fun j => ?_⟩
      by_cases hji : j = i
      · subst hji
        simpa using hn
      · simpa [Function.update_of_ne hji] using
          (ht j).interfere (D.compatible (Ne.symm hji) hi hgo)
    · exact ⟨hi, ht⟩

/-- The run lemma: when every job keeps the discipline, every reachable state does. -/
theorem ReachesOffered.kept {s : σ} {c : Config ι σ ε}
    (hc : ReachesOffered spawn allowed D.offers (idle s) c) (hs : D.invariant s)
    (stable : ∀ i, D.Stable i (rest i)) (hrest : ∀ i, rest i s)
    (jobs : ∀ i job s, D.invariant s → rest i s → allowed s i job →
      (spawn i job).Meets D i (fun _ => rest i) s) : Kept D rest c := by
  induction hc with
  | refl => exact ⟨hs, fun i t ht hi => stable i s t (hrest i) ht hi⟩
  | start i job _ ok ih => exact ih.start jobs i job ok
  | step i e _ ok ih => exact ih.step i e ok

end Config

end HarmonyScreen.Lib
