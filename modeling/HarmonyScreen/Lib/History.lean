import Mathlib.Data.List.Induction

namespace HarmonyScreen.Lib

/-- Every entry of a history was allowed by the entries before it. -/
def History (allowed : List α → α → Prop) (log : List α) : Prop :=
  ∀ pre o post, log = pre ++ o :: post → allowed pre o

/-- Where an entry of a history that was just extended stands. -/
theorem concat_split {log pre post : List α} {o x : α} (h : log ++ [o] = pre ++ x :: post) :
    (log = pre ∧ o = x ∧ post = []) ∨ ∃ more, post = more ++ [o] ∧ log = pre ++ x :: more := by
  rcases List.eq_nil_or_concat post with rfl | ⟨more, y, rfl⟩
  · obtain ⟨hlog, ho⟩ := List.append_inj' h rfl
    cases ho
    exact .inl ⟨hlog, rfl, rfl⟩
  · rw [List.concat_eq_append, ← List.cons_append, ← List.append_assoc] at h
    obtain ⟨hlog, ho⟩ := List.append_inj' h rfl
    cases ho
    exact .inr ⟨more, List.concat_eq_append, hlog⟩

/-- A list splits in one way only at the last element of a kind. -/
theorem split_last_unique {P : α → Prop} {before after pre post : List α} {a x : α}
    (ha : ∀ y ∈ after, ¬ P y) (hp : ∀ y ∈ post, ¬ P y) (hPa : P a) (hPx : P x)
    (h : before ++ a :: after = pre ++ x :: post) : before = pre ∧ a = x ∧ after = post := by
  induction after using List.reverseRecOn generalizing post with
  | nil =>
    rcases concat_split h with ⟨hpre, hax, hpost⟩ | ⟨more, rfl, _⟩
    · exact ⟨hpre, hax, hpost.symm⟩
    · exact absurd hPa (hp a (by simp))
  | append_singleton after y ih =>
    rw [← List.cons_append, ← List.append_assoc] at h
    rcases concat_split h with ⟨_, rfl, _⟩ | ⟨more, rfl, hlog⟩
    · exact absurd hPx (ha y (by simp))
    · obtain ⟨rfl, rfl, rfl⟩ :=
        ih (fun z hz => ha z (by simp [hz])) (fun z hz => hp z (by simp [hz])) hlog
      exact ⟨rfl, rfl, rfl⟩

/-- An element that is not among the new ones was there before. -/
theorem append_split {log os pre post : List α} {x : α} (hx : x ∉ os)
    (h : log ++ os = pre ++ x :: post) : ∃ more, post = more ++ os ∧ log = pre ++ x :: more := by
  induction os using List.reverseRecOn generalizing post with
  | nil => exact ⟨post, by simp, by simpa using h⟩
  | append_singleton os o ih =>
    rw [← List.append_assoc] at h
    rcases concat_split h with ⟨_, rfl, _⟩ | ⟨rest, rfl, hlog⟩
    · simp at hx
    · obtain ⟨more, rfl, rfl⟩ := ih (fun hmem => hx (by simp [hmem])) hlog
      exact ⟨more, by simp, rfl⟩

namespace History

variable {allowed : List α → α → Prop} {log : List α}

theorem nil : History allowed [] := by
  intro pre o post h
  simp at h

theorem concat (h : History allowed log) (ho : allowed log o) : History allowed (log ++ [o]) := by
  intro pre x post heq
  rcases concat_split heq with ⟨rfl, rfl, rfl⟩ | ⟨more, rfl, hlog⟩
  · exact ho
  · exact h pre x more hlog

theorem append (h : History allowed log)
    (hos : ∀ done o rest, os = done ++ o :: rest → allowed (log ++ done) o) :
    History allowed (log ++ os) := by
  induction os using List.reverseRecOn with
  | nil => simpa using h
  | append_singleton os o ih =>
    rw [← List.append_assoc]
    have hdone := ih fun done x rest heq => hos done x (rest ++ [o]) (by simp [heq])
    exact hdone.concat (hos os o [] rfl)

theorem earlier (h : History allowed (log ++ more)) : History allowed log :=
  fun pre o post heq => h pre o (post ++ more) (by simp [heq])

theorem last (h : History allowed (log ++ [o])) : allowed log o := h log o [] rfl

theorem mono (h : History allowed log) (hm : ∀ pre o, allowed pre o → allowed' pre o) :
    History allowed' log :=
  fun pre o post heq => hm pre o (h pre o post heq)

theorem iff_forall_take : History allowed log ↔
    ∀ i : Fin log.length, allowed (log.take i) (log.get i) := by
  constructor
  · intro h i
    refine h (log.take i) (log.get i) (log.drop (i + 1)) ?_
    simp
  · intro h pre o post heq
    have hlt : pre.length < log.length := by simp [heq]
    have hat := h ⟨pre.length, hlt⟩
    simpa [heq] using hat

instance [∀ pre o, Decidable (allowed pre o)] (log : List α) : Decidable (History allowed log) :=
  decidable_of_iff _ iff_forall_take.symm

/-- An entry allowed only where it is not yet recorded is recorded once. -/
theorem count_le_one [BEq α] [LawfulBEq α] (h : History allowed log)
    (honce : ∀ pre, allowed pre o → o ∉ pre) : log.count o ≤ 1 := by
  induction log using List.reverseRecOn with
  | nil => simp
  | append_singleton log x ih =>
    have hlog := ih h.earlier
    by_cases hx : x = o
    · subst hx
      have hnone := List.count_eq_zero.mpr (honce log h.last)
      simp [List.count_append, hnone]
    · simpa [List.count_append, List.count_singleton, hx] using hlog

end History

/-- A list splits in one way only at an element that no other element is like. -/
theorem split_unique {P : α → Prop} {before after pre post : List α} {a x : α}
    (hb : ∀ y ∈ before, ¬ P y) (ha : ∀ y ∈ after, ¬ P y) (hx : P x)
    (h : before ++ a :: after = pre ++ x :: post) : pre = before ∧ x = a ∧ post = after := by
  induction before generalizing pre with
  | nil =>
    cases pre with
    | nil =>
      cases h
      exact ⟨rfl, rfl, rfl⟩
    | cons p pre =>
      cases h
      exact absurd hx (ha x (by simp))
  | cons b before ih =>
    cases pre with
    | nil =>
      cases h
      exact absurd hx (hb x (by simp))
    | cons p pre =>
      simp only [List.cons_append, List.cons.injEq] at h
      obtain ⟨rfl, h⟩ := h
      obtain ⟨rfl, rfl, rfl⟩ := ih (fun y hy => hb y (by simp [hy])) h
      exact ⟨rfl, rfl, rfl⟩

end HarmonyScreen.Lib
