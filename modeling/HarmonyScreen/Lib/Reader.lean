import Mathlib.Data.List.Basic

namespace HarmonyScreen.Lib

/-- What a reader finds at the front of its buffer. -/
inductive Found (α τ : Type) where
  | more
  | bad
  | item (t : τ) (rest : List α)

/-- A reader of items from the front of a byte buffer. Bytes that arrive later
never change a verdict already given, and an item takes at least one byte. -/
structure Reader (α τ : Type) where
  read : List α → Found α τ
  nil : read [] = .more
  bad_append : ∀ {b}, read b = .bad → ∀ x, read (b ++ x) = .bad
  item_append : ∀ {b t r}, read b = .item t r → ∀ x, read (b ++ x) = .item t (r ++ x)
  shrinks : ∀ {b t r}, read b = .item t r → r.length < b.length

namespace Reader

variable {α τ σ μ : Type} (R : Reader α τ) (accept : σ → τ → Option (σ × List μ))

/-- Reads all complete items of the buffer and hands each to `accept`. The
first component is the remaining bytes and state, or `none` after a failure;
the second is what was delivered up to there. -/
def drain (s : σ) (b : List α) : Option (List α × σ) × List μ :=
  match _h : R.read b with
  | .more => (some (b, s), [])
  | .bad => (none, [])
  | .item t rest =>
    match accept s t with
    | none => (none, [])
    | some (s', out) =>
      let d := drain s' rest
      (d.1, out ++ d.2)
termination_by b.length
decreasing_by exact R.shrinks _h

/-- The items alone, without their bytes. -/
def acceptAll : σ → List τ → Option (σ × List μ)
  | s, [] => some (s, [])
  | s, t :: ts =>
    match accept s t with
    | none => none
    | some (s', out) => (acceptAll s' ts).map fun r => (r.1, out ++ r.2)

variable {R accept}

theorem drain_more {s : σ} {b : List α} (h : R.read b = .more) :
    R.drain accept s b = (some (b, s), []) := by
  unfold drain
  split <;> simp_all

theorem drain_bad {s : σ} {b : List α} (h : R.read b = .bad) :
    R.drain accept s b = (none, []) := by
  unfold drain
  split <;> simp_all

theorem drain_refused {s : σ} {b rest : List α} {t : τ} (h : R.read b = .item t rest)
    (ha : accept s t = none) : R.drain accept s b = (none, []) := by
  rw [drain]
  split
  · simp_all
  · rfl
  · rename_i t' r' h'
    rw [h] at h'
    cases h'
    simp only [ha]

theorem drain_item {s s' : σ} {b rest : List α} {t : τ} {out : List μ}
    (h : R.read b = .item t rest) (ha : accept s t = some (s', out)) :
    R.drain accept s b =
      ((R.drain accept s' rest).1, out ++ (R.drain accept s' rest).2) := by
  rw [drain]
  split
  · simp_all
  · simp_all
  · rename_i t' r' h'
    rw [h] at h'
    cases h'
    simp only [ha]

/-- What a drained buffer holds is the start of an unfinished item. -/
theorem drain_left {s s' : σ} {b left : List α} {out : List μ}
    (h : R.drain accept s b = (some (left, s'), out)) : R.read left = .more := by
  match hr : R.read b with
  | .more =>
    rw [drain_more hr] at h
    cases h
    exact hr
  | .bad => simp [drain_bad hr] at h
  | .item t rest =>
    match ha : accept s t with
    | none => simp [drain_refused hr ha] at h
    | some (s₁, o) =>
      have hlt := R.shrinks hr
      rw [drain_item hr ha] at h
      have hrest : R.drain accept s₁ rest = (some (left, s'), (R.drain accept s₁ rest).2) :=
        Prod.ext (Prod.mk.inj h).1 rfl
      exact drain_left hrest
termination_by b.length

/-- Bytes that arrive later are read as if they had been there at once. -/
theorem drain_append (s : σ) (b x : List α) :
    R.drain accept s (b ++ x) =
      match R.drain accept s b with
      | (none, out) => (none, out)
      | (some (left, s'), out) =>
        ((R.drain accept s' (left ++ x)).1, out ++ (R.drain accept s' (left ++ x)).2) := by
  match hr : R.read b with
  | .more => simp [drain_more hr]
  | .bad => simp [drain_bad hr, drain_bad (R.bad_append hr x)]
  | .item t rest =>
    have hx := R.item_append hr x
    match ha : accept s t with
    | none => simp [drain_refused hr ha, drain_refused hx ha]
    | some (s₁, o) =>
      have hlt := R.shrinks hr
      rw [drain_item hx ha, drain_item hr ha, drain_append s₁ rest x]
      match R.drain accept s₁ rest with
      | (none, out) => rfl
      | (some (left, s'), out) => simp
termination_by b.length

variable (R accept)

/-- Feeds the chunks one after another, and stops at the first failure. -/
def feed : List α × σ → List (List α) → Option (List α × σ) × List μ
  | st, [] => (some st, [])
  | st, chunk :: chunks =>
    match R.drain accept st.2 (st.1 ++ chunk) with
    | (none, out) => (none, out)
    | (some st', out) => ((feed st' chunks).1, out ++ (feed st' chunks).2)

variable {R accept}

/-- However the bytes are cut into chunks, the reader delivers the same. -/
theorem feed_eq (left : List α) (s : σ) (chunks : List (List α)) (h : R.read left = .more) :
    R.feed accept (left, s) chunks = R.drain accept s (left ++ chunks.flatten) := by
  induction chunks generalizing left s with
  | nil => simp [feed, drain_more h]
  | cons chunk chunks ih =>
    simp only [feed, List.flatten_cons]
    rw [← List.append_assoc, drain_append s (left ++ chunk)]
    match hd : R.drain accept s (left ++ chunk) with
    | (none, out) => rfl
    | (some (left', s'), out) => simp only [ih left' s' (drain_left hd)]

/-- Encoded items that the state accepts one after another are all delivered. -/
theorem drain_items {β : Type} {item : β → τ} {enc : β → List α} {Good : β → Prop}
    (henc : ∀ f, Good f → ∀ x, R.read (enc f ++ x) = .item (item f) x)
    {s s' : σ} {fs : List β} {out : List μ} (hg : ∀ f ∈ fs, Good f) (x : List α)
    (hr : acceptAll accept s (fs.map item) = some (s', out)) :
    R.drain accept s ((fs.map enc).flatten ++ x) =
      ((R.drain accept s' x).1, out ++ (R.drain accept s' x).2) := by
  induction fs generalizing s out with
  | nil =>
    cases hr
    simp
  | cons f fs ih =>
    simp only [List.map_cons, List.flatten_cons, List.append_assoc] at hr ⊢
    have hread := henc f (hg f (by simp)) ((fs.map enc).flatten ++ x)
    cases ha : accept s (item f) with
    | none => simp [acceptAll, ha] at hr
    | some st =>
      obtain ⟨s₁, o⟩ := st
      simp only [acceptAll, ha, Option.map_eq_some_iff, Prod.exists, Prod.mk.injEq] at hr
      obtain ⟨s₂, o₂, hrest, rfl, rfl⟩ := hr
      rw [drain_item hread ha, ih (fun f hf => hg f (by simp [hf])) hrest]
      simp

/-- What holds of every delivered value when `accept` keeps an invariant. -/
theorem drain_forall {Good : τ → Prop} {I : σ → Prop} {P : μ → Prop}
    (hread : ∀ {b t r}, R.read b = .item t r → Good t)
    (hstep : ∀ {s t s' out}, I s → Good t → accept s t = some (s', out) → I s' ∧ ∀ m ∈ out, P m)
    {s : σ} (hs : I s) (b : List α) : ∀ m ∈ (R.drain accept s b).2, P m := by
  match hr : R.read b with
  | .more => simp [drain_more hr]
  | .bad => simp [drain_bad hr]
  | .item t rest =>
    match ha : accept s t with
    | none => simp [drain_refused hr ha]
    | some (s', out) =>
      have hlt := R.shrinks hr
      obtain ⟨hs', hout⟩ := hstep hs (hread hr) ha
      rw [drain_item hr ha]
      intro m hm
      rcases List.mem_append.mp hm with hm | hm
      · exact hout m hm
      · exact drain_forall hread hstep hs' rest m hm
termination_by b.length

end Reader

end HarmonyScreen.Lib
