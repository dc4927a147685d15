import HarmonyScreen.Lib.Program

namespace HarmonyScreen.Lib

/-- An assertion about the state of one thread: interference from `R` keeps it,
and it implies the invariant `J` that every state has to satisfy. -/
structure Assertion {σ : Type} (R : σ → σ → Prop) (J : σ → Prop) where
  holds : σ → Prop
  stable : ∀ {s t}, holds s → R s t → holds t
  safe : ∀ {s}, holds s → J s

namespace Assertion

variable {σ : Type} {R : σ → σ → Prop} {J : σ → Prop}

/-- A stable fact beside an assertion. -/
def also (P : Assertion R J) (fact : σ → Prop) (keep : ∀ {s t}, fact s → R s t → fact t) :
    Assertion R J where
  holds s := P.holds s ∧ fact s
  stable h r := ⟨P.stable h.1 r, keep h.2 r⟩
  safe h := P.safe h.1

/-- An assertion under a condition on values that no thread changes. -/
def when (c : Prop) (P : Assertion R J) : Assertion R J where
  holds s := c ∧ P.holds s
  stable h r := ⟨h.1, P.stable h.2 r⟩
  safe h := P.safe h.2

/-- One of several assertions, whichever it is. -/
def any (P : ι → Assertion R J) : Assertion R J where
  holds s := ∃ i, (P i).holds s
  stable h r := h.elim fun i h => ⟨i, (P i).stable h r⟩
  safe h := h.elim fun i h => (P i).safe h

end Assertion

/-- Rely-guarantee triple: from `P`, against interference `R`, every state on the
way satisfies `J`, and `Q` of the result holds at the end. -/
def Triple {σ ε α : Type} {R : σ → σ → Prop} {J : σ → Prop} (P : Assertion R J)
    (p : Program σ ε α) (Q : α → Assertion R J) : Prop :=
  ∀ s, P.holds s → p.Safe R J (fun a => (Q a).holds) s

namespace Triple

variable {σ ε α β : Type} {R : σ → σ → Prop} {J : σ → Prop} {P P' : Assertion R J}
  {p : Program σ ε α} {Q Q' : α → Assertion R J}

theorem ret (a : α) (h : ∀ s, P.holds s → (Q a).holds s) :
    Triple P (.ret a : Program σ ε α) Q :=
  fun s hs _ ht => ⟨P.safe (P.stable hs ht), (Q a).stable (h s hs) ht⟩

theorem critical {f : ε → σ → α × σ}
    (h : ∀ e s, P.holds s → (Q (f e s).1).holds (f e s).2) : Triple P (.critical f) Q := by
  intro s hs
  refine Program.Safe.critical (fun t ht => P.safe (P.stable hs ht)) fun t e u ht hu => ?_
  have hq := (Q _).stable (h e t (P.stable hs ht)) hu
  exact ⟨(Q _).safe hq, hq⟩

/-- A section that waits may assume what it waited for. -/
theorem atomic {ready : σ → Bool} {act : ε → σ → σ} {next : ε → σ → Program σ ε α}
    (h : ∀ e s, P.holds s → ready s = true → (next e s).Safe R J (fun a => (Q a).holds) (act e s)) :
    Triple P (.atomic ready act next) Q :=
  fun _ hs t ht => ⟨P.safe (P.stable hs ht), fun go e => h e t (P.stable hs ht) go⟩

theorem await {ready : σ → Bool} {Q : Unit → Assertion R J}
    (h : ∀ s, P.holds s → ready s = true → (Q ()).holds s) :
    Triple P (Program.await ready : Program σ ε Unit) Q :=
  atomic fun _ s hs go _ hu =>
    ⟨(Q ()).safe ((Q ()).stable (h s hs go) hu), (Q ()).stable (h s hs go) hu⟩

theorem bind (refl : ∀ s, R s s) {f : α → Program σ ε β} {Q' : β → Assertion R J}
    (hp : Triple P p Q) (hf : ∀ a, Triple (Q a) (f a) Q') : Triple P (p >>= f) Q' :=
  fun s hs => .bind refl ((hp s hs).mono fun a t hq => hf a t hq)

theorem weaken (hp : Triple P p Q) (hP : ∀ s, P'.holds s → P.holds s)
    (hQ : ∀ a s, (Q a).holds s → (Q' a).holds s) : Triple P' p Q' :=
  fun s hs => (hp s (hP s hs)).mono hQ

/-- A program whose sections all keep the assertion keeps it. -/
theorem every {G : σ → σ → Prop} (hp : p.Every G)
    (h : ∀ s t, P.holds s → G s t → P.holds t) : Triple P p (fun _ => P) :=
  fun _ hs => (hp.safe h (fun _ _ => P.stable) hs).weaken fun _ => P.safe

theorem any {P : ι → Assertion R J} (hp : ∀ i, Triple (P i) p Q) : Triple (.any P) p Q :=
  fun s ⟨i, hs⟩ => hp i s hs

/-- A condition that was found out may be assumed. -/
theorem when {c : Prop} (hp : c → Triple P p Q) : Triple (P.when c) p Q :=
  fun s ⟨hc, hs⟩ => hp hc s hs

/-- What a program can return may be assumed behind it. -/
theorem returns {A : α → Prop} (hp : Triple P p Q) (ha : p.Returns A) :
    Triple P p (fun a => (Q a).when (A a)) :=
  fun s hs => (hp s hs).returns ha

end Triple

end HarmonyScreen.Lib
