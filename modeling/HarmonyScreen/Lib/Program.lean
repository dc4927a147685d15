import Mathlib.Logic.Function.Basic

namespace HarmonyScreen.Lib

/-- A program cut at the places where another thread may run. An atomic section
waits until `ready` holds, changes the shared state, and goes on with what it
read. `ε` is all a section learns from outside: clocks, random bytes, results
of calls. A schedule supplies it. -/
inductive Program (σ ε α : Type) where
  | ret (a : α)
  | atomic (ready : σ → Bool) (act : ε → σ → σ) (next : ε → σ → Program σ ε α)

namespace Program

protected def bind : Program σ ε α → (α → Program σ ε β) → Program σ ε β
  | ret a, f => f a
  | atomic ready act next, f => atomic ready act (fun e s => (next e s).bind f)

instance : Monad (Program σ ε) where
  pure := ret
  bind := Program.bind

@[simp] theorem pure_eq (a : α) : (pure a : Program σ ε α) = ret a := rfl

@[simp] theorem ret_bind (a : α) (f : α → Program σ ε β) : (ret a >>= f) = f a := rfl

@[simp] theorem atomic_bind (ready : σ → Bool) (act : ε → σ → σ)
    (next : ε → σ → Program σ ε α) (f : α → Program σ ε β) :
    (atomic ready act next >>= f) = atomic ready act (fun e s => next e s >>= f) := rfl

theorem bind_assoc (p : Program σ ε α) (f : α → Program σ ε β) (g : β → Program σ ε γ) :
    p >>= f >>= g = p >>= fun a => f a >>= g := by
  induction p with
  | ret a => rfl
  | atomic ready act next ih =>
    simp only [atomic_bind]
    congr 1
    funext e s
    exact ih e s

/-- What a program that has returned returned. -/
def result : Program σ ε α → Option α
  | ret a => some a
  | atomic _ _ _ => none

theorem eq_ret_of_result {p : Program σ ε α} (h : p.result = some a) : p = ret a := by
  cases p with
  | ret b => exact congrArg ret (Option.some.inj h)
  | atomic ready act next => cases h

/-- One critical section: read, write and answer in one step. -/
def critical (f : ε → σ → α × σ) : Program σ ε α :=
  atomic (fun _ => true) (fun e s => (f e s).2) (fun e s => ret (f e s).1)

/-- Blocks until the condition holds. -/
def await (ready : σ → Bool) : Program σ ε Unit :=
  atomic ready (fun _ s => s) (fun _ _ => ret ())

end Program

/-- One atomic section as it was taken. -/
structure Step (σ ε : Type) where
  before : σ
  learned : ε
  after : σ

/-- `Runs R p s h q t`: from `p` in state `s`, with interference steps from `R`
between its sections, the program took the sections `h` and stands at `q` in
state `t`. -/
inductive Runs (R : σ → σ → Prop) :
    Program σ ε α → σ → List (Step σ ε) → Program σ ε α → σ → Prop where
  | refl : Runs R p s [] p s
  | interfere (run : Runs R p s h q t) (other : R t u) : Runs R p s h q u
  | own (e : ε) (run : Runs R p s h (.atomic ready act next) t) (go : ready t = true) :
      Runs R p s (h ++ [⟨t, e, act e t⟩]) (next e t) (act e t)

theorem Runs.trans {R : σ → σ → Prop} {p q r : Program σ ε α} {s t u : σ}
    {h k : List (Step σ ε)} (first : Runs R p s h q t) (second : Runs R q t k r u) :
    Runs R p s (h ++ k) r u := by
  induction second with
  | refl => simpa using first
  | interfere _ other ih => exact .interfere ih other
  | own e _ go ih =>
    rw [← List.append_assoc]
    exact .own e ih go

/-- A run of a sequence is still in the first part, or has come to the second. -/
theorem Runs.of_bind {R : σ → σ → Prop} {p : Program σ ε α} {f : α → Program σ ε β}
    {q : Program σ ε β} {s t : σ} {h : List (Step σ ε)} (run : Runs R (p >>= f) s h q t) :
    (∃ p', q = p' >>= f ∧ Runs R p s h p' t) ∨
      ∃ a u h₁ h₂, h = h₁ ++ h₂ ∧ Runs R p s h₁ (.ret a) u ∧ Runs R (f a) u h₂ q t := by
  generalize hprogram : p >>= f = r at run
  induction run with
  | refl => exact .inl ⟨p, hprogram.symm, .refl⟩
  | interfere _ other ih =>
    rcases ih with ⟨p', heq, hrun⟩ | ⟨a, u, h₁, h₂, heq, hfirst, hrun⟩
    · exact .inl ⟨p', heq, .interfere hrun other⟩
    · exact .inr ⟨a, u, h₁, h₂, heq, hfirst, .interfere hrun other⟩
  | own e _ go ih =>
    rcases ih with ⟨p', heq, hrun⟩ | ⟨a, u, h₁, h₂, rfl, hfirst, hrun⟩
    · cases p' with
      | ret a =>
        refine .inr ⟨a, _, _, _, rfl, hrun, ?_⟩
        rw [show f a = _ from heq.symm]
        exact .own e .refl go
      | atomic ready' act' next' =>
        obtain ⟨rfl, rfl, rfl⟩ : _ ∧ _ ∧ _ := by simpa using heq
        exact .inl ⟨_, rfl, .own e hrun go⟩
    · exact .inr ⟨a, u, h₁, _, List.append_assoc _ _ _, hfirst, .own e hrun go⟩

namespace Program

/-- `p.Along J h Q`: whatever other threads do, continuing the sections `h` with
those of `p` keeps `J` true of the sections taken, and `Q` holds at the return. -/
def Along (J : List (Step σ ε) → Prop) :
    Program σ ε α → List (Step σ ε) → (α → List (Step σ ε) → Prop) → Prop
  | ret a, h, Q => Q a h
  | atomic ready act next, h, Q => ∀ s e, ready s = true →
      J (h ++ [⟨s, e, act e s⟩]) ∧ Along J (next e s) (h ++ [⟨s, e, act e s⟩]) Q

variable {J : List (Step σ ε) → Prop} {h : List (Step σ ε)}

@[simp] theorem along_ret (a : α) (Q : α → List (Step σ ε) → Prop) :
    (ret a : Program σ ε α).Along J h Q ↔ Q a h := Iff.rfl

@[simp] theorem along_critical (f : ε → σ → α × σ) (Q : α → List (Step σ ε) → Prop) :
    (critical f).Along J h Q ↔
      ∀ s e, J (h ++ [⟨s, e, (f e s).2⟩]) ∧ Q (f e s).1 (h ++ [⟨s, e, (f e s).2⟩]) := by
  simp only [critical, Along, forall_const]

theorem along_bind (p : Program σ ε α) (f : α → Program σ ε β)
    (Q : β → List (Step σ ε) → Prop) :
    (p >>= f).Along J h Q ↔ p.Along J h (fun a h => (f a).Along J h Q) := by
  induction p generalizing h with
  | ret a => rfl
  | atomic ready act next ih =>
    simp only [atomic_bind, Along]
    exact forall_congr' fun s => forall_congr' fun e => by rw [ih e s]

theorem Along.mono {p : Program σ ε α} {Q Q' : α → List (Step σ ε) → Prop}
    (hp : p.Along J h Q) (hq : ∀ a k, Q a k → Q' a k) : p.Along J h Q' := by
  induction p generalizing h with
  | ret a => exact hq a h hp
  | atomic ready act next ih =>
    intro s e hs
    obtain ⟨hj, hn⟩ := hp s e hs
    exact ⟨hj, ih e s hn⟩

/-- Adequacy: every interleaved run keeps what `Along` promises. -/
theorem Along.runs {p q : Program σ ε α} {s t : σ} {k : List (Step σ ε)}
    {Q : α → List (Step σ ε) → Prop} {R : σ → σ → Prop}
    (hp : p.Along J h Q) (hj : J h) (hr : Runs R p s k q t) :
    J (h ++ k) ∧ q.Along J (h ++ k) Q := by
  induction hr with
  | refl => simpa using ⟨hj, hp⟩
  | interfere _ _ ih => exact ih
  | own e _ go ih =>
    obtain ⟨_, hq⟩ := ih
    simpa only [List.append_assoc] using hq _ e go

/-- Every section of the program is a `G` step. -/
def Every (G : σ → σ → Prop) : Program σ ε α → Prop
  | ret _ => True
  | atomic ready act next => ∀ s e, ready s = true → G s (act e s) ∧ Every G (next e s)

variable {G R : σ → σ → Prop}

@[simp] theorem every_ret (a : α) : (ret a : Program σ ε α).Every G := trivial

@[simp] theorem every_critical (f : ε → σ → α × σ) :
    (critical f).Every G ↔ ∀ s e, G s (f e s).2 := by
  simp [critical, Every]

theorem Every.bind {p : Program σ ε α} {f : α → Program σ ε β}
    (hp : p.Every G) (hf : ∀ a, (f a).Every G) : (p >>= f).Every G := by
  induction p with
  | ret a => exact hf a
  | atomic ready act next ih =>
    intro s e hs
    obtain ⟨hg, hn⟩ := hp s e hs
    exact ⟨hg, ih e s hn⟩

theorem Every.mono {G' : σ → σ → Prop} {p : Program σ ε α} (hp : p.Every G)
    (hg : ∀ s t, G s t → G' s t) : p.Every G' := by
  induction p with
  | ret a => trivial
  | atomic ready act next ih =>
    intro s e hs
    obtain ⟨ht, hn⟩ := hp s e hs
    exact ⟨hg _ _ ht, ih e s hn⟩

theorem Every.all (h : ∀ s t, G s t) (p : Program σ ε α) : p.Every G := by
  induction p with
  | ret a => trivial
  | atomic ready act next ih => exact fun s e _ => ⟨h _ _, ih e s⟩

/-- One of the sections that a program may come to take, whatever it learns and others do. -/
inductive Section : Program σ ε α → σ → σ → Prop where
  | now (e : ε) (go : ready s = true) : Section (atomic ready act next) s (act e s)
  | later (e : ε) (go : ready s = true) (rest : Section (next e s) t u) :
      Section (atomic ready act next) t u

theorem Every.section {p : Program σ ε α} {t u : σ} (hp : p.Every G) (h : p.Section t u) :
    G t u := by
  induction h with
  | now e go => exact (hp _ e go).1
  | later e go _ ih => exact ih (hp _ e go).2

/-- What the sections and the interference keep holds wherever a section is taken. -/
theorem Every.runs {I : σ → Prop} {p q : Program σ ε α} {s t : σ} {k : List (Step σ ε)}
    (hp : p.Every fun s t => I s → I t) (hR : ∀ s t, R s t → I s → I t) (hs : I s)
    (run : Runs R p s k q t) : I t ∧ (q.Every fun s t => I s → I t) ∧ ∀ st ∈ k, I st.before := by
  induction run with
  | refl => exact ⟨hs, hp, fun _ h => by cases h⟩
  | interfere _ other ih =>
    obtain ⟨hi, hq, hk⟩ := ih
    exact ⟨hR _ _ other hi, hq, hk⟩
  | own e _ go ih =>
    obtain ⟨hi, hq, hk⟩ := ih
    obtain ⟨hstep, hnext⟩ := hq _ e go
    refine ⟨hstep hi, hnext, fun st hst => ?_⟩
    rcases List.mem_append.mp hst with hst | hst
    · exact hk st hst
    · rw [List.mem_singleton.mp hst]
      exact hi

/-- A predicate on histories that `G` steps keep is kept along the program. -/
theorem Every.along {p : Program σ ε α} (hp : p.Every G) {K : List (Step σ ε) → Prop}
    (hj : ∀ k, K k → J k) (hk : ∀ k s e t, K k → G s t → K (k ++ [⟨s, e, t⟩])) (h0 : K h) :
    p.Along J h (fun _ => K) := by
  induction p generalizing h with
  | ret a => exact h0
  | atomic ready act next ih =>
    intro s e hs
    obtain ⟨hg, hn⟩ := hp s e hs
    have hnext := hk h s e _ h0 hg
    exact ⟨hj _ hnext, ih e s hn hnext⟩

/-- Whatever the schedule, what the program returns satisfies `Q`. -/
def Returns (Q : α → Prop) : Program σ ε α → Prop
  | ret a => Q a
  | atomic ready _ next => ∀ s e, ready s = true → Returns Q (next e s)

@[simp] theorem returns_ret {Q : α → Prop} (a : α) :
    (ret a : Program σ ε α).Returns Q ↔ Q a := Iff.rfl

theorem Returns.bind {A : α → Prop} {B : β → Prop} {p : Program σ ε α} {f : α → Program σ ε β}
    (hp : p.Returns A) (hf : ∀ a, A a → (f a).Returns B) : (p >>= f).Returns B := by
  induction p with
  | ret a => exact hf a hp
  | atomic ready act next ih => exact fun s e hs => ih e s (hp s e hs)

theorem Returns.trivial (p : Program σ ε α) : p.Returns (fun _ => True) := by
  induction p with
  | ret a => exact True.intro
  | atomic ready act next ih => exact fun s e _ => ih e s

/-- A program that first runs another returns what the rest returns. -/
theorem returns_bind {B : β → Prop} {p : Program σ ε α} {f : α → Program σ ε β}
    (hf : ∀ a, (f a).Returns B) : (p >>= f).Returns B :=
  (Returns.trivial p).bind fun a _ => hf a

/-- No section waits, up to the first step that `stop` is true of. -/
def Unblocked (stop : Step σ ε → Prop) : Program σ ε α → Prop
  | ret _ => True
  | atomic ready act next => (∀ s, ready s = true) ∧
      ∀ s e, stop ⟨s, e, act e s⟩ ∨ Unblocked stop (next e s)

variable {stop : Step σ ε → Prop}

@[simp] theorem unblocked_ret (a : α) : (ret a : Program σ ε α).Unblocked stop := trivial

@[simp] theorem unblocked_critical (f : ε → σ → α × σ) : (critical f).Unblocked stop :=
  ⟨fun _ => rfl, fun _ _ => .inr trivial⟩

theorem Unblocked.bind {p : Program σ ε α} {f : α → Program σ ε β}
    (hp : p.Unblocked stop) (hf : ∀ a, (f a).Unblocked stop) : (p >>= f).Unblocked stop := by
  induction p with
  | ret a => exact hf a
  | atomic ready act next ih =>
    obtain ⟨hr, hn⟩ := hp
    exact ⟨hr, fun s e => (hn s e).imp_right (ih e s)⟩

/-- An interleaved run of an unblocked program has stopped, has returned or can go on. -/
theorem Unblocked.runs {p q : Program σ ε α} {s t : σ} {k : List (Step σ ε)}
    (hp : p.Unblocked stop) (hr : Runs R p s k q t) :
    (∃ step ∈ k, stop step) ∨ q.Unblocked stop := by
  induction hr with
  | refl => exact .inr hp
  | interfere _ _ ih => exact ih
  | own e _ go ih =>
    rcases ih with ⟨step, hstep, hs⟩ | ⟨_, hn⟩
    · exact .inl ⟨step, List.mem_append_left _ hstep, hs⟩
    · rcases hn _ e with hs | hs
      · exact .inl ⟨_, List.mem_append_right _ List.mem_cons_self, hs⟩
      · exact .inr hs

/-- At most `n` sections; the ones that may have to wait are told by what they wait for. -/
def Bounded (waits : (σ → Bool) → Prop) : Nat → Program σ ε α → Prop
  | _, ret _ => True
  | 0, atomic _ _ _ => False
  | n + 1, atomic ready _ next => ((∀ s, ready s = true) ∨ waits ready) ∧
      ∀ s e, ready s = true → Bounded waits n (next e s)

variable {waits : (σ → Bool) → Prop} {m n : Nat}

@[simp] theorem bounded_ret (a : α) : (ret a : Program σ ε α).Bounded waits n := by
  cases n <;> trivial

theorem Bounded.mono {p : Program σ ε α} (hp : p.Bounded waits m) (hle : m ≤ n) :
    p.Bounded waits n := by
  induction p generalizing m n with
  | ret a => exact bounded_ret a
  | atomic ready act next ih =>
    cases m with
    | zero => exact hp.elim
    | succ m =>
      obtain ⟨k, rfl⟩ : ∃ k, n = k + 1 := ⟨n - 1, by omega⟩
      exact ⟨hp.1, fun s e go => ih e s (hp.2 s e go) (by omega)⟩

theorem bounded_critical (f : ε → σ → α × σ) : (critical f).Bounded waits (n + 1) :=
  ⟨.inl fun _ => rfl, fun _ _ _ => bounded_ret _⟩

/-- What follows need be looked at only for what the first program can return. -/
theorem Bounded.bind_returns {A : α → Prop} {p : Program σ ε α} {f : α → Program σ ε β}
    (hp : p.Bounded waits m) (ha : p.Returns A) (hf : ∀ a, A a → (f a).Bounded waits n) :
    (p >>= f).Bounded waits (m + n) := by
  induction p generalizing m with
  | ret a => exact (hf a ha).mono (by omega)
  | atomic ready act next ih =>
    cases m with
    | zero => exact hp.elim
    | succ m =>
      rw [show m + 1 + n = m + n + 1 by omega]
      exact ⟨hp.1, fun s e go => ih e s (hp.2 s e go) (ha s e go)⟩

theorem Bounded.bind {p : Program σ ε α} {f : α → Program σ ε β} (hp : p.Bounded waits m)
    (hf : ∀ a, (f a).Bounded waits n) : (p >>= f).Bounded waits (m + n) :=
  hp.bind_returns (Returns.trivial p) fun a _ => hf a

/-- One section first. -/
theorem bounded_critical_bind {f : ε → σ → α × σ} {g : α → Program σ ε β}
    (hg : ∀ a, (g a).Bounded waits n) : (critical f >>= g).Bounded waits (n + 1) :=
  ⟨.inl fun _ => rfl, fun _ _ _ => hg _⟩

/-- A run takes at most so many sections, and stands where the rest are left. -/
theorem Bounded.runs {p q : Program σ ε α} {s t : σ} {k : List (Step σ ε)}
    (hp : p.Bounded waits n) (hr : Runs R p s k q t) :
    k.length ≤ n ∧ q.Bounded waits (n - k.length) := by
  induction hr with
  | refl => exact ⟨Nat.zero_le _, hp⟩
  | interfere _ _ ih => exact ih
  | own e _ go ih =>
    rename_i h _ _ _ _ _
    obtain ⟨hle, hq⟩ := ih
    rw [List.length_append, List.length_singleton]
    cases hleft : n - h.length with
    | zero =>
      rw [hleft] at hq
      exact hq.elim
    | succ left =>
      rw [hleft] at hq
      have hrest : n - (h.length + 1) = left := by omega
      exact ⟨by omega, hrest ▸ hq.2 _ e go⟩

/-- The next section can be taken. -/
def canStep : Program σ ε α → σ → Bool
  | ret _, _ => false
  | atomic ready _ _, s => ready s

/-- Plays a program undisturbed, one learned value for each section. -/
def play : Program σ ε α → σ → List ε → List (Step σ ε) × Program σ ε α × σ
  | p, s, [] => ([], p, s)
  | ret a, s, _ :: _ => ([], ret a, s)
  | atomic ready act next, s, e :: es =>
    if ready s then
      let r := play (next e s) (act e s) es
      (⟨s, e, act e s⟩ :: r.1, r.2)
    else ([], atomic ready act next, s)

/-- Playing is one of the interleaved runs. -/
theorem play_runs (p : Program σ ε α) (s : σ) (es : List ε) :
    Runs R p s (p.play s es).1 (p.play s es).2.1 (p.play s es).2.2 := by
  induction es generalizing p s with
  | nil =>
    rw [play]
    exact .refl
  | cons e es ih =>
    cases p with
    | ret a => exact .refl
    | atomic ready act next =>
      rw [play]
      split
      · rename_i go
        exact Runs.trans (.own e .refl go) (ih (next e s) (act e s))
      · exact .refl

/-- The section that is played is one of the program's. -/
theorem play_section {p : Program σ ε α} {s : σ} {e : ε} (h : (p.play s [e]).1 ≠ []) :
    p.Section s (p.play s [e]).2.2 := by
  cases p with
  | ret a => exact absurd rfl h
  | atomic ready act next =>
    rw [play] at h ⊢
    split
    · rename_i go
      have hnext : (play (next e s) (act e s) []).2.2 = act e s := by
        rw [play]
      rw [hnext]
      exact .now e go
    · rename_i wait
      rw [if_neg wait] at h
      exact absurd rfl h

/-- Rely reasoning: started in `s`, with interference from `R` before each
section and after the last, `J` holds of every state met and `Q` at the end. -/
def Safe (R : σ → σ → Prop) (J : σ → Prop) :
    Program σ ε α → (α → σ → Prop) → σ → Prop
  | ret a, Q, s => ∀ t, R s t → J t ∧ Q a t
  | atomic ready act next, Q, s => ∀ t, R s t → J t ∧
      (ready t = true → ∀ e, Safe R J (next e t) Q (act e t))

variable {I : σ → Prop}

theorem Safe.now {p : Program σ ε α} {Q : α → σ → Prop} {s t : σ}
    (hp : p.Safe R I Q s) (ht : R s t) : I t := by
  cases p with
  | ret a => exact (hp t ht).1
  | atomic ready act next => exact (hp t ht).1

/-- A safe program stays safe under interference. -/
theorem Safe.interfere (trans : ∀ {s t u}, R s t → R t u → R s u)
    {p : Program σ ε α} {Q : α → σ → Prop} {s t : σ}
    (hp : p.Safe R I Q s) (ht : R s t) : p.Safe R I Q t := by
  cases p with
  | ret a => exact fun u hu => hp u (trans ht hu)
  | atomic ready act next => exact fun u hu => hp u (trans ht hu)

theorem Safe.mono {p : Program σ ε α} {Q Q' : α → σ → Prop} {s : σ}
    (hp : p.Safe R I Q s) (hq : ∀ a t, Q a t → Q' a t) : p.Safe R I Q' s := by
  induction p generalizing s with
  | ret a => exact fun t ht => ⟨(hp t ht).1, hq a t (hp t ht).2⟩
  | atomic ready act next ih =>
    exact fun t ht => ⟨(hp t ht).1, fun hr e => ih e t ((hp t ht).2 hr e)⟩

theorem Safe.weaken {p : Program σ ε α} {Q : α → σ → Prop} {s : σ} {I' : σ → Prop}
    (hp : p.Safe R I Q s) (hi : ∀ t, I t → I' t) : p.Safe R I' Q s := by
  induction p generalizing s with
  | ret a => exact fun t ht => ⟨hi t (hp t ht).1, (hp t ht).2⟩
  | atomic ready act next ih =>
    exact fun t ht => ⟨hi t (hp t ht).1, fun hr e => ih e t ((hp t ht).2 hr e)⟩

theorem Safe.returns {p : Program σ ε α} {Q : α → σ → Prop} {A : α → Prop} {s : σ}
    (hp : p.Safe R I Q s) (ha : p.Returns A) : p.Safe R I (fun a t => A a ∧ Q a t) s := by
  induction p generalizing s with
  | ret a => exact fun t ht => ⟨(hp t ht).1, ha, (hp t ht).2⟩
  | atomic ready act next ih =>
    exact fun t ht => ⟨(hp t ht).1, fun hr e => ih e t ((hp t ht).2 hr e) (ha t e hr)⟩

/-- Sequencing: the second part starts wherever the first may return. -/
theorem Safe.bind (refl : ∀ s, R s s) {p : Program σ ε α} {f : α → Program σ ε β}
    {Q : β → σ → Prop} {s : σ}
    (hp : p.Safe R I (fun a t => (f a).Safe R I Q t) s) : (p >>= f).Safe R I Q s := by
  induction p generalizing s with
  | ret a => exact (hp s (refl s)).2
  | atomic ready act next ih =>
    exact fun t ht => ⟨(hp t ht).1, fun hr e => ih e t ((hp t ht).2 hr e)⟩

theorem Safe.critical {f : ε → σ → α × σ} {Q : α → σ → Prop} {s : σ}
    (hi : ∀ t, R s t → I t)
    (hf : ∀ t e u, R s t → R (f e t).2 u → I u ∧ Q (f e t).1 u) :
    (critical f).Safe R I Q s :=
  fun t ht => ⟨hi t ht, fun _ e u hu => hf t e u ht hu⟩

theorem Safe.ret (a : α) {Q : α → σ → Prop} {s : σ}
    (h : ∀ t, R s t → I t ∧ Q a t) : (ret a : Program σ ε α).Safe R I Q s := h

/-- A program each of whose sections keeps a stable assertion keeps it. -/
theorem Every.safe {p : Program σ ε α} (hp : p.Every G)
    (hg : ∀ s t, I s → G s t → I t) (hr : ∀ s t, I s → R s t → I t)
    {s : σ} (hs : I s) : p.Safe R I (fun _ => I) s := by
  induction p generalizing s with
  | ret a => exact fun t ht => ⟨hr s t hs ht, hr s t hs ht⟩
  | atomic ready act next ih =>
    intro t ht
    have hi := hr s t hs ht
    exact ⟨hi, fun go e => ih e t (hp t e go).2 (hg _ _ hi (hp t e go).1)⟩

end Program

/-- Programs of several threads over one state. -/
structure Config (ι σ ε : Type) where
  state : σ
  threads : ι → Program σ ε Unit

/-- A schedule starts jobs on idle threads and lets threads take one section. -/
inductive Move (ι ε ω : Type) where
  | start (thread : ι) (job : ω)
  | step (thread : ι) (learned : ε)

namespace Config

variable [DecidableEq ι]

def step (spawn : ι → ω → Program σ ε Unit) (c : Config ι σ ε) : Move ι ε ω → Config ι σ ε
  | .start i job =>
    match c.threads i with
    | .ret _ => { c with threads := Function.update c.threads i (spawn i job) }
    | .atomic _ _ _ => c
  | .step i e =>
    match c.threads i with
    | .ret _ => c
    | .atomic ready act next =>
      if ready c.state then
        ⟨act e c.state, Function.update c.threads i (next e c.state)⟩
      else c

def idle (s : σ) : Config ι σ ε := ⟨s, fun _ => .ret ()⟩

/-- Configurations reached by schedules that start only jobs allowed in the
state in which they start. -/
inductive Reaches (spawn : ι → ω → Program σ ε Unit) (allowed : σ → ι → ω → Prop)
    (c₀ : Config ι σ ε) : Config ι σ ε → Prop where
  | refl : Reaches spawn allowed c₀ c₀
  | start (i : ι) (job : ω) (reached : Reaches spawn allowed c₀ c)
      (ok : allowed c.state i job) : Reaches spawn allowed c₀ (c.step spawn (.start i job))
  | step (i : ι) (e : ε) (reached : Reaches spawn allowed c₀ c) :
      Reaches spawn allowed c₀ (c.step spawn (.step i e))

theorem step_atomic (spawn : ι → ω → Program σ ε Unit) (s : σ) (threads : ι → Program σ ε Unit)
    (i : ι) (e : ε) {ready : σ → Bool} {act : ε → σ → σ} {next : ε → σ → Program σ ε Unit}
    (go : ready s = true) :
    step spawn ⟨s, Function.update threads i (.atomic ready act next)⟩ (.step i e : Move ι ε ω) =
      ⟨act e s, Function.update threads i (next e s)⟩ := by
  simp [step, go]

/-- A thread runs on while the others stand still. -/
theorem Reaches.play {spawn : ι → ω → Program σ ε Unit} {allowed : σ → ι → ω → Prop}
    {c₀ : Config ι σ ε} {s : σ} {threads : ι → Program σ ε Unit} {i : ι} {p : Program σ ε Unit}
    (hc : Reaches spawn allowed c₀ ⟨s, Function.update threads i p⟩) (es : List ε) :
    Reaches spawn allowed c₀ ⟨(p.play s es).2.2, Function.update threads i (p.play s es).2.1⟩ := by
  induction es generalizing p s with
  | nil =>
    rw [Program.play]
    exact hc
  | cons e es ih =>
    cases p with
    | ret a => exact hc
    | atomic ready act next =>
      rw [Program.play]
      split
      · rename_i go
        have hnext := Reaches.step i e hc
        rw [step_atomic spawn s threads i e go] at hnext
        exact ih hnext
      · exact hc

/-- A job done from its beginning to its end while nothing else happens. -/
theorem Reaches.plays {spawn : ι → ω → Program σ ε Unit} {allowed : σ → ι → ω → Prop}
    {c₀ : Config ι σ ε} {s : σ} (hc : Reaches spawn allowed c₀ (idle s)) (i : ι) (job : ω)
    (ok : allowed s i job) (es : List ε) (hend : ((spawn i job).play s es).2.1.result = some ()) :
    Reaches spawn allowed c₀ (idle ((spawn i job).play s es).2.2) := by
  have hstart : Reaches spawn allowed c₀
      ⟨s, Function.update (fun _ => .ret ()) i (spawn i job)⟩ := .start i job hc ok
  have hplay := hstart.play es
  rw [Program.eq_ret_of_result hend, Function.update_eq_self] at hplay
  exact hplay

/-- Does jobs one after the other, each from its beginning to its end; `none`
when one may not start or does not end. -/
def perform (spawn : ι → ω → Program σ ε Unit) (allowed : σ → ι → ω → Prop)
    [∀ s i job, Decidable (allowed s i job)] : List (ι × ω × List ε) → σ → Option σ
  | [], s => some s
  | (i, job, es) :: jobs, s =>
    let r := (spawn i job).play s es
    if allowed s i job ∧ r.2.1.result = some () then perform spawn allowed jobs r.2.2 else none

theorem Reaches.perform {spawn : ι → ω → Program σ ε Unit} {allowed : σ → ι → ω → Prop}
    [∀ s i job, Decidable (allowed s i job)] {c₀ : Config ι σ ε} {s t : σ}
    (hc : Reaches spawn allowed c₀ (idle s)) (jobs : List (ι × ω × List ε))
    (h : Config.perform spawn allowed jobs s = some t) : Reaches spawn allowed c₀ (idle t) := by
  induction jobs generalizing s with
  | nil =>
    cases h
    exact hc
  | cons j jobs ih =>
    obtain ⟨i, job, es⟩ := j
    rw [Config.perform] at h
    split at h
    · rename_i hdone
      exact ih (hc.plays i job hdone.1 es hdone.2) h
    · cases h

section RelyGuarantee
variable {spawn : ι → ω → Program σ ε Unit} {allowed : σ → ι → ω → Prop} {m : ι}
  {R : σ → σ → Prop} {J I : σ → Prop}

/-- Thread `m` against the rest: the others take only `R` steps, and every job
of `m` is safe against them. -/
def Separated (R : σ → σ → Prop) (J I : σ → Prop) (m : ι) (c : Config ι σ ε) : Prop :=
  (c.threads m).Safe R J (fun _ => I) c.state ∧ ∀ i, i ≠ m → (c.threads i).Every R

omit [DecidableEq ι] in
theorem Separated.idle (hr : ∀ s t, I s → R s t → I t) (hj : ∀ s, I s → J s) {s : σ} (hs : I s) :
    Separated R J I m (idle s : Config ι σ ε) :=
  ⟨fun t ht => ⟨hj t (hr s t hs ht), hr s t hs ht⟩, fun _ _ => trivial⟩

theorem Separated.start {c : Config ι σ ε} (hc : Separated R J I m c)
    (refl : ∀ s, R s s) (i : ι) (job : ω) (ok : allowed c.state i job)
    (main : ∀ s job, I s → allowed s m job → (spawn m job).Safe R J (fun _ => I) s)
    (others : ∀ i job, i ≠ m → (spawn i job).Every R) :
    Separated R J I m (c.step spawn (.start i job)) := by
  obtain ⟨hm, ho⟩ := hc
  simp only [Config.step]
  split
  · rename_i hret
    by_cases him : i = m
    · subst him
      rw [hret] at hm
      refine ⟨?_, fun j hj => by simpa [Function.update_of_ne hj] using ho j hj⟩
      simpa using main c.state job (hm c.state (refl _)).2 ok
    · refine ⟨by simpa [Function.update_of_ne (Ne.symm him)] using hm, fun j hj => ?_⟩
      by_cases hji : j = i
      · subst hji
        simpa using others j job hj
      · simpa [Function.update_of_ne hji] using ho j hj
  · exact ⟨hm, ho⟩

theorem Separated.step {c : Config ι σ ε} (hc : Separated R J I m c)
    (refl : ∀ s, R s s) (trans : ∀ {s t u}, R s t → R t u → R s u) (i : ι) (e : ε) :
    Separated R J I m (c.step spawn (.step i e)) := by
  obtain ⟨hm, ho⟩ := hc
  simp only [Config.step]
  split
  · exact ⟨hm, ho⟩
  · rename_i ready act next hat
    split
    · rename_i hr
      by_cases him : i = m
      · subst him
        rw [hat] at hm
        refine ⟨?_, fun j hj => by simpa [Function.update_of_ne hj] using ho j hj⟩
        simpa using (hm c.state (refl _)).2 hr e
      · have hi := ho i him
        rw [hat] at hi
        obtain ⟨hg, hn⟩ := hi c.state e hr
        have hkeep := Program.Safe.interfere (R := R) (t := act e c.state) trans hm hg
        refine ⟨by simpa [Function.update_of_ne (Ne.symm him)] using hkeep, fun j hj => ?_⟩
        by_cases hji : j = i
        · subst hji
          simpa using hn
        · simpa [Function.update_of_ne hji] using ho j hj
    · exact ⟨hm, ho⟩

/-- The run lemma: every reachable configuration keeps the main thread apart from the rest. -/
theorem Reaches.separated (refl : ∀ s, R s s) (trans : ∀ {s t u}, R s t → R t u → R s u)
    (hr : ∀ s t, I s → R s t → I t) (hj : ∀ s, I s → J s)
    (main : ∀ s job, I s → allowed s m job → (spawn m job).Safe R J (fun _ => I) s)
    (others : ∀ i job, i ≠ m → (spawn i job).Every R)
    {s : σ} (hs : I s) {c : Config ι σ ε} (hc : Reaches spawn allowed (idle s) c) :
    Separated R J I m c := by
  induction hc with
  | refl => exact .idle hr hj hs
  | start i job _ ok ih => exact ih.start refl i job ok main others
  | step i e _ ih => exact ih.step refl trans i e

/-- What the main thread's jobs and the others' sections respect holds of every reachable
state. -/
theorem Reaches.safe (refl : ∀ s, R s s) (trans : ∀ {s t u}, R s t → R t u → R s u)
    (hr : ∀ s t, I s → R s t → I t) (hj : ∀ s, I s → J s)
    (main : ∀ s job, I s → allowed s m job → (spawn m job).Safe R J (fun _ => I) s)
    (others : ∀ i job, i ≠ m → (spawn i job).Every R)
    {s : σ} (hs : I s) {c : Config ι σ ε} (hc : Reaches spawn allowed (idle s) c) :
    J c.state :=
  (hc.separated refl trans hr hj main others hs).1.now (refl _)

end RelyGuarantee

end Config

end HarmonyScreen.Lib
