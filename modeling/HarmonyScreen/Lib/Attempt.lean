import HarmonyScreen.Lib.Discipline

namespace HarmonyScreen.Lib

/-- A program that returns or fails with a message. -/
abbrev Attempt (σ ε : Type) := ExceptT String (Program σ ε)

namespace Attempt

/-- The code up to the next wait. -/
def turn (f : ε → σ → α × σ) : Attempt σ ε α := ExceptT.lift (Program.critical f)

/-- An awaited call of something outside: served or rejected at one moment, resumed later. -/
def request (rejection : ε → Option String) (serve : ε → σ → α × σ) : Attempt σ ε α := do
  let answer ← turn fun e s =>
    match rejection e with
    | some message => (.error message, s)
    | none => ((.ok (serve e s).1 : Except String α), (serve e s).2)
  ExceptT.lift (Program.await fun _ => true)
  ExceptT.mk (pure answer)

def ofResult (result : Except String α) : Attempt σ ε α := ExceptT.mk (pure result)

variable {ι σ ε α β : Type} {x : Attempt σ ε α} {f : α → Attempt σ ε β}
  {handle : String → Attempt σ ε α} {G : σ → σ → Prop}

theorem run_bind (x : Attempt σ ε α) (f : α → Attempt σ ε β) :
    (x >>= f).run = x.run >>= fun r =>
      Except.casesOn r (fun message => .ret (.error message)) fun a => (f a).run := by
  simp only [ExceptT.run_bind]
  congr 1
  funext r
  cases r <;> rfl

theorem run_tryCatch (x : Attempt σ ε α) (handle : String → Attempt σ ε α) :
    (tryCatch x handle).run = x.run >>= fun r =>
      Except.casesOn r (fun message => (handle message).run) fun a => .ret (.ok a) := by
  change (x.run >>= fun r => _) = _
  congr 1
  funext r
  cases r <;> rfl

section Every

theorem every_pure (a : α) : (pure a : Attempt σ ε α).run.Every G := trivial

theorem every_throw (message : String) : (throw message : Attempt σ ε α).run.Every G := trivial

theorem every_lift {p : Program σ ε α} (hp : p.Every G) :
    (ExceptT.lift p : Attempt σ ε α).run.Every G :=
  hp.bind fun _ => trivial

theorem every_bind (hx : x.run.Every G) (hf : ∀ a, (f a).run.Every G) :
    (x >>= f).run.Every G := by
  rw [run_bind]
  refine hx.bind fun r => ?_
  cases r with
  | error message => trivial
  | ok a => exact hf a

theorem every_tryCatch (hx : x.run.Every G) (hhandle : ∀ message, (handle message).run.Every G) :
    (tryCatch x handle).run.Every G := by
  rw [run_tryCatch]
  refine hx.bind fun r => ?_
  cases r with
  | error message => exact hhandle message
  | ok a => trivial

theorem every_turn {f : ε → σ → α × σ} (h : ∀ e s, G s (f e s).2) :
    (turn f : Attempt σ ε α).run.Every G := by
  apply every_lift
  rw [Program.every_critical]
  intro s e
  exact h e s

/-- A wait that changes nothing. -/
theorem every_await {ready : σ → Bool} (refl : ∀ s, G s s) :
    (ExceptT.lift (Program.await ready) : Attempt σ ε Unit).run.Every G :=
  every_lift fun s _ _ => ⟨refl s, trivial⟩

theorem every_request {rejection : ε → Option String} {serve : ε → σ → α × σ}
    (refl : ∀ s, G s s) (h : ∀ e s, G s (serve e s).2) :
    (request rejection serve : Attempt σ ε α).run.Every G := by
  refine every_bind (every_turn fun e s => ?_) fun answer =>
    every_bind (every_await refl) fun _ => trivial
  cases rejection e with
  | none => exact h e s
  | some message => exact refl s

theorem every_ofResult (result : Except String α) :
    (ofResult result : Attempt σ ε α).run.Every G := trivial

end Every

section Outline
variable {D : Discipline ι σ ε} {i : ι} {P P' E E' : σ → Prop} {Q Q' : α → σ → Prop}

/-- What holds behind a return and behind a failure. -/
def After (Q : α → σ → Prop) (E : σ → Prop) (r : Except String α) (s : σ) : Prop :=
  Except.casesOn r (fun _ => E s) fun a => Q a s

/-- From `P`, thread `i` keeps the discipline, and returns with `Q` or fails with `E`. -/
def Outline (D : Discipline ι σ ε) (i : ι) (P : σ → Prop) (x : Attempt σ ε α)
    (Q : α → σ → Prop) (E : σ → Prop) : Prop :=
  D.Outline i P x.run (After Q E)

namespace Outline

theorem pure (a : α) (stable : D.Stable i (Q a)) : Outline D i (Q a) (pure a) Q E :=
  Discipline.Outline.ret _ stable fun _ _ h => h

theorem kept (a : α) (stable : D.Stable i P) :
    Outline D i P (Pure.pure a) (fun _ => P) E :=
  Discipline.Outline.ret _ stable fun _ _ h => h

theorem throw (message : String) (stable : D.Stable i E) :
    Outline D i E (throw message : Attempt σ ε α) Q E :=
  Discipline.Outline.ret _ stable fun _ _ h => h

/-- A result that was checked: behind it, it is known to be the value. -/
theorem passed (result : Except String α) (stable : D.Stable i P) (h : ∀ s, P s → E s) :
    Outline D i P (Attempt.ofResult result) (fun a s => result = .ok a ∧ P s) E := by
  cases result with
  | error message => exact Discipline.Outline.ret _ stable fun s _ hs => h s hs
  | ok a => exact Discipline.Outline.ret _ stable fun s _ hs => ⟨rfl, hs⟩

theorem ofResult (result : Except String α) (stable : D.Stable i (After Q E result)) :
    Outline D i (After Q E result) (ofResult result) Q E :=
  Discipline.Outline.ret _ stable fun _ _ h => h

theorem lift {p : Program σ ε α} (hp : D.Outline i P p Q) (stable : ∀ a, D.Stable i (Q a)) :
    Outline D i P (ExceptT.lift p : Attempt σ ε α) Q E :=
  hp.bind fun _ => Discipline.Outline.ret _ (stable _) fun _ _ h => h

theorem bind {Q' : β → σ → Prop} (hx : Outline D i P x Q E) (stable : D.Stable i E)
    (hf : ∀ a, Outline D i (Q a) (f a) Q' E) : Outline D i P (x >>= f) Q' E := by
  rw [Outline, run_bind]
  refine Discipline.Outline.bind hx fun r => ?_
  cases r with
  | error message => exact Discipline.Outline.ret _ stable fun _ _ h => h
  | ok a => exact hf a

theorem tryCatch (hx : Outline D i P x Q E) (stable : ∀ a, D.Stable i (Q a))
    (hhandle : ∀ message, Outline D i E (handle message) Q E') :
    Outline D i P (tryCatch x handle) Q E' := by
  rw [Outline, run_tryCatch]
  refine Discipline.Outline.bind hx fun r => ?_
  cases r with
  | error message => exact hhandle message
  | ok a => exact Discipline.Outline.ret _ (stable a) fun _ _ h => h

theorem weaken (hx : Outline D i P x Q E) (hP : ∀ s, D.invariant s → P' s → P s)
    (hQ : ∀ a s, D.invariant s → Q a s → Q' a s) (hE : ∀ s, D.invariant s → E s → E' s) :
    Outline D i P' x Q' E' := by
  refine Discipline.Outline.weaken hx hP fun r s hi h => ?_
  cases r with
  | error message => exact hE s hi h
  | ok a => exact hQ a s hi h

theorem turn {f : ε → σ → α × σ} (stable : D.Stable i P) (after : ∀ a, D.Stable i (Q a))
    (h : ∀ e s, D.invariant s → P s → D.offers i s e →
      D.invariant (f e s).2 ∧ D.guarantee i s (f e s).2 ∧ Q (f e s).1 (f e s).2) :
    Outline D i P (turn f) Q E :=
  .lift (.critical stable after h) after

/-- A request that is rejected leaves things as they were. -/
theorem request {rejection : ε → Option String} {serve : ε → σ → α × σ} (stable : D.Stable i P)
    (after : ∀ a, D.Stable i (Q a)) (idle : ∀ s, D.guarantee i s s)
    (h : ∀ e s, D.invariant s → P s → D.offers i s e →
      D.invariant (serve e s).2 ∧ D.guarantee i s (serve e s).2 ∧
        Q (serve e s).1 (serve e s).2) : Outline D i P (request rejection serve) Q P := by
  have hafter : ∀ r : Except String α, D.Stable i (After Q P r) := by
    intro r
    cases r with
    | ok a => exact after a
    | error message => exact stable
  refine .bind (.turn stable hafter fun e s hs hp he => ?_) stable fun answer => ?_
  · cases rejection e with
    | none => exact h e s hs hp he
    | some message => exact ⟨hs, idle s, hp⟩
  refine .bind (.lift ?_ fun _ => hafter answer) stable fun _ => ?_
  · refine .atomic (hafter answer) fun _ s hs hq _ _ => ⟨hs, idle s, ?_⟩
    exact fun t ht hi => hafter answer s t hq ht hi
  · exact Discipline.Outline.ret _ (hafter answer) fun _ _ hq => hq

/-- A part of a thread that is not concerned with the assertion keeps it. -/
theorem of_every {G : σ → σ → Prop} (hx : x.run.Every G) (stable : D.Stable i P)
    (hG : ∀ s t, D.invariant s → G s t → D.invariant t ∧ D.guarantee i s t)
    (hP : ∀ s t, P s → G s t → P t) : Outline D i P x (fun _ => P) P := by
  refine (Discipline.Outline.of_every hx stable hG hP).weaken (fun _ _ h => h) fun r _ _ h => ?_
  cases r <;> exact h

end Outline

end Outline

end Attempt

end HarmonyScreen.Lib
