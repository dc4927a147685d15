import HarmonyScreen.Lib.Discipline

namespace HarmonyScreen.Lib.Program

/-- A program on a part of the state. -/
def focus {σ τ ε δ α : Type} (get : σ → τ) (put : τ → σ → σ) (hear : ε → δ) :
    Program τ δ α → Program σ ε α
  | ret a => ret a
  | atomic ready act next =>
    atomic (fun s => ready (get s)) (fun e s => put (act (hear e) (get s)) s)
      (fun e s => focus get put hear (next (hear e) (get s)))

variable {σ τ ε δ α β : Type} {get : σ → τ} {put : τ → σ → σ} {hear : ε → δ}

@[simp] theorem focus_ret (a : α) : focus get put hear (.ret a : Program τ δ α) = .ret a := rfl

@[simp] theorem focus_critical (f : δ → τ → α × τ) :
    focus get put hear (critical f) =
      critical fun e s => ((f (hear e) (get s)).1, put (f (hear e) (get s)).2 s) := rfl

@[simp] theorem focus_bind (p : Program τ δ α) (f : α → Program τ δ β) :
    focus get put hear (p >>= f) = focus get put hear p >>= fun a => focus get put hear (f a) := by
  induction p with
  | ret a => rfl
  | atomic ready act next ih =>
    simp only [atomic_bind, focus]
    congr 1
    funext e s
    exact ih (hear e) (get s)

theorem Every.focus {G : τ → τ → Prop} {G' : σ → σ → Prop} {p : Program τ δ α} (hp : p.Every G)
    (hg : ∀ s t, G (get s) t → G' s (put t s)) : (focus get put hear p).Every G' := by
  induction p with
  | ret a => trivial
  | atomic ready act next ih =>
    intro s e hs
    obtain ⟨hstep, hrest⟩ := hp (get s) (hear e) hs
    exact ⟨hg s _ hstep, ih _ _ hrest⟩

end HarmonyScreen.Lib.Program
