import Mathlib.Data.List.Infix
import HarmonyScreen.Lib.Discipline

namespace HarmonyScreen.Lib

/-- A client that reacts to what it hears, and a server that runs a program on each request. What
either says reaches the other in order and is not lost. -/
structure Dialogue (κ η μ ν σ ε α : Type) where
  /-- What the client does by itself. -/
  act : η → κ → κ
  hear : ν → κ → κ
  sent : κ → List μ
  /-- What the server does with a further request, if it waits for one. -/
  serve : α → Option (μ → Program σ ε α)
  said : σ → List ν
  /-- What a section of the server may learn. -/
  offers : ε → Prop
  /-- What other threads of the server do. -/
  other : σ → σ → Prop

namespace Dialogue

/-- Both ends, with what either has taken up of the other's messages. -/
structure State (κ μ ν σ ε α : Type) where
  client : κ
  heard : List ν
  server : Program σ ε α
  taken : List μ
  session : σ

variable {κ η μ ν σ ε α : Type}

inductive Step (d : Dialogue κ η μ ν σ ε α) : State κ μ ν σ ε α → State κ μ ν σ ε α → Prop where
  | act {c : State κ μ ν σ ε α} (x : η) : Step d c { c with client := d.act x c.client }
  | hear {c : State κ μ ν σ ε α} (reply : ν) (next : c.heard ++ [reply] <+: d.said c.session) :
      Step d c { c with client := d.hear reply c.client, heard := c.heard ++ [reply] }
  | take {c : State κ μ ν σ ε α} {a : α} {handle : μ → Program σ ε α} (request : μ)
      (waits : c.server = .ret a) (serves : d.serve a = some handle)
      (next : c.taken ++ [request] <+: d.sent c.client) :
      Step d c { c with server := handle request, taken := c.taken ++ [request] }
  | work {c : State κ μ ν σ ε α} {ready : σ → Bool} {act : ε → σ → σ}
      {next : ε → σ → Program σ ε α} (e : ε) (at_ : c.server = .atomic ready act next)
      (go : ready c.session = true) (ok : d.offers e) :
      Step d c { c with server := next e c.session, session := act e c.session }
  | other {c : State κ μ ν σ ε α} (t : σ) (ok : d.other c.session t) :
      Step d c { c with session := t }

/-- The states of a dialogue that begins with this client and session. -/
inductive Reaches (d : Dialogue κ η μ ν σ ε α) (c₀ : State κ μ ν σ ε α) :
    State κ μ ν σ ε α → Prop where
  | refl : Reaches d c₀ c₀
  | step (reached : Reaches d c₀ c) (step : Step d c c') : Reaches d c₀ c'

/-- What the two ends promise each other: the client as long as it has heard only what was said to
it, the server as long as it has taken up only what was sent. `D` is what the server keeps to while
it has taken up these requests, `S` what it has come to when it is done with them. -/
structure Outline (d : Dialogue κ η μ ν σ ε α) (D : List μ → Discipline Unit σ ε)
    (C : κ → List ν → Prop) (S : List μ → α → σ → Prop) : Prop where
  offers : ∀ ts s e, d.offers e → (D ts).offers () s e
  other : ∀ ts s t, (D ts).invariant s → d.other s t →
    (D ts).rely () s t ∧ (D ts).invariant t ∧ d.said s <+: d.said t
  said : ∀ ts s t, (D ts).guarantee () s t → d.said s <+: d.said t
  act : ∀ e x hs, C x hs → C (d.act e x) hs ∧ d.sent x <+: d.sent (d.act e x)
  hear : ∀ x hs ts s reply, C x hs → (D ts).invariant s → ts <+: d.sent x →
    hs ++ [reply] <+: d.said s →
    C (d.hear reply x) (hs ++ [reply]) ∧ d.sent x <+: d.sent (d.hear reply x)
  take : ∀ x hs ts s a handle request, C x hs → (D ts).invariant s → S ts a s →
    d.serve a = some handle → ts ++ [request] <+: d.sent x → hs <+: d.said s →
    (D (ts ++ [request])).invariant s ∧
      (handle request).Meets (D (ts ++ [request])) () (S (ts ++ [request])) s

/-- Both ends keep their promises. -/
structure Kept (d : Dialogue κ η μ ν σ ε α) (D : List μ → Discipline Unit σ ε)
    (C : κ → List ν → Prop) (S : List μ → α → σ → Prop) (c : State κ μ ν σ ε α) : Prop where
  client : C c.client c.heard
  server : c.server.Meets (D c.taken) () (S c.taken) c.session
  invariant : (D c.taken).invariant c.session
  taken : c.taken <+: d.sent c.client
  heard : c.heard <+: d.said c.session

variable {d : Dialogue κ η μ ν σ ε α} {D : List μ → Discipline Unit σ ε} {C : κ → List ν → Prop}
  {S : List μ → α → σ → Prop} {c c' c₀ : State κ μ ν σ ε α}

theorem Kept.returned (h : Kept d D C S c) {a : α} (hret : c.server = .ret a) :
    S c.taken a c.session := by
  have hserver := h.server
  rw [hret] at hserver
  exact hserver c.session ((D c.taken).refl () c.session) h.invariant

theorem Kept.step (h : Kept d D C S c) (ho : Outline d D C S) (step : Step d c c') :
    Kept d D C S c' := by
  obtain ⟨hclient, hserver, hinvariant, htaken, hheard⟩ := h
  cases step with
  | act x =>
    obtain ⟨hnext, hsent⟩ := ho.act x _ _ hclient
    exact ⟨hnext, hserver, hinvariant, htaken.trans hsent, hheard⟩
  | hear reply next =>
    obtain ⟨hnext, hsent⟩ := ho.hear _ _ _ _ reply hclient hinvariant htaken next
    exact ⟨hnext, hserver, hinvariant, htaken.trans hsent, next⟩
  | take request waits serves next =>
    have hreturned := Kept.returned ⟨hclient, hserver, hinvariant, htaken, hheard⟩ waits
    obtain ⟨hbegins, hmeets⟩ :=
      ho.take _ _ _ _ _ _ request hclient hinvariant hreturned serves next hheard
    exact ⟨hclient, hmeets, hbegins, next, hheard⟩
  | work e at_ go ok =>
    rw [at_] at hserver
    obtain ⟨hkeep, hgo, hnext⟩ := hserver c.session ((D c.taken).refl () c.session) hinvariant go e
      (ho.offers _ _ e ok)
    exact ⟨hclient, hnext, hkeep, htaken, hheard.trans (ho.said _ _ _ hgo)⟩
  | other t ok =>
    obtain ⟨hrely, hkeep, hsaid⟩ := ho.other _ _ t hinvariant ok
    exact ⟨hclient, hserver.interfere hrely, hkeep, htaken, hheard.trans hsaid⟩

/-- The run lemma: a dialogue whose ends keep their promises at its beginning keeps them. -/
theorem Reaches.kept (hc : Reaches d c₀ c) (ho : Outline d D C S) (h : Kept d D C S c₀) :
    Kept d D C S c := by
  induction hc with
  | refl => exact h
  | step _ step ih => exact ih.step ho step

section Schedules
variable [DecidableEq μ] [DecidableEq ν]

/-- What happens next in a schedule without interference. -/
inductive Move (η ε : Type) where
  | act (x : η)
  | hear
  | take
  | work (e : ε)

/-- The state after one move; `none` when it cannot be made. -/
def move (d : Dialogue κ η μ ν σ ε α) [DecidablePred d.offers] (c : State κ μ ν σ ε α) :
    Move η ε → Option (State κ μ ν σ ε α)
  | .act x => some { c with client := d.act x c.client }
  | .hear =>
    match (d.said c.session)[c.heard.length]? with
    | none => none
    | some reply =>
      if c.heard ++ [reply] <+: d.said c.session then
        some { c with client := d.hear reply c.client, heard := c.heard ++ [reply] }
      else none
  | .take =>
    match c.server, (d.sent c.client)[c.taken.length]? with
    | .ret a, some request =>
      match d.serve a with
      | none => none
      | some handle =>
        if c.taken ++ [request] <+: d.sent c.client then
          some { c with server := handle request, taken := c.taken ++ [request] }
        else none
    | _, _ => none
  | .work e =>
    match c.server with
    | .ret _ => none
    | .atomic ready act next =>
      if ready c.session = true ∧ d.offers e then
        some { c with server := next e c.session, session := act e c.session }
      else none

/-- The state after a schedule. -/
def play (d : Dialogue κ η μ ν σ ε α) [DecidablePred d.offers] :
    List (Move η ε) → State κ μ ν σ ε α → Option (State κ μ ν σ ε α)
  | [], c => some c
  | m :: moves, c => (d.move c m).bind (d.play moves)

variable [DecidablePred d.offers]

theorem move_step {m : Move η ε} (h : d.move c m = some c') : Step d c c' := by
  cases m with
  | act x =>
    cases h
    exact .act x
  | hear =>
    simp only [move] at h
    split at h
    · cases h
    · split at h
      · cases h
        exact .hear _ ‹_›
      · cases h
  | take =>
    simp only [move] at h
    split at h
    · split at h
      · cases h
      · split at h
        · cases h
          exact .take _ ‹_› ‹_› ‹_›
        · cases h
    · cases h
  | work e =>
    simp only [move] at h
    split at h
    · cases h
    · split at h
      · cases h
        rename_i ready act next at_ ok
        exact .work e at_ ok.1 ok.2
      · cases h

theorem Reaches.play (hc : Reaches d c₀ c) (moves : List (Move η ε))
    (h : d.play moves c = some c') : Reaches d c₀ c' := by
  induction moves generalizing c with
  | nil =>
    cases h
    exact hc
  | cons m moves ih =>
    obtain ⟨next, hmove, hrest⟩ := Option.bind_eq_some_iff.mp h
    exact ih (hc.step (move_step hmove)) hrest

end Schedules

end Dialogue

end HarmonyScreen.Lib
